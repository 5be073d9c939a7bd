import NewsService.Proofs.Document.Fields
import NewsService.Proofs.Document.Resolve
import NewsService.Record.Decode

/-!
# Records in place of references

A document with resolved fields is read in the same way whether it is a record of its own or stands
in the place of a reference. A value without reserved keys spells nothing but itself, so documents
of such values are of this sort.
-/

namespace NewsService

/-- Whether a key begins as the reserved ones do. -/
def isReserved (key : String) : Bool :=
  key.toList.head? == some '$'

theorem ofName?_of_not_reserved {key : String} (h : isReserved key = false) :
    ReservedKey.ofName? key = none := by
  unfold ReservedKey.ofName?
  split
  all_goals first | rfl | exact absurd h (by decide)

namespace Value

mutual

/-- Whether a value has no reserved keys at any depth. -/
def isPlain : Value → Bool
  | .array items => plainItems items
  | .document fields => plainFields fields
  | .scopedCode _ scope => plainFields scope
  | _ => true

/-- Whether the items of an array have no reserved keys. -/
def plainItems : List Value → Bool
  | [] => true
  | v :: rest => isPlain v && plainItems rest

/-- Whether the fields of a document have no reserved keys. -/
def plainFields : List (String × Value) → Bool
  | [] => true
  | (key, v) :: rest => !isReserved key && isPlain v && plainFields rest

end

theorem plainItems_iff {items : List Value} :
    plainItems items = true ↔ ∀ v ∈ items, v.isPlain = true := by
  induction items with
  | nil => simp [plainItems]
  | cons v rest ih => simp [plainItems, ih]

theorem plainFields_iff {fields : Document} :
    plainFields fields = true ↔
      ∀ entry ∈ fields, isReserved entry.1 = false ∧ entry.2.isPlain = true := by
  induction fields with
  | nil => simp [plainFields]
  | cons entry rest ih => simp [plainFields, ih]

mutual

/-- A value without reserved keys spells itself. -/
theorem resolve_of_plain : ∀ v : Value, v.isPlain = true → v.resolve = .ok v
  | .array items, h => by
    have hitems := resolveItems_of_plain items h
    rw [resolve, hitems]
    rfl
  | .document fields, h => resolveFields_of_plain fields h
  | .scopedCode source scope, h => by
    have hscope := resolveFields_of_plain scope h
    rw [resolve, hscope]
    rfl
  | .null, _ | .boolean _, _ | .int32 _, _ | .int64 _, _ | .double _, _ | .string _, _
  | .objectId _, _ | .dateTime _, _ | .binary _ _, _ | .undefined, _ | .minKey, _ | .maxKey, _
  | .symbol _, _ | .code _, _ | .regex _ _, _ | .timestamp _ _, _ | .decimal128 _, _
  | .pointer _ _, _ => rfl

theorem resolveItems_of_plain :
    ∀ items : List Value, plainItems items = true → resolveItems items = .ok items
  | [], _ => rfl
  | v :: rest, h => by
    rw [plainItems, Bool.and_eq_true] at h
    rw [resolveItems, resolve_of_plain v h.1, resolveItems_of_plain rest h.2]
    rfl

theorem resolveFields_of_plain :
    ∀ fields : List (String × Value), plainFields fields = true →
      resolveFields fields = .ok (.document fields)
  | [], _ => rfl
  | (key, v) :: rest, h => by
    rw [plainFields, Bool.and_eq_true, Bool.and_eq_true, Bool.not_eq_true'] at h
    obtain ⟨⟨hkey, hv⟩, hrest⟩ := h
    rw [resolveFields.eq_def]
    simp only [ofName?_of_not_reserved hkey, resolve_of_plain v hv,
      resolveFields_of_plain rest hrest]
    rfl

end

end Value

/-! ## Reading resolved values -/

theorem Related.decode_of_resolved {v : Value} (h : v.resolve = .ok v) (target : RecordType) :
    Related.decode target v = Related.ofResolved target v := by
  rw [Related.decode, h]
  rfl

theorem Related.decodeList_of_resolved {items : List Value}
    (h : ∀ v ∈ items, v.resolve = .ok v) (target : RecordType) :
    Related.decodeList target items = Related.listOfResolved target items := by
  induction items with
  | nil => rw [Related.decodeList, Related.listOfResolved]
  | cons v rest ih =>
    obtain ⟨hv, hrest⟩ := List.forall_mem_cons.1 h
    rw [Related.decodeList, Related.listOfResolved, Related.decode_of_resolved hv, ih hrest]

theorem Content.decode_of_resolved {v : Value} (h : v.resolve = .ok v) (type : FieldType) :
    Content.decode type v = Content.ofResolved type v := by
  by_cases hnull : v = .null
  · rw [hnull, Content.decode, Content.ofResolved]
  · cases type with
    | scalar type => rw [Content.decode, Content.ofResolved] <;> exact hnull
    | asset type => rw [Content.decode, Content.ofResolved] <;> exact hnull
    | reference target =>
      rw [Content.decode, Content.ofResolved, Related.decode_of_resolved h] <;> exact hnull
    | references target =>
      cases v with
      | null => exact absurd rfl hnull
      | array items =>
        have hitems := Value.resolve_of_mem_items (Value.resolveItems_of_array h)
        rw [Content.decode, Content.ofResolved, Related.decodeList_of_resolved hitems]
      | _ => simp [Content.decode, Content.ofResolved]

/-- A document with resolved fields is walked in the same way in either place. -/
theorem Record.partsOfResolved_eq (type : RecordType) {d : Document}
    (h : ∀ entry ∈ d, entry.2.resolve = .ok entry.2) :
    Record.partsOfResolved type d = Record.partsOf type d := by
  induction d with
  | nil => rw [Record.partsOfResolved, Record.partsOf]
  | cons entry rest ih =>
    obtain ⟨key, v⟩ := entry
    obtain ⟨hv, hrest⟩ := List.forall_mem_cons.1 h
    rw [Record.partsOfResolved, Record.partsOf, ih hrest]
    split
    · rfl
    · split
      · rfl
      · rw [Content.decode_of_resolved hv]

/-- A reference that is a document, or spells one, is the record that this document is, and fails as
it does. -/
theorem Related.decode_of_resolve_document {v : Value} {fields : Document}
    (h : v.resolve = .ok (.document fields)) (target : RecordType) :
    Related.decode target v = .expanded <$> Record.decode target fields := by
  have hfixed : Value.resolveFields fields = .ok (.document fields) :=
    Value.resolve_of_resolve v _ h
  have hwalk := Record.partsOfResolved_eq target (Value.resolve_of_mem_fields hfixed)
  have hread : Related.decode target v = Related.ofResolved target (.document fields) := by
    rw [Related.decode, h]
    rfl
  rw [hread, Related.ofResolved, hwalk, Record.decode]
  cases Record.partsOf target fields with
  | error e => rfl
  | ok parts =>
    cases hrecord : parts.toRecord target with
    | error e =>
      simp only [bind, Except.bind, hrecord]
      rfl
    | ok r =>
      simp only [bind, Except.bind, hrecord]
      rfl

/-- A document without reserved keys stands in the place of a reference as the record it is. -/
theorem Related.decode_document {d : Document} (h : Value.plainFields d = true)
    (target : RecordType) :
    Related.decode target (.document d) = .expanded <$> Record.decode target d := by
  have hplain : (Value.document d).isPlain = true := h
  exact Related.decode_of_resolve_document (Value.resolve_of_plain _ hplain) target

/-- Documents without reserved keys stand in a list of references as the records they are. -/
theorem Related.decodeList_documents {docs : List Document}
    (h : ∀ d ∈ docs, Value.plainFields d = true) (target : RecordType) :
    Related.decodeList target (docs.map .document) =
      docs.mapM fun d => .expanded <$> Record.decode target d := by
  induction docs with
  | nil => rfl
  | cons d rest ih =>
    rw [List.map_cons, Related.decodeList, List.mapM_cons, Related.decode_document (h d (by simp)),
      ih fun d hd => h d (List.mem_cons_of_mem _ hd)]

end NewsService
