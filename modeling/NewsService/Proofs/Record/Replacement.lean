import NewsService.Proofs.Record.FreeContent

/-!
# Replacing references

A reference at the end of a chain of links can be replaced, in a document, in a record and in served
JSON. Main statement: a document in which the value of one reference is replaced is read as the
record in which that reference is replaced.
-/

namespace NewsService

variable {type target : RecordType} {d : Document} {r : Record} {l : Link} {ref : Related}

/-! ## Replacing -/

namespace Document

/-- Replaces what a document holds for a reference. -/
def setReference (d : Document) (l : Link) (v : Value) : Document :=
  match l.place, d.lookup l.field.key with
  | none, _ => d.insert l.field.key v
  | some i, some (.array items) => d.insert l.field.key (.array (items.set i v))
  | some _, _ => d

/-- Replaces what a document holds for the reference at the end of a chain. -/
def replaceAt (d : Document) : List Link → Link → Value → Document
  | [], last, v => d.setReference last v
  | l :: rest, last, v =>
    match d.linked? l with
    | some inner => d.setReference l (.document (inner.replaceAt rest last v))
    | none => d

end Document

namespace Record

/-- Replaces the content of a field. -/
def setContent (r : Record) (field : Field FieldType) (content : Content) : Record :=
  { r with contents :=
      (r.type.fields.zip r.contents).map fun entry => if entry.1 = field then content else entry.2 }

/-- Replaces a reference. -/
def setReference (r : Record) (l : Link) (ref : Related) : Record :=
  match l.place, r.content? l.field with
  | none, _ => r.setContent l.field (.reference (some ref))
  | some i, some (.references refs) => r.setContent l.field (.references (refs.set i ref))
  | some _, _ => r

/-- Replaces the reference at the end of a chain. -/
def replaceAt (r : Record) : List Link → Link → Related → Record
  | [], last, ref => r.setReference last ref
  | l :: rest, last, ref =>
    match r.linked? l with
    | some inner => r.setReference l (.expanded (inner.replaceAt rest last ref))
    | none => r

end Record

namespace Json

/-- Replaces the value under a name. -/
def setValue (j : Json) (name : String) (value : Json) : Json :=
  match j with
  | .object members =>
    .object (members.map fun member => if member.1 = name then (name, value) else member)
  | other => other

/-- Replaces the value to which a link leads. -/
def setReference (j : Json) (l : Link) (value : Json) : Json :=
  match l.place, j.valueAt? l.field.name with
  | none, _ => j.setValue l.field.name value
  | some i, some (.array items) => j.setValue l.field.name (.array (items.set i value))
  | some _, _ => j

/-- Replaces the value at the end of a chain. -/
def replaceAt (j : Json) : List Link → Link → Json → Json
  | [], last, value => j.setReference last value
  | l :: rest, last, value =>
    match j.linked? l with
    | some inner => j.setReference l (inner.replaceAt rest last value)
    | none => j

end Json

/-! ## Resolved values -/

namespace Value

open DecodeError

theorem resolveFields_ne_array (fields : Document) (ws : List Value) :
    resolveFields fields ≠ .ok (.array ws) := by
  induction fields with
  | nil => nofun
  | cons entry rest ih =>
    obtain ⟨key, v⟩ := entry
    intro h
    rw [resolveFields.eq_def] at h
    dsimp only at h
    split at h
    · split at h
      · cases h
      · obtain ⟨bindings, -, h⟩ := exists_of_bind_eq_ok h
        split at h <;> cases h
      · cases h
    · obtain ⟨bindings, -, h⟩ := exists_of_bind_eq_ok h
      split at h
      · obtain ⟨source, -, h⟩ := exists_of_bind_eq_ok h
        cases h
      · cases h
      · cases h
    · cases isAtom_of_spelled h
    · obtain ⟨w, -, h⟩ := exists_of_bind_eq_ok h
      obtain ⟨spelled, hspelled, h⟩ := exists_of_bind_eq_ok h
      split at h
      · cases h
      · obtain rfl := Except.ok.inj h
        exact ih hspelled

/-- Nothing but an array is resolved to an array. -/
theorem exists_items_of_resolve {v : Value} {ws : List Value} (h : v.resolve = .ok (.array ws)) :
    ∃ items, v = .array items ∧ List.Forall₂ (fun v w => v.resolve = .ok w) items ws := by
  cases v with
  | array items =>
    rw [resolve] at h
    obtain ⟨resolved, hresolved, h⟩ := exists_of_bind_eq_ok h
    obtain rfl := Value.array.inj (Except.ok.inj h)
    exact ⟨items, rfl, resolveItems_eq_ok.1 hresolved⟩
  | document fields => exact absurd h (resolveFields_ne_array fields ws)
  | scopedCode source scope =>
    rw [resolve] at h
    obtain ⟨bindings, -, h⟩ := exists_of_bind_eq_ok h
    split at h <;> cases h
  | _ => cases h

/-- Nothing but a document is resolved to a document. -/
theorem exists_fields_of_resolve {v : Value} {w : Document} (h : v.resolve = .ok (.document w)) :
    ∃ fields, v = .document fields ∧ List.Forall₂ ResolvesTo fields w := by
  cases v with
  | document fields => exact ⟨fields, rfl, resolveFields_eq_document.1 h⟩
  | array items =>
    rw [resolve] at h
    obtain ⟨ws, -, h⟩ := exists_of_bind_eq_ok h
    cases h
  | scopedCode source scope =>
    rw [resolve] at h
    obtain ⟨bindings, -, h⟩ := exists_of_bind_eq_ok h
    split at h <;> cases h
  | _ => cases h

/-- What a key leads to in a resolved document was resolved from what it led to before. -/
theorem exists_lookup_of_resolved {fields resolved : Document}
    (h : List.Forall₂ ResolvesTo fields resolved) {key : String} {w : Value}
    (hw : resolved.lookup key = some w) :
    ∃ v, fields.lookup key = some v ∧ v.resolve = .ok w := by
  induction h with
  | nil => cases hw
  | @cons entry entry' rest rest' hentry _ ih =>
    rw [lookup_cons_ite, hentry.key] at hw
    rw [lookup_cons_ite]
    by_cases hkey : key = entry.1
    · rw [if_pos hkey] at hw ⊢
      obtain rfl := Option.some.inj hw
      exact ⟨entry.2, rfl, hentry.value⟩
    · rw [if_neg hkey] at hw ⊢
      exact ih hw

/-- Setting a field that is there sets it in the resolved document, too. -/
theorem insert_resolvesTo {fields resolved : Document} (h : List.Forall₂ ResolvesTo fields resolved)
    {key : String} {old v w : Value} (hold : fields.lookup key = some old)
    (hv : v.resolve = .ok w) :
    List.Forall₂ ResolvesTo (fields.insert key v) (resolved.insert key w) := by
  induction h with
  | nil => cases hold
  | @cons entry entry' rest rest' hentry hrest ih =>
    rw [lookup_cons_ite] at hold
    unfold Document.insert
    rw [hentry.key]
    by_cases hkey : entry.1 = key
    · rw [if_pos hkey, if_pos hkey]
      exact .cons ⟨rfl, hkey ▸ hentry.unreserved, hv⟩ hrest
    · rw [if_neg (Ne.symm hkey)] at hold
      rw [if_neg hkey, if_neg hkey]
      exact .cons hentry (ih hold)

end Value

/-- A place of both lists can be replaced in both. -/
theorem forall₂_set {α β : Type} {R : α → β → Prop} {as : List α} {bs : List β}
    (h : List.Forall₂ R as bs) (i : Nat) {a : α} {b : β} (hab : R a b) :
    List.Forall₂ R (as.set i a) (bs.set i b) := by
  induction h generalizing i with
  | nil => exact .nil
  | cons hfirst hrest ih =>
    cases i with
    | zero => exact .cons hab hrest
    | succ i => exact .cons hfirst (ih i)

namespace Document

/-- The value that a resolved document holds for a reference was resolved from what the document
held for it. -/
theorem exists_referenceAt_of_resolved {w : Document} (h : List.Forall₂ Value.ResolvesTo d w)
    {v' : Value} (hv' : w.referenceAt? l = some v') :
    ∃ v, d.referenceAt? l = some v ∧ v.resolve = .ok v' := by
  unfold referenceAt? at hv' ⊢
  cases hplace : l.place with
  | none =>
    rw [hplace] at hv'
    exact Value.exists_lookup_of_resolved h hv'
  | some i =>
    rw [hplace] at hv'
    cases hstored : w.lookup l.field.key with
    | none => simp [hstored] at hv'
    | some stored =>
      rw [hstored] at hv'
      cases stored with
      | array ws =>
        have hv' : ws[i]? = some v' := hv'
        obtain ⟨old, hold, hresolve⟩ := Value.exists_lookup_of_resolved h hstored
        obtain ⟨items, rfl, hitems⟩ := Value.exists_items_of_resolve hresolve
        obtain ⟨hi, rfl⟩ := List.getElem?_eq_some_iff.1 hv'
        have hi' : i < items.length := hitems.length_eq.symm ▸ hi
        refine ⟨items[i], ?_, hitems.get hi' hi⟩
        rw [hold]
        exact List.getElem?_eq_getElem hi'
      | _ => cases hv'

/-- Replacing a reference that is there replaces it in the resolved document, too. -/
theorem setReference_resolvesTo {w : Document} (h : List.Forall₂ Value.ResolvesTo d w)
    {old v v' : Value} (hold : d.referenceAt? l = some old) (hv : v.resolve = .ok v') :
    List.Forall₂ Value.ResolvesTo (d.setReference l v) (w.setReference l v') := by
  unfold referenceAt? at hold
  unfold setReference
  cases hplace : l.place with
  | none =>
    rw [hplace] at hold
    exact Value.insert_resolvesTo h hold hv
  | some i =>
    rw [hplace] at hold
    cases hstored : d.lookup l.field.key with
    | none => simp [hstored] at hold
    | some stored =>
      rw [hstored] at hold
      cases stored with
      | array items =>
        obtain ⟨resolved, hresolved, hresolve⟩ := Value.exists_lookup_of_resolvesTo h hstored
        rw [Value.resolve] at hresolve
        obtain ⟨ws, hws, hresolve⟩ := DecodeError.exists_of_bind_eq_ok hresolve
        obtain rfl := Except.ok.inj hresolve
        have hset := forall₂_set (Value.resolveItems_eq_ok.1 hws) i hv
        rw [hresolved]
        refine Value.insert_resolvesTo h hstored ?_
        rw [Value.resolve, Value.resolveItems_eq_ok.2 hset]
        rfl
      | _ => cases hold

end Document

/-! ## One reference -/

/-- In a record type keys tell fields apart. -/
theorem RecordType.eq_of_key_eq {field other : Field FieldType} (hfield : field ∈ type.fields)
    (hother : other ∈ type.fields) (h : field.key = other.key) : field = other := by
  have hfound := field?_of_mem field hfield
  rw [h, field?_of_mem other hother] at hfound
  exact (Option.some.inj hfound).symm

/-- What holds of all contents, each with its field, holds again after a change of which it
holds. -/
theorem forall₂_zip_map {α β : Type} {R R' : α → β → Prop} {as : List α} {bs : List β}
    (h : List.Forall₂ R as bs) {f : α × β → β} (hf : ∀ a ∈ as, ∀ b, R a b → R' a (f (a, b))) :
    List.Forall₂ R' as ((as.zip bs).map f) := by
  induction h with
  | nil => exact .nil
  | cons hab _ ih =>
    obtain ⟨hfirst, hrest⟩ := List.forall_mem_cons.1 hf
    exact .cons (hfirst _ hab) (ih hrest)

namespace Record

/-- A document in which a field is set is read as the record in which its content is replaced. -/
theorem decode_insert (h : decode type d = .ok r) {field : Field FieldType}
    (hfield : field ∈ type.fields) {v : Value} {content : Content}
    (hv : Content.decode field.type v = .ok content) :
    decode type (d.insert field.key v) = .ok (r.setContent field content) := by
  obtain ⟨hfault, hin⟩ := decode_eq_ok_iff_isIn.1 h
  refine decode_eq_ok_iff_isIn.2 ⟨fun entry hentry => ?_, ?_⟩
  · rcases Document.mem_insert hentry with rfl | hentry
    · rw [RecordType.fault?_field hfield, hv]
      rfl
    · exact hfault entry hentry
  · obtain ⟨stored, hstored, hid⟩ := hin.id
    refine ⟨hin.type_eq, ⟨stored, ?_, hid⟩, ?_⟩
    · rw [Document.lookup_insert, if_neg (RecordType.key_ne_idKey hfield).symm, hstored]
    · unfold setContent
      rw [hin.type_eq]
      refine forall₂_zip_map hin.contents fun other hother old hold => ?_
      rw [Document.lookup_insert]
      by_cases hsame : other = field
      · subst hsame
        rw [if_pos rfl, if_pos rfl]
        exact hv
      · have hkey : other.key ≠ field.key := by
          intro hkey
          exact hsame (RecordType.eq_of_key_eq hother hfield hkey)
        rw [if_neg hkey, if_neg hsame]
        exact hold

/-- A document in which the value of a reference is replaced is read as the record in which the
reference is. -/
theorem decode_setReference (h : decode type d = .ok r) (hl : type.linked? l = some target)
    (hold : r.referenceAt? l ≠ none) {v : Value} (hv : Related.decode target v = .ok ref) :
    decode type (d.setReference l v) = .ok (r.setReference l ref) := by
  obtain ⟨hfield, htype⟩ := RecordType.linked?_eq_some.1 hl
  obtain ⟨content, hcontent, hread⟩ := content_of_decode h hfield
  unfold referenceAt? at hold
  unfold Document.setReference setReference
  rw [hcontent] at hold ⊢
  rcases htype with ⟨htype, hplace⟩ | ⟨htype, i, hplace⟩
  · have hnull : v ≠ .null := by
      rintro rfl
      rw [Related.decode_of_resolved rfl] at hv
      simp [Related.ofResolved] at hv
    have hset : Content.decode l.field.type v = .ok (.reference (some ref)) := by
      rw [htype, Content.decode, hv]
      · rfl
      · exact hnull
    rw [hplace]
    exact decode_insert h hfield hset
  · rw [hplace] at hold ⊢
    cases content with
    | references refs =>
      have hne : refs ≠ [] := by
        rintro rfl
        exact hold rfl
      obtain ⟨target', items, htype', hstored, hitems⟩ := exists_of_readField_references hread hne
      obtain rfl : target' = target := by
        rw [htype] at htype'
        exact (FieldType.references.inj htype').symm
      have hset : Content.decode l.field.type (.array (items.set i v)) =
          .ok (.references (refs.set i ref)) := by
        rw [htype, Content.decode_references, mapM_eq_ok.2 (forall₂_set (mapM_eq_ok.1 hitems) i hv)]
        rfl
      rw [hstored]
      exact decode_insert h hfield hset
    | _ => exact absurd rfl hold

/-- Inside another record a reference is replaced in the resolved document. -/
theorem decode_setReference_resolved {w : Document} (hw : List.Forall₂ Value.ResolvesTo d w)
    (h : decode type w = .ok r) (hl : type.linked? l = some target) {old : Related}
    (hold : r.referenceAt? l = some old) {v : Value} (hv : Related.decode target v = .ok ref) :
    ∃ w', List.Forall₂ Value.ResolvesTo (d.setReference l v) w' ∧
      decode type w' = .ok (r.setReference l ref) := by
  obtain ⟨v', hv', hread⟩ := DecodeError.exists_of_bind_eq_ok hv
  rw [← Related.decode_of_resolved (Value.resolve_of_resolve v v' hv')] at hread
  obtain ⟨_, stored', -, hstored', -⟩ := exists_of_referenceAt h hold
  obtain ⟨stored, hstored, -⟩ := Document.exists_referenceAt_of_resolved hw hstored'
  exact ⟨w.setReference l v', Document.setReference_resolvesTo hw hstored hv',
    decode_setReference h hl (Option.ne_none_iff_exists'.2 ⟨old, hold⟩) hread⟩

end Record

/-! ## Chains -/

theorem Document.exists_linked_of_resolve {v : Value} {w : Document}
    (hv : d.referenceAt? l = some v) (hw : v.resolve = .ok (.document w)) :
    ∃ fields, d.linked? l = some fields ∧ List.Forall₂ Value.ResolvesTo fields w := by
  obtain ⟨fields, rfl, hfields⟩ := Value.exists_fields_of_resolve hw
  refine ⟨fields, ?_, hfields⟩
  unfold linked?
  rw [hv, Option.bind_some, Value.embedded?_eq_some]
  refine ⟨rfl, fun entry hentry => ?_⟩
  obtain ⟨i, hi, rfl⟩ := List.getElem_of_mem hentry
  exact (hfields.get hi (hfields.length_eq ▸ hi)).unreserved

/-- A document in the place of a reference is read as the record that it is once resolved. -/
theorem Related.decode_of_resolvesTo {fields w : Document}
    (hw : List.Forall₂ Value.ResolvesTo fields w) {inner : Record}
    (h : Record.decode target w = .ok inner) :
    Related.decode target (.document fields) = .ok (.expanded inner) :=
  Related.decode_eq_expanded.2 ⟨w, Value.resolveFields_eq_document.2 hw, h⟩

namespace Record

variable {chain : List Link} {last : Link} {inner : Record} {old : Related} {v : Value}

theorem referenceAt_of_linked (h : r.linked? l = some inner) :
    r.referenceAt? l = some (.expanded inner) := by
  obtain ⟨ref, href, hrecord⟩ := Option.bind_eq_some_iff.1 h
  cases ref with
  | id id => cases hrecord
  | expanded found => rw [href, Option.some.inj hrecord]

/-- A record inside another one was read from a document in its place, once that was resolved. -/
theorem exists_document_of_linked (h : decode type d = .ok r) (hinner : r.linked? l = some inner) :
    ∃ target fields w, type.linked? l = some target ∧ d.linked? l = some fields ∧
      List.Forall₂ Value.ResolvesTo fields w ∧ decode target w = .ok inner := by
  obtain ⟨target, v, w, hl, hv, hw, hdecode⟩ := exists_of_linked h hinner
  obtain ⟨fields, hfields, hresolved⟩ := Document.exists_linked_of_resolve hv hw
  exact ⟨target, fields, w, hl, hfields, hresolved, hdecode⟩

theorem exists_document_of_linked_resolved {w : Document}
    (hw : List.Forall₂ Value.ResolvesTo d w) (h : decode type w = .ok r)
    (hinner : r.linked? l = some inner) :
    ∃ target fields w', type.linked? l = some target ∧ d.linked? l = some fields ∧
      List.Forall₂ Value.ResolvesTo fields w' ∧ decode target w' = .ok inner := by
  obtain ⟨target, v', w', hl, hv', hw', hdecode⟩ := exists_of_linked h hinner
  obtain ⟨v, hv, hresolve⟩ := Document.exists_referenceAt_of_resolved hw hv'
  -- what was resolved spells itself
  obtain rfl := Except.ok.inj (hw'.symm.trans (Value.resolve_of_resolve v v' hresolve))
  obtain ⟨fields, hfields, hresolved⟩ := Document.exists_linked_of_resolve hv hresolve
  exact ⟨target, fields, w', hl, hfields, hresolved, hdecode⟩

/-- Inside another record a reference at the end of a chain is replaced in the resolved document. -/
theorem decode_replaceAt_resolved {w : Document} {t : RecordType}
    (hw : List.Forall₂ Value.ResolvesTo d w) (h : decode type w = .ok r)
    (htype : type.follow? chain = some t) (hlast : t.linked? last = some target)
    (hinner : r.follow? chain = some inner) (hold : inner.referenceAt? last = some old)
    (hv : Related.decode target v = .ok ref) :
    ∃ w', List.Forall₂ Value.ResolvesTo (d.replaceAt chain last v) w' ∧
      decode type w' = .ok (r.replaceAt chain last ref) := by
  induction chain generalizing type d w r with
  | nil =>
    obtain rfl := Option.some.inj htype
    obtain rfl := Option.some.inj hinner
    exact decode_setReference_resolved hw h hlast hold hv
  | cons l rest ih =>
    obtain ⟨type', hl, htype⟩ := Option.bind_eq_some_iff.1 htype
    obtain ⟨r', hr', hinner⟩ := Option.bind_eq_some_iff.1 hinner
    obtain ⟨target', fields, w', hl', hfields, hw', h'⟩ :=
      exists_document_of_linked_resolved hw h hr'
    obtain rfl := Option.some.inj (hl.symm.trans hl')
    obtain ⟨w'', hw'', h''⟩ := ih hw' h' htype hinner
    unfold Document.replaceAt replaceAt
    rw [hfields, hr']
    exact decode_setReference_resolved hw h hl (referenceAt_of_linked hr')
      (Related.decode_of_resolvesTo hw'' h'')

/-- A document in which the value of one reference is replaced, at any depth, is read as the record
in which that reference is replaced. -/
theorem decode_replaceAt {t : RecordType} (h : decode type d = .ok r)
    (htype : type.follow? chain = some t) (hlast : t.linked? last = some target)
    (hinner : r.follow? chain = some inner) (hold : inner.referenceAt? last = some old)
    (hv : Related.decode target v = .ok ref) :
    decode type (d.replaceAt chain last v) = .ok (r.replaceAt chain last ref) := by
  cases chain with
  | nil =>
    obtain rfl := Option.some.inj htype
    obtain rfl := Option.some.inj hinner
    exact decode_setReference h hlast (Option.ne_none_iff_exists'.2 ⟨old, hold⟩) hv
  | cons l rest =>
    -- only the outermost document is read as it is; below the first link all are resolved before
    obtain ⟨type', hl, htype⟩ := Option.bind_eq_some_iff.1 htype
    obtain ⟨r', hr', hinner⟩ := Option.bind_eq_some_iff.1 hinner
    obtain ⟨target', fields, w', hl', hfields, hw', h'⟩ := exists_document_of_linked h hr'
    obtain rfl := Option.some.inj (hl.symm.trans hl')
    obtain ⟨w'', hw'', h''⟩ := decode_replaceAt_resolved hw' h' htype hlast hinner hold hv
    have hplace := Option.ne_none_iff_exists'.2 ⟨_, referenceAt_of_linked hr'⟩
    unfold Document.replaceAt replaceAt
    rw [hfields, hr']
    exact decode_setReference h hl hplace (Related.decode_of_resolvesTo hw'' h'')

theorem exists_document_of_follow_resolved {w : Document}
    (hw : List.Forall₂ Value.ResolvesTo d w) (h : decode type w = .ok r)
    (hinner : r.follow? chain = some inner) :
    ∃ t fields w', type.follow? chain = some t ∧ d.follow? chain = some fields ∧
      List.Forall₂ Value.ResolvesTo fields w' ∧ decode t w' = .ok inner := by
  induction chain generalizing type d w r with
  | nil =>
    obtain rfl := Option.some.inj hinner
    exact ⟨type, d, w, rfl, rfl, hw, h⟩
  | cons l rest ih =>
    obtain ⟨r', hr', hinner⟩ := Option.bind_eq_some_iff.1 hinner
    obtain ⟨type', fields, w', hl, hfields, hw', h'⟩ :=
      exists_document_of_linked_resolved hw h hr'
    obtain ⟨t, fields', w'', ht, hfields', hw'', h''⟩ := ih hw' h' hinner
    exact ⟨t, fields', w'', Option.bind_eq_some_iff.2 ⟨type', hl, ht⟩,
      Option.bind_eq_some_iff.2 ⟨fields, hfields, hfields'⟩, hw'', h''⟩

/-- A reference at the end of a chain was read from what the document holds there. -/
theorem exists_referenceAt_of_follow (h : decode type d = .ok r)
    (hinner : r.follow? chain = some inner) (hold : inner.referenceAt? last = some old) :
    ∃ t target fields v, type.follow? chain = some t ∧ t.linked? last = some target ∧
      d.follow? chain = some fields ∧ fields.referenceAt? last = some v ∧
      Related.decode target v = .ok old := by
  cases chain with
  | nil =>
    obtain rfl := Option.some.inj hinner
    obtain ⟨target, v, hl, hv, hread⟩ := exists_of_referenceAt h hold
    exact ⟨type, target, d, v, rfl, hl, rfl, hv, hread⟩
  | cons l rest =>
    obtain ⟨r', hr', hinner⟩ := Option.bind_eq_some_iff.1 hinner
    obtain ⟨type', fields, w, hl, hfields, hw, h'⟩ := exists_document_of_linked h hr'
    obtain ⟨t, fields', w', ht, hfields', hw', h''⟩ :=
      exists_document_of_follow_resolved hw h' hinner
    obtain ⟨target, v', hlast, hv', hread⟩ := exists_of_referenceAt h'' hold
    obtain ⟨v, hv, hresolve⟩ := Document.exists_referenceAt_of_resolved hw' hv'
    refine ⟨t, target, fields', v, Option.bind_eq_some_iff.2 ⟨type', hl, ht⟩, hlast,
      Option.bind_eq_some_iff.2 ⟨fields, hfields, hfields'⟩, hv, ?_⟩
    rw [Related.decode_of_resolved (Value.resolve_of_resolve v v' hresolve)] at hread
    unfold Related.decode
    rw [hresolve]
    exact hread

end Record

end NewsService
