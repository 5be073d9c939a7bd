import Mathlib.Data.List.Forall2
import NewsService.Proofs.Record.Decode
import NewsService.Proofs.Record.Embedded

/-!
# Precise decoding

What decoding depends on: each known field is read by itself, from the value under its key. Main
statement: a document is accepted when it has an identifier and all its known fields can be read,
the record holds what they hold whatever their order, and otherwise the first field that cannot be
read is the error. Stored files and records in place of references are read in the same way.
-/

namespace NewsService

namespace Document

/-- Whether `e` is what the first entry fails with that cannot be read by itself; `fault?` tells why
an entry cannot be read. -/
def FirstFault (fault? : String × Value → Option DecodeError) (d : Document) (e : DecodeError) :
    Prop :=
  ∃ before entry after, d = before ++ entry :: after ∧
    (∀ other ∈ before, fault? other = none) ∧ fault? entry = some e

theorem firstFault_iff {d : Document} {fault? : String × Value → Option DecodeError}
    {e : DecodeError} :
    d.FirstFault fault? e ↔ d.findSome? fault? = some e := by
  rw [List.findSome?_eq_some_iff, FirstFault]
  constructor
  · rintro ⟨before, entry, after, hd, hbefore, hentry⟩
    exact ⟨before, entry, after, hd, hentry, hbefore⟩
  · rintro ⟨before, entry, after, hd, hentry, hbefore⟩
    exact ⟨before, entry, after, hd, hbefore, hentry⟩

end Document

/-- When every reading succeeds, its results are the only ones. -/
theorem forall₂_read_iff {α β : Type} {read : α → Except DecodeError β} {result : α → β}
    {l : List α} (h : ∀ a ∈ l, read a = .ok (result a)) {bs : List β} :
    List.Forall₂ (fun a b => read a = .ok b) l bs ↔ bs = l.map result := by
  constructor
  · intro hbs
    induction hbs with
    | nil => rfl
    | cons hab _ ih =>
      obtain ⟨ha, hrest⟩ := List.forall_mem_cons.1 h
      rw [List.map_cons, ← ih hrest, Except.ok.inj (hab.symm.trans ha)]
  · rintro rfl
    rwa [List.forall₂_map_right_iff, List.forall₂_same]

/-! ## Stored files -/

namespace AssetType

variable {type : AssetType} {d : Document}

/-- Why an entry of a stored file cannot be read by itself. -/
def fault? (type : AssetType) : String × Value → Option DecodeError
  | (key, v) =>
    match type.field? key with
    | none => none
    | some field => DecodeError.of? (Scalar.read field.type v)

/-- Reads what a stored file holds for a field, if it holds anything. -/
def readField (type : ScalarType) : Option Value → Except DecodeError Scalar
  | none => .ok type.default
  | some v => Scalar.read type v

theorem field?_of_mem : ∀ field ∈ type.fields, type.field? field.key = some field := by
  cases type <;> decide

theorem readFields_of_fault {e : DecodeError} (h : d.findSome? type.fault? = some e) :
    type.readFields d = .error e := by
  induction d with
  | nil => cases h
  | cons entry rest ih =>
    obtain ⟨key, v⟩ := entry
    rw [List.findSome?_cons, fault?] at h
    rw [readFields]
    cases hfield : type.field? key with
    | none =>
      rw [hfield] at h
      exact ih h
    | some field =>
      rw [hfield] at h
      cases hread : Scalar.read field.type v with
      | error e' =>
        simp only [hread, DecodeError.of?, Option.some.injEq] at h
        simp only [hread, h]
        rfl
      | ok scalar =>
        simp only [hread, DecodeError.of?] at h
        simp only [hread, ih h]
        rfl

/-- Without faults every field is read from the entry with its key. -/
theorem readFields_of_faultless (h : ∀ entry ∈ d, type.fault? entry = none) :
    ∃ scalars, type.readFields d = .ok scalars ∧ ∀ field ∈ type.fields,
      readField field.type (d.lookup field.key) =
        .ok ((scalars.lookup field.key).getD field.type.default) := by
  induction d with
  | nil => exact ⟨[], rfl, fun field _ => rfl⟩
  | cons entry rest ih =>
    obtain ⟨key, v⟩ := entry
    obtain ⟨hv, hrest⟩ := List.forall_mem_cons.1 h
    obtain ⟨scalars, hscalars, hfields⟩ := ih hrest
    rw [readFields]
    rw [fault?] at hv
    cases hknown : type.field? key with
    | none =>
      refine ⟨scalars, hscalars, fun field hfield => ?_⟩
      have hne : field.key ≠ key := by
        rintro rfl
        rw [field?_of_mem field hfield] at hknown
        cases hknown
      rw [lookup_cons_ite, if_neg hne]
      exact hfields field hfield
    | some found =>
      rw [hknown] at hv
      obtain ⟨scalar, hscalar⟩ := DecodeError.of?_eq_none.1 hv
      refine ⟨(key, scalar) :: scalars, ?_, fun field hfield => ?_⟩
      · simp only [hscalar, hscalars]
        rfl
      · rw [lookup_cons_ite, lookup_cons_ite]
        by_cases hkey : field.key = key
        · rw [← hkey, field?_of_mem field hfield] at hknown
          obtain rfl := Option.some.inj hknown
          rw [if_pos hkey, if_pos hkey]
          exact hscalar
        · rw [if_neg hkey, if_neg hkey]
          exact hfields field hfield

theorem read_document (type : AssetType) (d : Document) :
    type.read (.document d) =
      (type.readFields d).map fun scalars =>
        some (type.fields.map fun field => (scalars.lookup field.key).getD field.type.default) := by
  rw [read]
  cases type.readFields d with
  | error e => rfl
  | ok scalars => rfl

theorem read_eq_error {e : DecodeError} :
    type.read (.document d) = .error e ↔ d.FirstFault type.fault? e := by
  rw [Document.firstFault_iff, read_document]
  cases hfault : d.findSome? type.fault? with
  | some e' =>
    rw [readFields_of_fault hfault, Option.some.injEq]
    exact ⟨fun h => Except.error.inj h, fun h => congrArg _ h⟩
  | none =>
    obtain ⟨scalars, hscalars, -⟩ := readFields_of_faultless (List.findSome?_eq_none_iff.1 hfault)
    rw [hscalars]
    constructor
    · intro h
      cases h
    · intro h
      cases h

/-- A stored file is accepted when all its known fields can be read, and holds what they hold. -/
theorem read_eq_ok {scalars? : Option (List Scalar)} :
    type.read (.document d) = .ok scalars? ↔
      (∀ entry ∈ d, type.fault? entry = none) ∧
        ∃ scalars, scalars? = some scalars ∧ List.Forall₂
          (fun field scalar => readField field.type (d.lookup field.key) = .ok scalar)
          type.fields scalars := by
  rw [read_document]
  cases hfault : d.findSome? type.fault? with
  | some e =>
    rw [readFields_of_fault hfault, ← List.findSome?_eq_none_iff, hfault]
    constructor
    · intro h
      cases h
    · rintro ⟨h, -⟩
      cases h
  | none =>
    rw [List.findSome?_eq_none_iff] at hfault
    obtain ⟨scalars, hscalars, hfields⟩ := readFields_of_faultless hfault
    simp only [hscalars, forall₂_read_iff hfields, exists_eq_right]
    constructor
    · intro h
      exact ⟨hfault, (Except.ok.inj h).symm⟩
    · rintro ⟨-, rfl⟩
      rfl

end AssetType

/-! ## Records -/

namespace Record

variable {type : RecordType} {d d' : Document} {r : Record}

/-- Whether a record holds what the fields of a document hold, each read by itself, and the default
content for the fields that the document lacks. -/
structure IsIn (r : Record) (type : RecordType) (d : Document) : Prop where
  type_eq : r.type = type
  id : ∃ v, d.lookup idKey = some v ∧ readId v = .ok r.id
  contents : List.Forall₂
    (fun field content => readField field.type (d.lookup field.key) = .ok content)
    type.fields r.contents

theorem idOf_eq_some {id : ObjectId} :
    idOf d = some id ↔ ∃ v, d.lookup idKey = some v ∧ readId v = .ok id := by
  rw [idOf, Option.bind_eq_some_iff]
  refine exists_congr fun v => and_congr_right fun _ => ?_
  cases readId v with
  | error e => simp [Except.toOption]
  | ok found => simp [Except.toOption]

theorem decode_eq_ok_iff_isIn :
    decode type d = .ok r ↔ (∀ entry ∈ d, type.fault? entry = none) ∧ r.IsIn type d := by
  rw [decode_eq_ok]
  refine and_congr_right fun hfault => ?_
  have hread : ∀ field ∈ type.fields,
      readField field.type (d.lookup field.key) = .ok (contentOf field d) :=
    fun _ hfield => readField_of_faultless hfault hfield
  constructor
  · rintro ⟨id, hid, rfl⟩
    exact ⟨rfl, idOf_eq_some.1 hid, (forall₂_read_iff hread).2 rfl⟩
  · rintro ⟨htype, hid, hcontents⟩
    refine ⟨r.id, idOf_eq_some.2 hid, ?_⟩
    rw [ofDocument, ← (forall₂_read_iff hread).1 hcontents, ← htype]
    cases r
    rfl

/-- The known fields of a document. -/
def known (type : RecordType) (d : Document) : Document :=
  d.filter fun entry => entry.1 == idKey || (type.field? entry.1).isSome

theorem partsOf_known (type : RecordType) (d : Document) :
    partsOf type (known type d) = partsOf type d := by
  induction d with
  | nil => rfl
  | cons entry rest ih =>
    obtain ⟨key, v⟩ := entry
    rw [known] at ih ⊢
    by_cases hkey : key = idKey
    · rw [List.filter_cons_of_pos (by simp [hkey]), partsOf, partsOf, ih]
    · cases hfield : type.field? key with
      | none =>
        rw [List.filter_cons_of_neg (by simp [hkey, hfield]), ih, partsOf, if_neg hkey, hfield]
      | some field =>
        rw [List.filter_cons_of_pos (by simp [hfield]), partsOf, partsOf, ih]

/-- Fields that the type does not know do not matter. -/
theorem decode_known (type : RecordType) (d : Document) :
    decode type (known type d) = decode type d := by
  rw [decode, decode, partsOf_known]

/-- In a document with distinct keys, the order of fields does not matter. -/
theorem decode_of_perm (hnodup : (d.map Prod.fst).Nodup) (h : d'.Perm d) :
    decode type d' = .ok r ↔ decode type d = .ok r := by
  have hlookup := Document.lookup_eq_of_perm hnodup h
  have hisIn : r.IsIn type d' ↔ r.IsIn type d := by
    constructor
    · rintro ⟨htype, hid, hcontents⟩
      simp only [hlookup] at hid hcontents
      exact ⟨htype, hid, hcontents⟩
    · rintro ⟨htype, hid, hcontents⟩
      simp only [← hlookup] at hid hcontents
      exact ⟨htype, hid, hcontents⟩
  rw [decode_eq_ok_iff_isIn, decode_eq_ok_iff_isIn, hisIn]
  simp only [h.mem_iff]

theorem exists_idOf_iff (h : ∀ entry ∈ d, type.fault? entry = none) :
    (∃ id, idOf d = some id) ↔ ∃ v, (idKey, v) ∈ d := by
  constructor
  · rintro ⟨id, hid⟩
    obtain ⟨v, hv, -⟩ := idOf_eq_some.1 hid
    exact ⟨v, Document.mem_of_lookup hv⟩
  · intro hkey
    obtain ⟨v, hv⟩ := Document.exists_lookup_iff.2 hkey
    have hfault := h _ (Document.mem_of_lookup hv)
    rw [RecordType.fault?_id] at hfault
    obtain ⟨id, hid⟩ := DecodeError.of?_eq_none.1 hfault
    exact ⟨id, idOf_eq_some.2 ⟨v, hv, hid⟩⟩

/-- A document is accepted when it has an identifier and all its known fields can be read. -/
theorem exists_decode_iff :
    (∃ r, decode type d = .ok r) ↔
      (∃ v, (idKey, v) ∈ d) ∧ ∀ entry ∈ d, type.fault? entry = none := by
  constructor
  · rintro ⟨r, hr⟩
    obtain ⟨hfault, id, hid, -⟩ := decode_eq_ok.1 hr
    exact ⟨(exists_idOf_iff hfault).1 ⟨id, hid⟩, hfault⟩
  · rintro ⟨hkey, hfault⟩
    obtain ⟨id, hid⟩ := (exists_idOf_iff hfault).2 hkey
    exact ⟨_, decode_eq_ok.2 ⟨hfault, id, hid, rfl⟩⟩

/-- A document that is refused has a first field that cannot be read, or else no identifier. -/
theorem decode_eq_error {e : DecodeError} :
    decode type d = .error e ↔
      d.FirstFault type.fault? e ∨
        (∀ entry ∈ d, type.fault? entry = none) ∧ (∀ v, (idKey, v) ∉ d) ∧
          e = .missingField idKey := by
  rw [Document.firstFault_iff, ← not_exists, decode_eq]
  cases hfault : d.findSome? type.fault? with
  | some first =>
    rw [← List.findSome?_eq_none_iff, hfault]
    constructor
    · intro h
      exact Or.inl (congrArg some (Except.error.inj h))
    · rintro (h | ⟨h, -⟩)
      · rw [Option.some.inj h]
      · cases h
  | none =>
    rw [List.findSome?_eq_none_iff] at hfault
    rw [← exists_idOf_iff hfault]
    cases hid : idOf d with
    | none =>
      constructor
      · intro h
        exact Or.inr ⟨hfault, by simp, (Except.error.inj h).symm⟩
      · rintro (h | ⟨-, -, rfl⟩)
        · cases h
        · rfl
    | some id =>
      constructor
      · intro h
        cases h
      · rintro (h | ⟨-, h, -⟩)
        · cases h
        · exact absurd ⟨id, rfl⟩ h

end Record

/-! ## Fields of fields -/

theorem Related.decodeList_eq_mapM (target : RecordType) (items : List Value) :
    Related.decodeList target items = items.mapM (Related.decode target) := by
  induction items with
  | nil => rfl
  | cons v rest ih => rw [Related.decodeList, List.mapM_cons, ih]

namespace Content

variable {d : Document}

/-- A field that is a joined record, or spells one, is read as the record is. -/
theorem decode_reference {v : Value} (h : v.resolve = .ok (.document d)) (target : RecordType) :
    Content.decode (.reference target) v =
      (fun r => .reference (some (.expanded r))) <$> Record.decode target d := by
  have hnull : v ≠ .null := by
    rintro rfl
    cases h
  rw [Content.decode, Related.decode_of_resolve_document h target]
  · cases Record.decode target d with
    | error e => rfl
    | ok r => rfl
  · exact hnull

theorem decode_asset_eq_error {type : AssetType} {e : DecodeError} :
    Content.decode (.asset type) (.document d) = .error e ↔ d.FirstFault type.fault? e := by
  rw [Content.decode, DecodeError.map_eq_error, AssetType.read_eq_error]
  simp

theorem decode_asset_eq_ok {type : AssetType} {content : Content} :
    Content.decode (.asset type) (.document d) = .ok content ↔
      (∀ entry ∈ d, type.fault? entry = none) ∧
        ∃ scalars, content = .asset (some scalars) ∧ List.Forall₂
          (fun field scalar => AssetType.readField field.type (d.lookup field.key) = .ok scalar)
          type.fields scalars := by
  rw [Content.decode, DecodeError.map_eq_ok]
  · simp only [AssetType.read_eq_ok]
    constructor
    · rintro ⟨_, ⟨hfault, scalars, rfl, hscalars⟩, rfl⟩
      exact ⟨hfault, scalars, rfl, hscalars⟩
    · rintro ⟨hfault, scalars, rfl, hscalars⟩
      exact ⟨some scalars, ⟨hfault, scalars, rfl, hscalars⟩, rfl⟩
  · simp

theorem decode_references (target : RecordType) (items : List Value) :
    Content.decode (.references target) (.array items) =
      .references <$> items.mapM (Related.decode target) := by
  rw [Content.decode, Related.decodeList_eq_mapM]

end Content

/-! ## The main statement -/

namespace Record

/-- Decoding accepts the documents with an identifier whose known fields can each be read by itself;
the record holds what they hold. A document is refused for the first field that cannot be read, and
for want of an identifier only when there is none. The order of its fields, and fields that the type
does not know, do not matter. Records in place of references, one by one or in a list, and stored
files are read in this way again, and fail with the same error. -/
theorem decode_precise (type : RecordType) (d : Document) :
    ((∃ r, decode type d = .ok r) ↔
      (∃ v, (idKey, v) ∈ d) ∧ ∀ entry ∈ d, type.fault? entry = none) ∧
    (∀ r, decode type d = .ok r → r.IsIn type d) ∧
    (∀ e, decode type d = .error e ↔
      d.FirstFault type.fault? e ∨
        (∀ entry ∈ d, type.fault? entry = none) ∧ (∀ v, (idKey, v) ∉ d) ∧
          e = .missingField idKey) ∧
    ((d.map Prod.fst).Nodup → ∀ d', (known type d').Perm (known type d) →
      ∀ r, decode type d' = .ok r ↔ decode type d = .ok r) ∧
    (∀ v, v.resolve = .ok (.document d) →
      Related.decode type v = .expanded <$> decode type d ∧
      Content.decode (.reference type) v =
        (fun r => .reference (some (.expanded r))) <$> decode type d) ∧
    (∀ items, Content.decode (.references type) (.array items) =
      .references <$> items.mapM (Related.decode type)) ∧
    ∀ asset : AssetType,
      (∀ e, Content.decode (.asset asset) (.document d) = .error e ↔
        d.FirstFault asset.fault? e) ∧
      ∀ content, Content.decode (.asset asset) (.document d) = .ok content ↔
        (∀ entry ∈ d, asset.fault? entry = none) ∧
          ∃ scalars, content = .asset (some scalars) ∧ List.Forall₂
            (fun field scalar => AssetType.readField field.type (d.lookup field.key) = .ok scalar)
            asset.fields scalars := by
  refine ⟨exists_decode_iff, fun r h => (decode_eq_ok_iff_isIn.1 h).2, fun e => decode_eq_error, ?_,
    fun v h => ⟨Related.decode_of_resolve_document h type, Content.decode_reference h type⟩,
    Content.decode_references type,
    fun asset => ⟨fun e => Content.decode_asset_eq_error, fun c => Content.decode_asset_eq_ok⟩⟩
  intro hnodup d' hperm r
  have hknown : ((known type d).map Prod.fst).Nodup :=
    hnodup.sublist (List.Sublist.map Prod.fst List.filter_sublist)
  rw [← decode_known type d', ← decode_known type d]
  exact decode_of_perm hknown hperm

/-- The fields of a post with its image in place. -/
def illustrated : Document :=
  [("title", .string "News"),
    ("heroImage", .document [("description", .null), ("_id", .string "5f0c2a7e9d3b4c1a2e8f6a01")]),
    ("isFeatured", .boolean true)]

/-- The identifier of that post. -/
def illustratedId : String × Value :=
  (idKey, .string "5f0c2a7e9d3b4c1a2e8f6a02")

/-- A post without identifier whose image has none either, and whose last field is no text. -/
def headless : Document :=
  [("title", .string "News"), ("heroImage", .document [("description", .null)]),
    ("slug", .int32 1)]

theorem decode_precise_illustrated :
    ((illustrated ++ [illustratedId]).map Prod.fst).Nodup ∧
    (known .post (illustratedId :: ("note", .int32 1) :: illustrated)).Perm
      (known .post (illustrated ++ [illustratedId])) ∧
    (∃ r, decode .post (illustrated ++ [illustratedId]) = .ok r ∧
      decode .post (illustratedId :: ("note", .int32 1) :: illustrated) = .ok r) ∧
    decode .post headless = .error (.missingField idKey) := by
  have hnodup : ((illustrated ++ [illustratedId]).map Prod.fst).Nodup := by decide
  have hperm : (known .post (illustratedId :: ("note", .int32 1) :: illustrated)).Perm
      (known .post (illustrated ++ [illustratedId])) :=
    (List.perm_append_singleton illustratedId illustrated).symm
  have hhero : (⟨"heroImage", "hero_image", .reference .image⟩ : Field FieldType) ∈
      RecordType.post.fields := by decide
  obtain ⟨haccepted, -, -, horder, -⟩ := decode_precise .post (illustrated ++ [illustratedId])
  obtain ⟨-, -, hrefused, -⟩ := decode_precise .post headless
  have hentries : ∀ entry ∈ illustrated ++ [illustratedId],
      RecordType.post.fault? entry = none := by
    obtain ⟨-, -, -, -, hjoined, -⟩ :=
      decode_precise .image [("description", .null), ("_id", .string "5f0c2a7e9d3b4c1a2e8f6a01")]
    simp only [illustrated, List.cons_append, List.nil_append, List.forall_mem_cons]
    refine ⟨rfl, ?_, rfl, rfl, by simp⟩
    rw [RecordType.fault?_field hhero, (hjoined _ rfl).2]
    rfl
  obtain ⟨r, hr⟩ := haccepted.2 ⟨⟨_, List.mem_append_right _ List.mem_cons_self⟩, hentries⟩
  refine ⟨hnodup, hperm, ⟨r, hr, (horder hnodup _ hperm r).2 hr⟩, ?_⟩
  refine (hrefused _).2 (Or.inl ⟨[("title", .string "News")], _, _, rfl, ?_, ?_⟩)
  · intro entry hentry
    rw [List.mem_singleton.1 hentry]
    rfl
  · obtain ⟨-, -, -, -, hjoined, -⟩ := decode_precise .image [("description", .null)]
    rw [RecordType.fault?_field hhero, (hjoined _ rfl).2]
    rfl

end Record

end NewsService
