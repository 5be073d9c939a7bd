import NewsService.Proofs.Document.Fields
import NewsService.Record.Decode

/-!
# What decoding a record depends on

The walk of a document is brought into closed form: the document is refused for the first entry that
cannot be read by itself, and otherwise each part of the record is read from the first entry with
its key. Setting or taking away a field then changes that one part of the record.
-/

namespace NewsService

open DecodeError

/-- The error of a reading, if it failed. -/
def DecodeError.of? {α : Type} : Except DecodeError α → Option DecodeError
  | .ok _ => none
  | .error e => some e

theorem DecodeError.of?_eq_none {α : Type} {x : Except DecodeError α} :
    of? x = none ↔ ∃ a, x = .ok a := by
  cases x with
  | ok a => simp [of?]
  | error e => simp [of?]

namespace RecordType

variable {type : RecordType}

/-- Why an entry of a document cannot be read by itself. -/
def fault? (type : RecordType) : String × Value → Option DecodeError
  | (key, v) =>
    if key = idKey then DecodeError.of? (readId v)
    else
      match type.field? key with
      | none => none
      | some field => DecodeError.of? (Content.decode field.type v)

theorem idKey_not_field (type : RecordType) : type.field? idKey = none := by
  cases type <;> decide

/-- A field is found under its key. -/
theorem field?_of_mem : ∀ field ∈ type.fields, type.field? field.key = some field := by
  cases type <;> decide

theorem key_ne_idKey {field : Field FieldType} (h : field ∈ type.fields) : field.key ≠ idKey := by
  intro hkey
  have hfound := field?_of_mem field h
  rw [hkey, idKey_not_field] at hfound
  cases hfound

theorem mem_of_field? {key : String} {field : Field FieldType} (h : type.field? key = some field) :
    field ∈ type.fields ∧ field.key = key :=
  ⟨List.mem_of_find?_eq_some h, by simpa using List.find?_some h⟩

theorem fault?_id (v : Value) : type.fault? (idKey, v) = DecodeError.of? (readId v) := by
  simp [fault?]

theorem fault?_field {field : Field FieldType} (h : field ∈ type.fields) (v : Value) :
    type.fault? (field.key, v) = DecodeError.of? (Content.decode field.type v) := by
  simp [fault?, key_ne_idKey h, field?_of_mem field h]

end RecordType

namespace Record

variable {type : RecordType}

/-- The identifier that a document holds, read from its first entry. -/
def idOf (d : Document) : Option ObjectId :=
  (d.lookup idKey).bind fun v => (readId v).toOption

/-- The content that a document gives a field, read from its first entry. -/
def contentOf (field : Field FieldType) (d : Document) : Content :=
  match d.lookup field.key with
  | none => field.type.default
  | some v => ((Content.decode field.type v).toOption).getD field.type.default

/-- Reads what a document holds for a field, if it holds anything. -/
def readField (type : FieldType) : Option Value → Except DecodeError Content
  | none => .ok type.default
  | some v => Content.decode type v

theorem contentOf_of_read {field : Field FieldType} {d : Document} {content : Content}
    (h : readField field.type (d.lookup field.key) = .ok content) :
    contentOf field d = content := by
  rw [contentOf]
  cases hlookup : d.lookup field.key with
  | none =>
    rw [hlookup, readField] at h
    exact Except.ok.inj h
  | some v =>
    rw [hlookup, readField] at h
    simp [h, Except.toOption]

/-- What an entry of a document gives the field with its key. -/
def entryContent? (type : RecordType) (entry : String × Value) : Option (String × Content) :=
  (type.field? entry.1).bind fun field =>
    (Content.decode field.type entry.2).toOption.map fun content => (entry.1, content)

/-- What the known fields of a document give, by key. -/
def contentsOf (type : RecordType) (d : Document) : List (String × Content) :=
  d.filterMap (entryContent? type)

theorem entryContent?_key {entry : String × Value} {pair : String × Content}
    (h : entryContent? type entry = some pair) : pair.1 = entry.1 := by
  obtain ⟨field, -, hpair⟩ := Option.bind_eq_some_iff.1 h
  obtain ⟨content, -, rfl⟩ := Option.map_eq_some_iff.1 hpair
  rfl

/-- The walk stops at the first entry that cannot be read, and otherwise it collects all parts. -/
theorem partsOf_eq (type : RecordType) (d : Document) :
    partsOf type d =
      match d.findSome? type.fault? with
      | some e => .error e
      | none => .ok ⟨idOf d, contentsOf type d⟩ := by
  induction d with
  | nil => rfl
  | cons entry rest ih =>
    obtain ⟨key, v⟩ := entry
    by_cases hkey : key = idKey
    · subst hkey
      rw [partsOf, if_pos rfl, ih, List.findSome?_cons, RecordType.fault?_id]
      cases hid : readId v with
      | error e => rfl
      | ok id =>
        simp only [DecodeError.of?]
        cases rest.findSome? type.fault? with
        | some e => rfl
        | none =>
          simp [bind, Except.bind, pure, Except.pure, idOf, contentsOf, entryContent?, hid,
            Except.toOption, RecordType.idKey_not_field]
    · have hid : idOf ((key, v) :: rest) = idOf rest := by
        simp [idOf, List.lookup_cons, beq_false_of_ne (Ne.symm hkey)]
      rw [partsOf, if_neg hkey, ih, List.findSome?_cons, RecordType.fault?, if_neg hkey, hid]
      cases hfield : type.field? key with
      | none => simp [contentsOf, entryContent?, hfield]
      | some field =>
        cases hcontent : Content.decode field.type v with
        | error e => simp [DecodeError.of?, hcontent, bind, Except.bind]
        | ok content =>
          simp only [DecodeError.of?, hcontent]
          cases rest.findSome? type.fault? with
          | some e => rfl
          | none =>
            simp [bind, Except.bind, pure, Except.pure, contentsOf, entryContent?, hfield,
              hcontent, Except.toOption]

/-- In a document without faults, what a field is given is what its first entry holds. -/
theorem lookup_contentsOf {d : Document} (h : ∀ entry ∈ d, type.fault? entry = none)
    {field : Field FieldType} (hfield : field ∈ type.fields) :
    ((contentsOf type d).lookup field.key).getD field.type.default = contentOf field d := by
  induction d with
  | nil => rfl
  | cons entry rest ih =>
    obtain ⟨key, v⟩ := entry
    have ih := ih fun entry hentry => h entry (List.mem_cons_of_mem _ hentry)
    by_cases hkey : field.key = key
    · subst hkey
      have hv := h _ List.mem_cons_self
      rw [RecordType.fault?_field hfield, DecodeError.of?_eq_none] at hv
      obtain ⟨content, hcontent⟩ := hv
      simp [contentsOf, entryContent?, contentOf, RecordType.field?_of_mem field hfield, hcontent,
        Except.toOption]
    · have hlookup : ((key, v) :: rest).lookup field.key = rest.lookup field.key := by
        simp [List.lookup_cons, beq_false_of_ne hkey]
      rw [contentOf, hlookup, ← contentOf, ← ih, contentsOf]
      cases hhead : entryContent? type (key, v) with
      | none => rw [List.filterMap_cons_none hhead, contentsOf]
      | some pair =>
        have hpair : field.key ≠ pair.1 := by rwa [entryContent?_key hhead]
        rw [List.filterMap_cons_some hhead, List.lookup_cons, beq_false_of_ne hpair, contentsOf]

/-- The record whose parts are those of a document. -/
def ofDocument (type : RecordType) (id : ObjectId) (d : Document) : Record :=
  ⟨type, id, type.fields.map fun field => contentOf field d⟩

/-- A document is refused for the first entry that cannot be read, or else for want of an
identifier; otherwise its record is read part by part. -/
theorem decode_eq (type : RecordType) (d : Document) :
    decode type d =
      match d.findSome? type.fault? with
      | some e => .error e
      | none =>
        match idOf d with
        | none => .error (.missingField idKey)
        | some id => .ok (ofDocument type id d) := by
  rw [decode, partsOf_eq]
  cases hfault : d.findSome? type.fault? with
  | some e => rfl
  | none =>
    rw [List.findSome?_eq_none_iff] at hfault
    have hcontents : (type.fields.map fun field =>
        ((contentsOf type d).lookup field.key).getD field.type.default) =
        type.fields.map fun field => contentOf field d :=
      List.map_congr_left fun field hfield => lookup_contentsOf hfault hfield
    cases hid : idOf d with
    | none => simp [bind, Except.bind, Parts.toRecord]
    | some id => simp [bind, Except.bind, Parts.toRecord, ofDocument, hcontents]

theorem decode_eq_ok {d : Document} {r : Record} :
    decode type d = .ok r ↔
      (∀ entry ∈ d, type.fault? entry = none) ∧
        ∃ id, idOf d = some id ∧ r = ofDocument type id d := by
  rw [decode_eq]
  cases hfault : d.findSome? type.fault? with
  | some e =>
    have hnot : ¬ ∀ entry ∈ d, type.fault? entry = none := by
      rw [← List.findSome?_eq_none_iff, hfault]
      exact Option.some_ne_none e
    constructor
    · intro h
      cases h
    · rintro ⟨h, -⟩
      exact absurd h hnot
  | none =>
    rw [List.findSome?_eq_none_iff] at hfault
    cases hid : idOf d with
    | none => simp
    | some id =>
      constructor
      · intro h
        exact ⟨hfault, id, rfl, (Except.ok.inj h).symm⟩
      · rintro ⟨-, id', hid', rfl⟩
        rw [Option.some.inj hid']

/-- In a document without faults every field can be read. -/
theorem readField_of_faultless {d : Document} (h : ∀ entry ∈ d, type.fault? entry = none)
    {field : Field FieldType} (hfield : field ∈ type.fields) :
    readField field.type (d.lookup field.key) = .ok (contentOf field d) := by
  have hread : ∃ content, readField field.type (d.lookup field.key) = .ok content := by
    cases hlookup : d.lookup field.key with
    | none => exact ⟨_, rfl⟩
    | some v =>
      have hfault := h _ (Document.mem_of_lookup hlookup)
      rwa [RecordType.fault?_field hfield, DecodeError.of?_eq_none] at hfault
  obtain ⟨content, hcontent⟩ := hread
  rw [hcontent, contentOf_of_read hcontent]

end Record

end NewsService
