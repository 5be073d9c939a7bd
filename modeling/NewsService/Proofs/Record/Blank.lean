import NewsService.Proofs.Document.Around
import NewsService.Proofs.Record.Precise

/-!
# Null and missing fields

A field may be missing, be null, or hold the zero value of its type: the empty string, false, the
empty list. Main statement: documents that differ only in that are read as the same record, or fail
with the same error, whether they differ themselves or in a document inside them. A document inside
another one is resolved before it is read; what stands around it is resolved in the same way.
-/

namespace NewsService

/-! ## Zero values -/

/-- The value that a plain field may hold instead of null. -/
def ScalarType.zero? : ScalarType → Option Value
  | .text => some (.string "")
  | .flag => some (.boolean false)
  | .number | .date | .free => none

/-- The value that a field may hold instead of null. -/
def FieldType.zero? : FieldType → Option Value
  | .scalar type => type.zero?
  | .references _ => some (.array [])
  | .asset _ | .reference _ => none

/-- The value that a record may hold under a key instead of null. -/
def RecordType.zero? (type : RecordType) (key : String) : Option Value :=
  (type.field? key).bind fun field => field.type.zero?

/-- The value that a stored file may hold under a key instead of null. -/
def AssetType.zero? (type : AssetType) (key : String) : Option Value :=
  (type.field? key).bind fun field => field.type.zero?

/-- Whether there is nothing in a field with a given zero value. -/
def IsBlank (zero? : Option Value) (v? : Option Value) : Prop :=
  ∀ v ∈ v?, v = .null ∨ zero? = some v

theorem isBlank_none (zero? : Option Value) : IsBlank zero? none := by
  intro v hv
  cases hv

theorem isBlank_null (zero? : Option Value) : IsBlank zero? (some .null) := by
  intro v hv
  exact Or.inl (Option.some.inj hv).symm

theorem isBlank_zero {zero? : Option Value} {v : Value} (h : zero? = some v) :
    IsBlank zero? (some v) := by
  intro w hw
  exact Or.inr (h.trans hw)

theorem Scalar.read_blank {type : ScalarType} {v : Value} (h : v = .null ∨ type.zero? = some v) :
    Scalar.read type v = .ok type.default := by
  rcases h with rfl | h
  · cases type <;> rfl
  · cases type with
    | text | flag =>
      obtain rfl := Option.some.inj h
      rfl
    | number | date | free => cases h

theorem Content.decode_blank {type : FieldType} {v : Value} (h : v = .null ∨ type.zero? = some v) :
    Content.decode type v = .ok type.default := by
  by_cases hnull : v = .null
  · rw [hnull, Content.decode]
  · have hzero := h.resolve_left hnull
    cases type with
    | scalar type =>
      rw [Content.decode, Scalar.read_blank (Or.inr hzero)]
      · rfl
      · exact hnull
    | references target =>
      obtain rfl := Option.some.inj hzero
      rfl
    | asset type => cases hzero
    | reference target => cases hzero

theorem ScalarType.resolve_zero {type : ScalarType} {v : Value} (h : type.zero? = some v) :
    v.resolve = .ok v := by
  cases type with
  | text | flag =>
    obtain rfl := Option.some.inj h
    rfl
  | number | date | free => cases h

theorem FieldType.resolve_zero {type : FieldType} {v : Value} (h : type.zero? = some v) :
    v.resolve = .ok v := by
  cases type with
  | scalar type => exact ScalarType.resolve_zero h
  | references target =>
    obtain rfl := Option.some.inj h
    rfl
  | asset type => cases h
  | reference target => cases h

theorem RecordType.resolve_zero {type : RecordType} {key : String} {v : Value}
    (h : type.zero? key = some v) : v.resolve = .ok v := by
  obtain ⟨field, -, h⟩ := Option.bind_eq_some_iff.1 h
  exact FieldType.resolve_zero h

theorem AssetType.resolve_zero {type : AssetType} {key : String} {v : Value}
    (h : type.zero? key = some v) : v.resolve = .ok v := by
  obtain ⟨field, -, h⟩ := Option.bind_eq_some_iff.1 h
  exact ScalarType.resolve_zero h

/-! ## Documents that differ in a blank field -/

namespace Document

variable {zero? : String → Option Value} {before after d d' : Document} {key : String}
  {v? : Option Value}

/-- The document with a field, or none, in a given place. -/
def between (before : Document) (key : String) (v? : Option Value) (after : Document) : Document :=
  before ++ ((v?.map fun v => (key, v)).toList ++ after)

/-- Whether two documents differ at most in one field that is blank in both of them: no other field
has its key, which is not that of the identifier. -/
inductive DifferBlank (zero? : String → Option Value) : Document → Document → Prop
  | intro {before after : Document} {key : String} {v? w? : Option Value} (hid : key ≠ idKey)
    (hkey : ∀ entry ∈ before ++ after, entry.1 ≠ key)
    (hv : IsBlank (zero? key) v?) (hw : IsBlank (zero? key) w?) :
    DifferBlank zero? (between before key v? after) (between before key w? after)

theorem lookup_eq_none_of_ne {d : Document} (h : ∀ entry ∈ d, entry.1 ≠ key) :
    d.lookup key = none := by
  rw [List.lookup_eq_none_iff]
  intro entry hentry
  simpa using (h entry hentry).symm

theorem lookup_between (h : ∀ entry ∈ before ++ after, entry.1 ≠ key) (k : String) :
    (between before key v? after).lookup k =
      if k = key then v? else (before ++ after).lookup k := by
  rw [between, List.lookup_append, List.lookup_append, List.lookup_append]
  by_cases hk : k = key
  · subst hk
    rw [List.forall_mem_append] at h
    rw [if_pos rfl, lookup_eq_none_of_ne h.1, lookup_eq_none_of_ne h.2]
    cases v? <;> simp
  · rw [if_neg hk]
    cases v? with
    | none => rfl
    | some v => simp [List.lookup_cons, beq_false_of_ne hk]

/-- What depends on one key only, and cannot tell the field from a missing one. -/
theorem apply_lookup_between {α : Type} {f : Option Value → α}
    (hkey : ∀ entry ∈ before ++ after, entry.1 ≠ key) {k : String}
    (h : k = key → f v? = f none) :
    f ((between before key v? after).lookup k) = f ((before ++ after).lookup k) := by
  rw [lookup_between hkey]
  by_cases hk : k = key
  · rw [if_pos hk, h hk, hk, lookup_eq_none_of_ne hkey]
  · rw [if_neg hk]

theorem findSome?_between {fault? : String × Value → Option DecodeError}
    (h : ∀ v ∈ v?, fault? (key, v) = none) :
    (between before key v? after).findSome? fault? = (before ++ after).findSome? fault? := by
  rw [between, List.findSome?_append, List.findSome?_append, List.findSome?_append]
  cases v? with
  | none => rfl
  | some v => simp [h v rfl]

end Document

namespace RecordType

variable {type : RecordType} {key : String} {v? : Option Value}

theorem fault?_blank (hid : key ≠ idKey) (h : IsBlank (type.zero? key) v?) :
    ∀ v ∈ v?, type.fault? (key, v) = none := by
  intro v hv
  rw [fault?, if_neg hid]
  cases hfield : type.field? key with
  | none => rfl
  | some field =>
    have hblank := h v hv
    rw [zero?, hfield, Option.bind_some] at hblank
    exact DecodeError.of?_eq_none.2 ⟨_, Content.decode_blank hblank⟩

theorem zero?_of_mem {field : Field FieldType} (h : field ∈ type.fields) :
    type.zero? field.key = field.type.zero? := by
  rw [zero?, field?_of_mem field h, Option.bind_some]

end RecordType

namespace Record

variable {type : RecordType} {before after d d' : Document} {key : String} {v? : Option Value}

theorem readField_blank {type : FieldType} (h : IsBlank type.zero? v?) :
    readField type v? = .ok type.default := by
  cases v? with
  | none => rfl
  | some v => exact Content.decode_blank (h v rfl)

theorem contentOf_eq (field : Field FieldType) (d : Document) :
    contentOf field d =
      (readField field.type (d.lookup field.key)).toOption.getD field.type.default := by
  rw [contentOf]
  cases d.lookup field.key with
  | none => rfl
  | some v => rfl

/-- A blank field may as well be missing. -/
theorem decode_between (hid : key ≠ idKey) (hkey : ∀ entry ∈ before ++ after, entry.1 ≠ key)
    (h : IsBlank (type.zero? key) v?) :
    decode type (Document.between before key v? after) = decode type (before ++ after) := by
  have hidOf : idOf (Document.between before key v? after) = idOf (before ++ after) := by
    rw [idOf, idOf, Document.lookup_between hkey, if_neg hid.symm]
  have hread : ∀ field ∈ type.fields,
      readField field.type ((Document.between before key v? after).lookup field.key) =
        readField field.type ((before ++ after).lookup field.key) := by
    intro field hfield
    refine Document.apply_lookup_between hkey ?_
    rintro rfl
    rw [RecordType.zero?_of_mem hfield] at h
    rw [readField_blank h, readField]
  have hcontent : ∀ field ∈ type.fields,
      contentOf field (Document.between before key v? after) =
        contentOf field (before ++ after) := by
    intro field hfield
    rw [contentOf_eq, contentOf_eq, hread field hfield]
  have hrecord : ∀ id, ofDocument type id (Document.between before key v? after) =
      ofDocument type id (before ++ after) := by
    intro id
    rw [ofDocument, ofDocument, List.map_congr_left hcontent]
  rw [decode_eq, decode_eq, Document.findSome?_between (RecordType.fault?_blank hid h), hidOf]
  simp only [hrecord]

theorem decode_of_differBlank (h : d.DifferBlank type.zero? d') :
    decode type d = decode type d' := by
  obtain ⟨hid, hkey, hv, hw⟩ := h
  rw [decode_between hid hkey hv, decode_between hid hkey hw]

end Record

namespace AssetType

variable {type : AssetType} {before after d d' : Document} {key : String} {v? : Option Value}

theorem readField_blank {type : ScalarType} (h : IsBlank type.zero? v?) :
    readField type v? = .ok type.default := by
  cases v? with
  | none => rfl
  | some v => exact Scalar.read_blank (h v rfl)

theorem zero?_of_mem {field : Field ScalarType} (h : field ∈ type.fields) :
    type.zero? field.key = field.type.zero? := by
  rw [zero?, field?_of_mem field h, Option.bind_some]

theorem fault?_blank (h : IsBlank (type.zero? key) v?) :
    ∀ v ∈ v?, type.fault? (key, v) = none := by
  intro v hv
  rw [fault?]
  cases hfield : type.field? key with
  | none => rfl
  | some field =>
    have hblank := h v hv
    rw [zero?, hfield, Option.bind_some] at hblank
    exact DecodeError.of?_eq_none.2 ⟨_, Scalar.read_blank hblank⟩

/-- A stored file is read from what fails in it and from what its fields hold. -/
theorem read_congr (hfault : d.findSome? type.fault? = d'.findSome? type.fault?)
    (hread : ∀ field ∈ type.fields,
      readField field.type (d.lookup field.key) = readField field.type (d'.lookup field.key)) :
    type.read (.document d) = type.read (.document d') := by
  rw [read_document, read_document]
  cases h' : d'.findSome? type.fault? with
  | some e =>
    rw [h'] at hfault
    rw [readFields_of_fault hfault, readFields_of_fault h']
  | none =>
    rw [h'] at hfault
    obtain ⟨scalars, hscalars, hfields⟩ :=
      readFields_of_faultless (List.findSome?_eq_none_iff.1 hfault)
    obtain ⟨scalars', hscalars', hfields'⟩ :=
      readFields_of_faultless (List.findSome?_eq_none_iff.1 h')
    have hcontents : ∀ field ∈ type.fields,
        (scalars.lookup field.key).getD field.type.default =
          (scalars'.lookup field.key).getD field.type.default := by
      intro field hfield
      have hread := hread field hfield
      rw [hfields field hfield, hfields' field hfield] at hread
      exact Except.ok.inj hread
    rw [hscalars, hscalars', Except.map, Except.map, List.map_congr_left hcontents]

theorem read_between (hkey : ∀ entry ∈ before ++ after, entry.1 ≠ key)
    (h : IsBlank (type.zero? key) v?) :
    type.read (.document (Document.between before key v? after)) =
      type.read (.document (before ++ after)) := by
  refine read_congr (Document.findSome?_between (fault?_blank h)) fun field hfield => ?_
  refine Document.apply_lookup_between hkey ?_
  rintro rfl
  rw [zero?_of_mem hfield] at h
  rw [readField_blank h, readField]

theorem read_of_differBlank (h : d.DifferBlank type.zero? d') :
    type.read (.document d) = type.read (.document d') := by
  obtain ⟨-, hkey, hv, hw⟩ := h
  rw [read_between hkey hv, read_between hkey hw]

end AssetType

/-! ## Resolving blank fields -/

namespace Value

variable {before after d d' : Document} {key : String}

theorem mapM_between {v? : Option Value} (h : ∀ v ∈ v?, v.resolve = .ok v) :
    (Document.between before key v? after).mapM resolveEntry = do
      let before' ← before.mapM resolveEntry
      let after' ← after.mapM resolveEntry
      return Document.between before' key v? after' := by
  rw [Document.between, List.mapM_append, List.mapM_append]
  have hfield : (v?.map fun v => (key, v)).toList.mapM resolveEntry =
      .ok (v?.map fun v => (key, v)).toList := by
    cases v? with
    | none => rfl
    | some v =>
      have hentry : resolveEntry (key, v) = .ok (key, v) := by
        rw [resolveEntry, h v rfl]
        rfl
      rw [Option.map_some, Option.toList_some, List.mapM_cons, hentry]
      rfl
  rw [hfield]
  cases before.mapM resolveEntry with
  | error e => rfl
  | ok before' =>
    cases after.mapM resolveEntry with
    | error e => rfl
    | ok after' => rfl

/-- Documents that differ in a blank field are resolved to such documents, if none of their keys is
reserved, or for both the same entry cannot be resolved. -/
theorem resolveAlike_of_differBlank {zero? : String → Option Value}
    (hzero : ∀ key v, zero? key = some v → v.resolve = .ok v) (h : d.DifferBlank zero? d')
    (hd : ∀ entry ∈ d, isReserved entry.1 = false)
    (hd' : ∀ entry ∈ d', isReserved entry.1 = false) :
    Document.ResolveAlike (Document.DifferBlank zero?) d d' := by
  rw [Document.ResolveAlike,
    resolveFields_of_unreserved fun entry hentry => ofName?_of_not_reserved (hd entry hentry),
    resolveFields_of_unreserved fun entry hentry => ofName?_of_not_reserved (hd' entry hentry)]
  obtain @⟨before, after, key, v?, w?, hid, hkey, hv, hw⟩ := h
  have hfixed : ∀ {x? : Option Value}, IsBlank (zero? key) x? → ∀ x ∈ x?, x.resolve = .ok x := by
    intro x? hx x hmem
    rcases hx x hmem with rfl | hx
    · rfl
    · exact hzero key x hx
  rw [mapM_between (hfixed hv), mapM_between (hfixed hw)]
  -- the fields around are resolved in the same way twice, and keep their keys
  cases hbefore : before.mapM resolveEntry with
  | error e => exact Or.inl rfl
  | ok before' =>
    cases hafter : after.mapM resolveEntry with
    | error e => exact Or.inl rfl
    | ok after' =>
      refine Or.inr ⟨_, _, rfl, rfl, .intro hid ?_ hv hw⟩
      rw [List.forall_mem_append] at hkey ⊢
      constructor
      · intro entry hentry
        obtain ⟨stored, hstored, hsame⟩ := exists_key_of_mapM_resolveEntry hbefore entry hentry
        exact hsame ▸ hkey.1 stored hstored
      · intro entry hentry
        obtain ⟨stored, hstored, hsame⟩ := exists_key_of_mapM_resolveEntry hafter entry hentry
        exact hsame ▸ hkey.2 stored hstored

end Value

/-! ## Values that are read alike -/

/-- Whether two values give a field the same content when they are read as they are, and also once
they have been resolved. -/
structure Value.ReadAlike (type : FieldType) (v w : Value) : Prop where
  stored : Content.decode type v = Content.decode type w
  resolved : v.ResolveAlike (fun v' w' => Content.decode type v' = Content.decode type w') w

/-- Whether two documents give the same record when they are read as they are, and also once they
have been resolved. -/
structure Document.ReadAlike (type : RecordType) (d d' : Document) : Prop where
  stored : Record.decode type d = Record.decode type d'
  resolved : d.ResolveAlike (fun r r' => Record.decode type r = Record.decode type r') d'

variable {type target : RecordType} {d d' : Document}

theorem RecordType.not_reserved_of_mem :
    ∀ field ∈ type.fields, isReserved field.key = false := by
  cases type <;> decide

theorem Record.decode_congr {field : Field FieldType} (hfield : field ∈ type.fields) {v w : Value}
    (h : Content.decode field.type v = Content.decode field.type w) (before after : Document) :
    decode type (before ++ (field.key, v) :: after) =
      decode type (before ++ (field.key, w) :: after) := by
  have hparts : partsOf type (before ++ (field.key, v) :: after) =
      partsOf type (before ++ (field.key, w) :: after) := by
    induction before with
    | nil =>
      have hid := RecordType.key_ne_idKey hfield
      rw [List.nil_append, List.nil_append, partsOf, partsOf, if_neg hid, if_neg hid,
        RecordType.field?_of_mem field hfield]
      simp only [h]
    | cons entry before ih =>
      obtain ⟨key, u⟩ := entry
      rw [List.cons_append, List.cons_append, partsOf, partsOf, ih]
  rw [decode, decode, hparts]

/-- Documents are read alike when one field of theirs is. -/
theorem Document.readAlike_of_field {field : Field FieldType} (hfield : field ∈ type.fields)
    {v w : Value} (h : Value.ReadAlike field.type v w) (before after : Document) :
    ReadAlike type (before ++ (field.key, v) :: after) (before ++ (field.key, w) :: after) := by
  have hkey := ofName?_of_not_reserved (RecordType.not_reserved_of_mem field hfield)
  refine ⟨Record.decode_congr hfield h.stored before after, ?_⟩
  refine (Value.resolveAlike_of_value hkey h.resolved before after).mono ?_
  rintro _ _ ⟨before', after', v', w', rfl, rfl, hread⟩
  exact Record.decode_congr hfield hread before' after'

theorem Document.readAlike_of_differBlank (h : d.DifferBlank type.zero? d')
    (hd : ∀ entry ∈ d, isReserved entry.1 = false)
    (hd' : ∀ entry ∈ d', isReserved entry.1 = false) : ReadAlike type d d' := by
  refine ⟨Record.decode_of_differBlank h, ?_⟩
  have hresolve := Value.resolveAlike_of_differBlank (fun _ _ => RecordType.resolve_zero) h hd hd'
  exact hresolve.mono fun r r' => Record.decode_of_differBlank

/-- Stored files are read without being resolved, but they may be inside of what is. -/
theorem Value.readAlike_asset {type : AssetType} (h : d.DifferBlank type.zero? d')
    (hd : ∀ entry ∈ d, isReserved entry.1 = false)
    (hd' : ∀ entry ∈ d', isReserved entry.1 = false) :
    ReadAlike (.asset type) (.document d) (.document d') := by
  have hdecode : ∀ {d d' : Document}, d.DifferBlank type.zero? d' →
      Content.decode (.asset type) (.document d) = Content.decode (.asset type) (.document d') := by
    intro d d' h
    rw [Content.decode, Content.decode, AssetType.read_of_differBlank h]
    · intro hnull
      cases hnull
    · intro hnull
      cases hnull
  have hresolve := resolveAlike_of_differBlank (fun _ _ => AssetType.resolve_zero) h hd hd'
  exact ⟨hdecode h, hresolve.value fun r r' => hdecode⟩

/-- In the place of a reference a document is resolved before it is read. -/
theorem Document.ReadAlike.related (h : ReadAlike target d d') :
    Related.decode target (.document d) = Related.decode target (.document d') ∧
      d.ResolveAlike (fun r r' =>
        Related.decode target (.document r) = Related.decode target (.document r')) d' := by
  rcases h.resolved with hsame | ⟨r, r', hr, hr', hread⟩
  · refine ⟨?_, Or.inl hsame⟩
    rw [Related.decode, Value.resolve, hsame, Related.decode, Value.resolve]
  · have hdoc : (Value.document d).resolve = .ok (.document r) := hr
    have hdoc' : (Value.document d').resolve = .ok (.document r') := hr'
    -- reading resolves once more, which changes nothing
    have hfixed := Value.resolve_of_resolve _ _ hdoc
    have hfixed' := Value.resolve_of_resolve _ _ hdoc'
    have hrelated : Related.decode target (.document r) = Related.decode target (.document r') := by
      rw [Related.decode_of_resolve_document hfixed, Related.decode_of_resolve_document hfixed',
        hread]
    refine ⟨?_, Or.inr ⟨r, r', hr, hr', hrelated⟩⟩
    rw [Related.decode_of_resolve_document hdoc, Related.decode_of_resolve_document hdoc', hread]

theorem Value.readAlike_reference (h : Document.ReadAlike target d d') :
    ReadAlike (.reference target) (.document d) (.document d') := by
  have hdecode : ∀ {d d' : Document},
      Related.decode target (.document d) = Related.decode target (.document d') →
      Content.decode (.reference target) (.document d) =
        Content.decode (.reference target) (.document d') := by
    intro d d' h
    rw [Content.decode, Content.decode, h]
    · intro hnull
      cases hnull
    · intro hnull
      cases hnull
  obtain ⟨hstored, hresolved⟩ := h.related
  exact ⟨hdecode hstored, hresolved.value fun r r' => hdecode⟩

theorem Value.readAlike_item (h : Document.ReadAlike target d d') (before after : List Value) :
    ReadAlike (.references target) (.array (before ++ .document d :: after))
      (.array (before ++ .document d' :: after)) := by
  have hdecode : ∀ {v w : Value} (before after : List Value),
      Related.decode target v = Related.decode target w →
      Content.decode (.references target) (.array (before ++ v :: after)) =
        Content.decode (.references target) (.array (before ++ w :: after)) := by
    intro v w before after h
    rw [Content.decode_references, Content.decode_references, mapM_around, mapM_around, h]
  obtain ⟨hstored, hresolved⟩ := h.related
  refine ⟨hdecode before after hstored, ?_⟩
  have hvalue : Value.ResolveAlike (fun v w => Related.decode target v = Related.decode target w)
      (.document d) (.document d') := hresolved.value fun r r' hread => hread
  refine (resolveAlike_of_item hvalue before after).mono ?_
  rintro _ _ ⟨before', after', v', w', rfl, rfl, hread⟩
  exact hdecode before' after' hread

/-! ## Differences inside a document -/

mutual

/-- Whether two documents differ at most in one field that is blank in both of them, which is a
field of theirs, or of a document at any depth in their fields. No key beside it is reserved. -/
inductive Document.DifferBlankWithin : RecordType → Document → Document → Prop
  | here {type : RecordType} {d d' : Document} (h : d.DifferBlank type.zero? d')
    (hd : ∀ entry ∈ d, isReserved entry.1 = false)
    (hd' : ∀ entry ∈ d', isReserved entry.1 = false) : Document.DifferBlankWithin type d d'
  | field {type : RecordType} {field : Field FieldType} (hfield : field ∈ type.fields)
    {v w : Value} (h : Value.DifferBlankWithin field.type v w) (before after : Document) :
    Document.DifferBlankWithin type (before ++ (field.key, v) :: after)
      (before ++ (field.key, w) :: after)

/-- Whether this is so of the documents in two values of a field: a stored file, a record in place
of a reference, or one of several. -/
inductive Value.DifferBlankWithin : FieldType → Value → Value → Prop
  | asset {type : AssetType} {d d' : Document} (h : d.DifferBlank type.zero? d')
    (hd : ∀ entry ∈ d, isReserved entry.1 = false)
    (hd' : ∀ entry ∈ d', isReserved entry.1 = false) :
    Value.DifferBlankWithin (.asset type) (.document d) (.document d')
  | reference {target : RecordType} {d d' : Document}
    (h : Document.DifferBlankWithin target d d') :
    Value.DifferBlankWithin (.reference target) (.document d) (.document d')
  | item {target : RecordType} {d d' : Document} (h : Document.DifferBlankWithin target d d')
    (before after : List Value) :
    Value.DifferBlankWithin (.references target) (.array (before ++ .document d :: after))
      (.array (before ++ .document d' :: after))

end

-- The induction carries both ways of reading: the outermost document is read as it is, and those
-- inside are resolved with it before.
mutual

theorem Document.DifferBlankWithin.readAlike :
    ∀ {type : RecordType} {d d' : Document}, Document.DifferBlankWithin type d d' →
      Document.ReadAlike type d d'
  | _, _, _, .here h hd hd' => Document.readAlike_of_differBlank h hd hd'
  | _, _, _, .field hfield h before after =>
    Document.readAlike_of_field hfield (Value.DifferBlankWithin.readAlike h) before after

theorem Value.DifferBlankWithin.readAlike :
    ∀ {type : FieldType} {v w : Value}, Value.DifferBlankWithin type v w →
      Value.ReadAlike type v w
  | _, _, _, .asset h hd hd' => Value.readAlike_asset h hd hd'
  | _, _, _, .reference h => Value.readAlike_reference (Document.DifferBlankWithin.readAlike h)
  | _, _, _, .item h before after =>
    Value.readAlike_item (Document.DifferBlankWithin.readAlike h) before after

end

namespace Record

/-- A field that is null is read as one that is missing, and so is one that holds the zero value of
its type. Documents that differ only in that are the same record, or fail with the same error,
wherever they differ: in a field of their own, or in a field of a document at any depth inside. -/
theorem null_reads_as_missing (type : RecordType) :
    (∀ before key after, key ≠ idKey → (∀ entry ∈ before ++ after, entry.1 ≠ key) →
      decode type (before ++ (key, .null) :: after) = decode type (before ++ after)) ∧
    (∀ d d', Document.DifferBlank type.zero? d d' → decode type d = decode type d') ∧
    ∀ d d', Document.DifferBlankWithin type d d' → decode type d = decode type d' := by
  refine ⟨?_, fun d d' h => decode_of_differBlank h, fun d d' h => h.readAlike.stored⟩
  intro before key after hid hkey
  exact decode_between hid hkey (isBlank_null _)

/-- A picture with a name or none. -/
def picture (name? : Option Value) : Document :=
  .between [("url", .string "/a.png")] "filename" name? [("width", .int32 640)]

/-- A topic with a title or none. One of its posts has been joined, with its picture. -/
def gallery (title? name? : Option Value) : Document :=
  .between [(idKey, .string "5f0c2a7e9d3b4c1a2e8f6a03")] "title" title?
    [("relateds", .array [.string "5f0c2a7e9d3b4c1a2e8f6a04", .document
      [(idKey, .string "5f0c2a7e9d3b4c1a2e8f6a05"), ("heroImage", .document
        [("image", .document (picture name?)), (idKey, .string "5f0c2a7e9d3b4c1a2e8f6a06")])]])]

theorem null_reads_as_missing_gallery :
    decode .topic (gallery (some .null) (some .null)) = decode .topic (gallery none none) ∧
    decode .topic (gallery (some (.string "")) (some (.string ""))) =
      decode .topic (gallery none none) := by
  obtain ⟨hnull, hblank, hinside⟩ := null_reads_as_missing .topic
  have himage : (⟨"image", "image", .asset .image⟩ : Field FieldType) ∈
      RecordType.image.fields := by decide
  have hhero : (⟨"heroImage", "hero_image", .reference .image⟩ : Field FieldType) ∈
      RecordType.post.fields := by decide
  have hrelateds : (⟨"relateds", "relateds", .references .post⟩ : Field FieldType) ∈
      RecordType.topic.fields := by decide
  have hname : ∀ name, IsBlank (AssetType.image.zero? "filename") (some name) →
      decode .topic (gallery none (some name)) = decode .topic (gallery none none) := by
    intro name hname
    have hpicture : (picture (some name)).DifferBlank AssetType.image.zero? (picture none) :=
      .intro (by decide) (by decide) hname (isBlank_none _)
    have hkeys : ∀ name? : Option Value, ∀ entry ∈ picture name?, isReserved entry.1 = false := by
      intro name?
      cases name? <;> simp [picture, Document.between] <;> decide
    have hfile := Document.DifferBlankWithin.field himage
      (.asset hpicture (hkeys _) (hkeys _)) [] [(idKey, .string "5f0c2a7e9d3b4c1a2e8f6a06")]
    have hpost := Document.DifferBlankWithin.field hhero (.reference hfile)
      [(idKey, .string "5f0c2a7e9d3b4c1a2e8f6a05")] []
    exact hinside _ _ (.field hrelateds (.item hpost [.string "5f0c2a7e9d3b4c1a2e8f6a04"] [])
      [(idKey, .string "5f0c2a7e9d3b4c1a2e8f6a03")] [])
  have hempty : ∀ name?, decode .topic (gallery (some (.string "")) name?) =
      decode .topic (gallery none name?) := by
    intro name?
    exact hblank _ _ (.intro (by decide) (by simp [idKey]) (isBlank_zero rfl) (isBlank_none _))
  constructor
  · rw [← hname .null (isBlank_null _)]
    exact hnull _ "title" _ (by decide) (by simp [idKey])
  · rw [hempty, hname (.string "") (isBlank_zero rfl)]

end Record

end NewsService
