import NewsService.Proofs.Record.Chain

/-!
# Records fit their schema

What decoding yields has the shape that the schema gives it: one content of the right type for each
field, in stored files as well, and so on in the records that stand in place of references.
-/

namespace NewsService

/-- The type of the content of a plain field. -/
def Scalar.type : Scalar → ScalarType
  | .text _ => .text
  | .flag _ => .flag
  | .number _ => .number
  | .date _ => .date
  | .free _ => .free

mutual

/-- Whether a record has a type, and contents of the types of its fields. -/
inductive Record.HasType : RecordType → Record → Prop
  | mk {type : RecordType} {id : ObjectId} {contents : List Content}
    (h : Content.HaveTypes type.fields contents) : Record.HasType type ⟨type, id, contents⟩

/-- Whether contents have the types of some fields, one by one. -/
inductive Content.HaveTypes : List (Field FieldType) → List Content → Prop
  | nil : Content.HaveTypes [] []
  | cons {field : Field FieldType} {fields : List (Field FieldType)} {content : Content}
    {contents : List Content} (h : Content.HasType field.type content)
    (hrest : Content.HaveTypes fields contents) :
    Content.HaveTypes (field :: fields) (content :: contents)

/-- Whether a content has the type of a field. -/
inductive Content.HasType : FieldType → Content → Prop
  | scalar {type : ScalarType} {s : Scalar} (h : s.type = type) :
    Content.HasType (.scalar type) (.scalar s)
  | noAsset {type : AssetType} : Content.HasType (.asset type) (.asset none)
  | asset {type : AssetType} {scalars : List Scalar}
    (h : scalars.map Scalar.type = type.fields.map Field.type) :
    Content.HasType (.asset type) (.asset (some scalars))
  | noReference {target : RecordType} : Content.HasType (.reference target) (.reference none)
  | reference {target : RecordType} {ref : Related} (h : Related.HasType target ref) :
    Content.HasType (.reference target) (.reference (some ref))
  | references {target : RecordType} {refs : List Related} (h : Related.HaveType target refs) :
    Content.HasType (.references target) (.references refs)

/-- Whether a reference leads to a record of a type, as far as it has been joined. -/
inductive Related.HasType : RecordType → Related → Prop
  | id {target : RecordType} (id : ObjectId) : Related.HasType target (.id id)
  | expanded {target : RecordType} {r : Record} (h : Record.HasType target r) :
    Related.HasType target (.expanded r)

/-- Whether this is so of all references of a list. -/
inductive Related.HaveType : RecordType → List Related → Prop
  | nil {target : RecordType} : Related.HaveType target []
  | cons {target : RecordType} {ref : Related} {refs : List Related}
    (h : Related.HasType target ref) (hrest : Related.HaveType target refs) :
    Related.HaveType target (ref :: refs)

end

theorem ScalarType.type_default (type : ScalarType) : type.default.type = type := by
  cases type <;> rfl

theorem FieldType.hasType_default (type : FieldType) : Content.HasType type type.default := by
  cases type with
  | scalar type => exact .scalar type.type_default
  | asset type => exact .noAsset
  | reference target => exact .noReference
  | references target => exact .references .nil

/-! ## Plain fields and stored files -/

theorem Scalar.type_of_read {type : ScalarType} {v : Value} {s : Scalar}
    (h : Scalar.read type v = .ok s) : s.type = type := by
  by_cases hnull : v = .null
  · rw [hnull, Scalar.read] at h
    rw [← Except.ok.inj h, ScalarType.type_default]
  · cases type with
    | flag =>
      cases v with
      | boolean b =>
        obtain rfl := Except.ok.inj h
        rfl
      | null => exact absurd rfl hnull
      | _ => simp [Scalar.read] at h
    | _ =>
      rw [Scalar.read] at h
      · obtain ⟨a, -, rfl⟩ := DecodeError.map_eq_ok.1 h
        rfl
      · exact hnull

namespace AssetType

variable {type : AssetType}

theorem types_defaults (fields : List (Field ScalarType)) :
    (fields.map fun field => field.type.default).map Scalar.type = fields.map Field.type := by
  rw [List.map_map]
  exact List.map_congr_left fun field _ => field.type.type_default

theorem types_of_readItems {fields : List (Field ScalarType)} {items : List Value}
    {scalars : List Scalar} (h : readItems fields items = .ok scalars) :
    scalars.map Scalar.type = fields.map Field.type := by
  induction fields generalizing items scalars with
  | nil =>
    rw [readItems] at h
    rw [← Except.ok.inj h]
    rfl
  | cons field fields ih =>
    cases items with
    | nil =>
      rw [readItems] at h
      · rw [← Except.ok.inj h, types_defaults]
      · exact List.cons_ne_nil _ _
    | cons v rest =>
      rw [readItems] at h
      obtain ⟨scalar, hscalar, h⟩ := DecodeError.exists_of_bind_eq_ok h
      obtain ⟨others, hothers, h⟩ := DecodeError.exists_of_bind_eq_ok h
      obtain rfl := Except.ok.inj h
      rw [List.map_cons, List.map_cons, Scalar.type_of_read hscalar, ih hothers]

theorem type_of_readField {type : ScalarType} {stored? : Option Value} {scalar : Scalar}
    (h : readField type stored? = .ok scalar) : scalar.type = type := by
  cases stored? with
  | none =>
    rw [readField] at h
    rw [← Except.ok.inj h, ScalarType.type_default]
  | some stored =>
    rw [readField] at h
    exact Scalar.type_of_read h

theorem types_of_read {v : Value} {scalars : List Scalar} (h : type.read v = .ok (some scalars)) :
    scalars.map Scalar.type = type.fields.map Field.type := by
  rw [read.eq_def] at h
  split at h
  · cases h
  · next d =>
    have hdocument : type.read (.document d) = .ok (some scalars) := h
    obtain ⟨-, found, hfound, hread⟩ := read_eq_ok.1 hdocument
    obtain rfl := Option.some.inj hfound
    rw [← List.forall₂_eq_eq_eq, List.forall₂_map_left_iff, List.forall₂_map_right_iff]
    exact hread.flip.imp fun scalar field hscalar => type_of_readField hscalar
  · obtain ⟨found, hfound, hscalars⟩ := DecodeError.map_eq_ok.1 h
    obtain rfl := Option.some.inj hscalars
    exact types_of_readItems hfound
  · split at h
    · obtain rfl := Option.some.inj (Except.ok.inj h)
      exact types_defaults type.fields
    · cases h

end AssetType

/-! ## Records -/

-- The recursion is on what has been decoded: a joined record is part of the record around it.
mutual

theorem Record.hasType_of_decode :
    ∀ (r : Record) {type : RecordType} {d : Document},
      Record.decode type d = .ok r → Record.HasType type r
  | ⟨_, _, contents⟩, type, d, h => by
    have hin := (Record.decode_eq_ok_iff_isIn.1 h).2
    obtain rfl := hin.type_eq
    exact .mk (Content.haveTypes_of_read contents hin.contents)

theorem Content.haveTypes_of_read :
    ∀ (contents : List Content) {fields : List (Field FieldType)} {d : Document},
      List.Forall₂ (fun field content =>
        Record.readField field.type (d.lookup field.key) = .ok content) fields contents →
      Content.HaveTypes fields contents
  | [], _, _, .nil => .nil
  | content :: contents, _, d, .cons (a := field) h hrest => by
    refine .cons ?_ (Content.haveTypes_of_read contents hrest)
    cases hstored : d.lookup field.key with
    | none =>
      rw [hstored, Record.readField] at h
      obtain rfl := Except.ok.inj h
      exact field.type.hasType_default
    | some v =>
      rw [hstored, Record.readField] at h
      exact Content.hasType_of_decode content h

theorem Content.hasType_of_decode :
    ∀ (content : Content) {type : FieldType} {v : Value},
      Content.decode type v = .ok content → Content.HasType type content
  | content, type, v, h => by
    rcases Content.decode_cases h with ⟨-, rfl⟩ | ⟨kind, s, rfl, rfl, hs⟩ |
      ⟨asset, scalars?, rfl, rfl, hscalars⟩ | ⟨target, ref, rfl, rfl, href⟩ |
      ⟨target, items, refs, rfl, -, rfl, hrefs⟩
    · exact type.hasType_default
    · exact .scalar (Scalar.type_of_read hs)
    · cases scalars? with
      | none => exact .noAsset
      | some scalars => exact .asset (AssetType.types_of_read hscalars)
    · exact .reference (Related.hasType_of_decode ref href)
    · exact .references (Related.haveType_of_decode refs (mapM_eq_ok.1 hrefs))

theorem Related.hasType_of_decode :
    ∀ (ref : Related) {target : RecordType} {v : Value},
      Related.decode target v = .ok ref → Related.HasType target ref
  | .id id, _, _, _ => .id id
  | .expanded r, _, _, h => by
    obtain ⟨d, -, hr⟩ := Related.decode_eq_expanded.1 h
    exact .expanded (Record.hasType_of_decode r hr)

theorem Related.haveType_of_decode :
    ∀ (refs : List Related) {target : RecordType} {items : List Value},
      List.Forall₂ (fun v ref => Related.decode target v = .ok ref) items refs →
      Related.HaveType target refs
  | [], _, _, .nil => .nil
  | ref :: refs, _, _, .cons h hrest =>
    .cons (Related.hasType_of_decode ref h) (Related.haveType_of_decode refs hrest)

end

end NewsService
