import NewsService.Proofs.Calendar.Text
import NewsService.Proofs.Json.Alike
import NewsService.Proofs.ObjectId.Places
import NewsService.Proofs.Record.FreeContent
import NewsService.Proofs.Record.Typed

/-!
# Served JSON determines the record

Each field is served under a name of its own, and what the schema allows in a field is told apart by
its JSON form: a reference that has not been joined is a string and a joined one an object, and what
is absent is null. Only null as free content is served like content that is absent. Main statement:
two records of one type that are served alike are equal, up to such null values.
-/

namespace NewsService

/-! ## Equal up to null values -/

/-- Whether two plain fields have the same content, where null as free content is none. -/
inductive Scalar.Agree (Same : Json → Json → Prop) : Scalar → Scalar → Prop
  | same (s : Scalar) : Scalar.Agree Same s s
  | free {j j' : Option Json} (h : Same (j.getD .null) (j'.getD .null)) :
      Scalar.Agree Same (.free j) (.free j')

mutual

/-- Whether two records are equal, except that free content is compared by a relation and null there
is the same as none. -/
inductive Record.Agree (Same : Json → Json → Prop) : Record → Record → Prop
  | mk {type : RecordType} {id : ObjectId} {contents contents' : List Content}
      (h : Content.ListsAgree Same contents contents') :
      Record.Agree Same ⟨type, id, contents⟩ ⟨type, id, contents'⟩

/-- Whether this is so of the contents of two lists, one by one. -/
inductive Content.ListsAgree (Same : Json → Json → Prop) : List Content → List Content → Prop
  | nil : Content.ListsAgree Same [] []
  | cons {content content' : Content} {rest rest' : List Content}
      (h : Content.Agree Same content content') (hrest : Content.ListsAgree Same rest rest') :
      Content.ListsAgree Same (content :: rest) (content' :: rest')

/-- Whether this is so of two contents. -/
inductive Content.Agree (Same : Json → Json → Prop) : Content → Content → Prop
  | scalar {s s' : Scalar} (h : Scalar.Agree Same s s') :
      Content.Agree Same (.scalar s) (.scalar s')
  | noAsset : Content.Agree Same (.asset none) (.asset none)
  | asset {scalars scalars' : List Scalar} (h : List.Forall₂ (Scalar.Agree Same) scalars scalars') :
      Content.Agree Same (.asset (some scalars)) (.asset (some scalars'))
  | noReference : Content.Agree Same (.reference none) (.reference none)
  | reference {ref ref' : Related} (h : Related.Agree Same ref ref') :
      Content.Agree Same (.reference (some ref)) (.reference (some ref'))
  | references {refs refs' : List Related} (h : Related.ListsAgree Same refs refs') :
      Content.Agree Same (.references refs) (.references refs')

/-- Whether this is so of two references: they are the same identifier or lead to such records. -/
inductive Related.Agree (Same : Json → Json → Prop) : Related → Related → Prop
  | id (id : ObjectId) : Related.Agree Same (.id id) (.id id)
  | expanded {r r' : Record} (h : Record.Agree Same r r') :
      Related.Agree Same (.expanded r) (.expanded r')

/-- Whether this is so of the references of two lists, one by one. -/
inductive Related.ListsAgree (Same : Json → Json → Prop) : List Related → List Related → Prop
  | nil : Related.ListsAgree Same [] []
  | cons {ref ref' : Related} {rest rest' : List Related} (h : Related.Agree Same ref ref')
      (hrest : Related.ListsAgree Same rest rest') :
      Related.ListsAgree Same (ref :: rest) (ref' :: rest')

end

/-! ## Plain fields -/

variable {Same : Json → Json → Prop}

theorem Json.ofOption_inj {α : Type} {write : α → Json} (hinj : ∀ a b, write a = write b → a = b)
    (hnull : ∀ a, write a ≠ .null) {a? b? : Option α}
    (h : Json.ofOption write a? = Json.ofOption write b?) : a? = b? := by
  cases a? with
  | none =>
    cases b? with
    | none => rfl
    | some b => exact absurd h.symm (hnull b)
  | some a =>
    cases b? with
    | none => exact absurd h (hnull a)
    | some b => rw [hinj a b h]

theorem Scalar.toJson_free (j : Option Json) : (Scalar.free j).toJson = j.getD .null := by
  cases j <;> rfl

theorem Scalar.isAtom_toJson {s : Scalar} (h : s.type ≠ .free) : s.toJson.isAtom = true := by
  cases s with
  | number n => cases n <;> rfl
  | date t => cases t <;> rfl
  | free j => exact absurd rfl h
  | _ => rfl

theorem Scalar.toJson_inj {s s' : Scalar} (htype : s.type = s'.type) (hfree : s.type ≠ .free)
    (h : s.toJson = s'.toJson) : s = s' := by
  cases s with
  | text s =>
    cases s' with
    | text s' => rw [Json.string.inj h]
    | _ => cases htype
  | flag b =>
    cases s' with
    | flag b' => rw [Json.bool.inj h]
    | _ => cases htype
  | number n =>
    cases s' with
    | number n' =>
      have hnumber : n = n' := by
        refine Json.ofOption_inj (fun a b hab => ?_) (fun a ha => ?_) h
        · exact Int64.toInt_inj.1 (Json.integer.inj hab)
        · cases ha
      rw [hnumber]
    | _ => cases htype
  | date t =>
    cases s' with
    | date t' =>
      have hdate : t = t' := by
        refine Json.ofOption_inj (fun a b hab => ?_) (fun a ha => ?_) h
        · exact Instant.text_inj.1 (Json.string.inj hab)
        · cases ha
      rw [hdate]
    | _ => cases htype
  | free j => exact absurd rfl hfree

theorem Scalar.agree_of_same (hsame : Json.IsComparison Same) {s s' : Scalar}
    (htype : s.type = s'.type) (h : Same s.toJson s'.toJson) : s.Agree Same s' := by
  by_cases hfree : s.type = .free
  · obtain ⟨j, rfl⟩ : ∃ j, s = .free j := by
      cases s with
      | free j => exact ⟨j, rfl⟩
      | _ => cases hfree
    obtain ⟨j', rfl⟩ : ∃ j', s' = .free j' := by
      cases s' with
      | free j' => exact ⟨j', rfl⟩
      | _ => cases htype
    rw [Scalar.toJson_free, Scalar.toJson_free] at h
    exact .free h
  · have hjson := hsame.atom h (Scalar.isAtom_toJson hfree)
    obtain rfl := Scalar.toJson_inj htype hfree hjson.symm
    exact .same s

/-! ## Fields under their names -/

theorem Content.HaveTypes.length_eq {fields : List (Field FieldType)} {contents : List Content}
    (h : Content.HaveTypes fields contents) : fields.length = contents.length := by
  induction contents generalizing fields with
  | nil =>
    cases h
    rfl
  | cons content rest ih =>
    cases h with
    | cons _ hrest => rw [List.length_cons, List.length_cons, ih hrest]

namespace Record

variable {type : RecordType} {id id' : ObjectId} {contents contents' : List Content}

theorem nodup_toJson (h : Content.HaveTypes type.fields contents) (j : Json) :
    ((("id", j) :: Content.members type.fields contents).map Prod.fst).Nodup := by
  rw [List.map_cons, Content.members_eq,
    map_fst_written (fun type content => Content.toJson type content) h.length_eq]
  exact type.nodup_names

/-- Records that are served alike have the same identifier. -/
theorem id_eq_of_same (hsame : Json.IsComparison Same)
    (h : Content.HaveTypes type.fields contents)
    (hjson : Same (toJson ⟨type, id, contents⟩) (toJson ⟨type, id', contents'⟩)) : id = id' := by
  rw [toJson, toJson] at hjson
  have hid := hsame.of_lookup hjson (nodup_toJson h _) List.lookup_cons_self List.lookup_cons_self
  exact ObjectId.text_inj.1 (Json.string.inj (hsame.atom hid rfl).symm)

/-- Records that are served alike are so field by field. -/
theorem same_of_mem_zip (hsame : Json.IsComparison Same)
    (h : Content.HaveTypes type.fields contents) (h' : Content.HaveTypes type.fields contents')
    (hjson : Same (toJson ⟨type, id, contents⟩) (toJson ⟨type, id', contents'⟩))
    {field : Field FieldType} {content content' : Content}
    (hmem : (field, content) ∈ type.fields.zip contents)
    (hmem' : (field, content') ∈ type.fields.zip contents') :
    Same (content.toJson field.type) (content'.toJson field.type) := by
  rw [toJson, toJson] at hjson
  exact hsame.of_lookup hjson (nodup_toJson h _) (lookup_members h.length_eq _ hmem)
    (lookup_members h'.length_eq _ hmem')

end Record

/-- Stored files that are served alike agree in all fields. -/
theorem AssetType.agree_of_same (hsame : Json.IsComparison Same) {type : AssetType}
    {scalars scalars' : List Scalar} (h : scalars.map Scalar.type = type.fields.map Field.type)
    (h' : scalars'.map Scalar.type = type.fields.map Field.type)
    (hjson : Same (Content.toJson (.asset type) (.asset (some scalars)))
      (Content.toJson (.asset type) (.asset (some scalars')))) :
    List.Forall₂ (Scalar.Agree Same) scalars scalars' := by
  have hlength : type.fields.length = scalars.length := by
    simpa using (congrArg List.length h).symm
  have hlength' : type.fields.length = scalars'.length := by
    simpa using (congrArg List.length h').symm
  have htypes : List.Forall₂ (fun s s' : Scalar => s.type = s'.type) scalars scalars' := by
    have hsametypes := h.trans h'.symm
    rwa [← List.forall₂_eq_eq_eq, List.forall₂_map_left_iff, List.forall₂_map_right_iff]
      at hsametypes
  rw [Content.toJson, Content.toJson, List.zip_map, List.zip_map] at hjson
  refine List.forall₂_iff_get.2 ⟨hlength.symm.trans hlength', fun i hi hi' => ?_⟩
  have hfield : i < type.fields.length := hlength ▸ hi
  have hmem : (type.fields[i], scalars[i]) ∈ type.fields.zip scalars :=
    List.mem_iff_getElem.2 ⟨i, by rw [List.length_zip]; omega, List.getElem_zip⟩
  have hmem' : (type.fields[i], scalars'[i]) ∈ type.fields.zip scalars' :=
    List.mem_iff_getElem.2 ⟨i, by rw [List.length_zip]; omega, List.getElem_zip⟩
  have hnames : ((type.fields.zip scalars).map fun p =>
      (p.1.name, p.2.toJson)).map Prod.fst = type.fields.map Field.name :=
    map_fst_written (fun _ => Scalar.toJson) hlength
  have hvalue := hsame.of_lookup hjson (hnames ▸ type.nodup_names)
    (lookup_written (fun _ => Scalar.toJson) hlength type.nodup_names hmem)
    (lookup_written (fun _ => Scalar.toJson) hlength' type.nodup_names hmem')
  exact Scalar.agree_of_same hsame (htypes.get hi hi') hvalue

/-! ## Records -/

theorem Related.toJson_ne_null (ref : Related) : ref.toJson ≠ .null := by
  intro hnull
  cases ref with
  | id id =>
    rw [Related.toJson] at hnull
    cases hnull
  | expanded r =>
    obtain ⟨type, id, contents⟩ := r
    rw [Related.toJson, Record.toJson] at hnull
    cases hnull

-- The recursion is on the first of the two records.
mutual

theorem Record.agree_of_same (hsame : Json.IsComparison Same) :
    ∀ (r : Record) {r' : Record} {type : RecordType}, Record.HasType type r →
      Record.HasType type r' → Same r.toJson r'.toJson → Record.Agree Same r r'
  | ⟨_, id, contents⟩, _, _, .mk h, .mk h', hjson => by
    obtain rfl := Record.id_eq_of_same hsame h hjson
    exact .mk (Content.listsAgree_of_same hsame contents h h'
      fun _ _ _ hmem hmem' => Record.same_of_mem_zip hsame h h' hjson hmem hmem')

theorem Content.listsAgree_of_same (hsame : Json.IsComparison Same) :
    ∀ (contents : List Content) {contents' : List Content} {fields : List (Field FieldType)},
      Content.HaveTypes fields contents → Content.HaveTypes fields contents' →
      (∀ field content content', (field, content) ∈ fields.zip contents →
        (field, content') ∈ fields.zip contents' →
          Same (content.toJson field.type) (content'.toJson field.type)) →
      Content.ListsAgree Same contents contents'
  | [], _, _, .nil, .nil, _ => .nil
  | content :: contents, _, _, .cons h hrest, .cons h' hrest', hjson => by
    -- what is the same under every name of the whole list is so under the names of the rest
    have hhead := hjson _ _ _ List.mem_cons_self List.mem_cons_self
    have htail := Content.listsAgree_of_same hsame contents hrest hrest'
      fun field content content' hmem hmem' =>
        hjson field content content' (List.mem_cons_of_mem _ hmem) (List.mem_cons_of_mem _ hmem')
    exact .cons (Content.agree_of_same hsame content h h' hhead) htail

theorem Content.agree_of_same (hsame : Json.IsComparison Same) :
    ∀ (content : Content) {content' : Content} {type : FieldType}, Content.HasType type content →
      Content.HasType type content' → Same (content.toJson type) (content'.toJson type) →
      Content.Agree Same content content'
  | .scalar s, _, _, .scalar h, .scalar h', hjson => by
    rw [Content.toJson, Content.toJson] at hjson
    exact .scalar (Scalar.agree_of_same hsame (h.trans h'.symm) hjson)
  | .asset none, _, _, .noAsset, .noAsset, _ => .noAsset
  | .asset none, _, _, .noAsset, .asset _, hjson => by
    have hnull := (hsame.eq_null_iff hjson).1 rfl
    rw [Content.toJson] at hnull
    cases hnull
  | .asset (some scalars), _, _, .asset _, .noAsset, hjson => by
    have hnull := (hsame.eq_null_iff hjson).2 rfl
    rw [Content.toJson] at hnull
    cases hnull
  | .asset (some scalars), _, _, .asset h, .asset h', hjson =>
    .asset (AssetType.agree_of_same hsame h h' hjson)
  | .reference none, _, _, .noReference, .noReference, _ => .noReference
  | .reference none, _, _, .noReference, @Content.HasType.reference _ ref' _, hjson => by
    rw [Content.toJson, Content.toJson] at hjson
    exact absurd ((hsame.eq_null_iff hjson).1 rfl) ref'.toJson_ne_null
  | .reference (some ref), _, _, .reference _, .noReference, hjson => by
    rw [Content.toJson, Content.toJson] at hjson
    exact absurd ((hsame.eq_null_iff hjson).2 rfl) ref.toJson_ne_null
  | .reference (some ref), _, _, .reference h, .reference h', hjson => by
    rw [Content.toJson, Content.toJson] at hjson
    exact .reference (Related.agree_of_same hsame ref h h' hjson)
  | .references refs, _, _, .references h, .references h', hjson => by
    rw [Content.toJson, Content.toJson] at hjson
    obtain ⟨items, heq, hitems⟩ := hsame.array hjson
    obtain rfl := Json.array.inj heq
    exact .references (Related.listsAgree_of_same hsame refs h h' hitems)

theorem Related.agree_of_same (hsame : Json.IsComparison Same) :
    ∀ (ref : Related) {ref' : Related} {target : RecordType}, Related.HasType target ref →
      Related.HasType target ref' → Same ref.toJson ref'.toJson → Related.Agree Same ref ref'
  | .id id, _, _, .id _, .id id', hjson => by
    rw [Related.toJson, Related.toJson] at hjson
    obtain rfl := ObjectId.text_inj.1 (Json.string.inj (hsame.atom hjson rfl))
    exact .id id'
  | .id id, _, _, .id _, .expanded (r := r') _, hjson => by
    obtain ⟨type, id', contents⟩ := r'
    rw [Related.toJson, Related.toJson, Record.toJson] at hjson
    cases hsame.atom hjson rfl
  | .expanded ⟨type, id, contents⟩, _, _, .expanded _, .id id', hjson => by
    rw [Related.toJson, Related.toJson, Record.toJson] at hjson
    obtain ⟨members, heq, -⟩ := hsame.object hjson
    cases heq
  | .expanded r, _, _, .expanded h, .expanded h', hjson => by
    rw [Related.toJson, Related.toJson] at hjson
    exact .expanded (Record.agree_of_same hsame r h h' hjson)

theorem Related.listsAgree_of_same (hsame : Json.IsComparison Same) :
    ∀ (refs : List Related) {refs' : List Related} {target : RecordType},
      Related.HaveType target refs → Related.HaveType target refs' →
      List.Forall₂ Same (Related.listToJson refs) (Related.listToJson refs') →
      Related.ListsAgree Same refs refs'
  | [], _, _, .nil, .nil, _ => .nil
  | [], _, _, .nil, .cons _ _, hjson => by
    rw [Related.listToJson, Related.listToJson] at hjson
    cases hjson
  | ref :: refs, _, _, .cons _ _, .nil, hjson => by
    rw [Related.listToJson, Related.listToJson] at hjson
    cases hjson
  | ref :: refs, _, _, .cons h hrest, .cons h' hrest', hjson => by
    rw [Related.listToJson, Related.listToJson] at hjson
    obtain ⟨hhead, htail⟩ := List.forall₂_cons.1 hjson
    exact .cons (Related.agree_of_same hsame ref h h' hhead)
      (Related.listsAgree_of_same hsame refs hrest hrest' htail)

end

/-! ## Instants of stored times -/

namespace Instant

/-- The number of milliseconds with which a time outside the years that instants cover shares its
instant: the first one, or the one after the last. -/
def saturated (millis : Int) : Int :=
  max leastMillis (min (greatestMillis + 1) millis)

theorem nanos_ofMillis (millis : Int) :
    (ofMillis millis).nanos =
      saturated millis * 1000000 - if greatestMillis < millis then 1 else 0 := by
  unfold ofMillis saturated latest leastMillis greatestMillis
  split
  · rw [if_neg (by omega)]
    dsimp only
    omega
  · split
    · dsimp only
      omega
    · dsimp only
      omega

theorem ofMillis_eq_iff {m n : Int} : ofMillis m = ofMillis n ↔ saturated m = saturated n := by
  have hnanos : ofMillis m = ofMillis n ↔ (ofMillis m).nanos = (ofMillis n).nanos := by
    rw [← Instant.mk.injEq]
  rw [hnanos, nanos_ofMillis, nanos_ofMillis]
  unfold saturated leastMillis greatestMillis
  split
  · split
    · omega
    · omega
  · split
    · omega
    · omega

end Instant

/-- Two records of one type that are served alike are equal, up to null as free content, whether
alike means written alike or standing for the same value. No two fields share a name, and stored
times share a text only if they share an instant. -/
theorem Record.served_json_determines {type : RecordType} {d d' : Document} {r r' : Record}
    (h : Record.decode type d = .ok r) (h' : Record.decode type d' = .ok r') :
    (r.toJson = r'.toJson → r.Agree (· = ·) r') ∧
    (Json.Alike r.toJson r'.toJson → r.Agree Json.Alike r') ∧
    ("id" :: type.fields.map Field.name).Nodup ∧
    (∀ asset : AssetType, (asset.fields.map Field.name).Nodup) ∧
    ∀ m n : Int64,
      (Instant.ofMillis m.toInt).text .grouped = (Instant.ofMillis n.toInt).text .grouped ↔
        Instant.saturated m.toInt = Instant.saturated n.toInt := by
  have htype := Record.hasType_of_decode r h
  have htype' := Record.hasType_of_decode r' h'
  refine ⟨Record.agree_of_same Json.isComparison_eq r htype htype',
    Record.agree_of_same Json.isComparison_alike r htype htype', type.nodup_names,
    AssetType.nodup_names, fun m n => ?_⟩
  rw [Instant.text_inj, Instant.ofMillis_eq_iff]

/-- The identifier of an author. -/
def editorId : ObjectId :=
  ⟨List.replicate 12 11, rfl⟩

/-- The identifier of the image of that author. -/
def editorPictureId : ObjectId :=
  ⟨List.replicate 12 12, rfl⟩

/-- An author as stored, with an image in place and a date. -/
def editor (bio : Value) (millis : Int64) : Document :=
  [("_id", .objectId editorId), ("bio", bio),
    ("thumbnail", .document [("_id", .objectId editorPictureId)]),
    ("updatedAt", .dateTime millis)]

/-- The author decoded. -/
def editorRecord (bio : Option Json) (date : Instant) : Record :=
  ⟨.author, editorId, [.scalar (.text ""), .scalar (.text ""),
    .scalar (.text ""), .scalar (.free bio),
    .reference (some (.expanded ⟨.image, editorPictureId,
      [.scalar (.text ""), .scalar (.text ""), .asset none]⟩)),
    .scalar (.date (some date))]⟩

theorem decode_editor {stored : Value} {bio : Option Json}
    (hbio : Content.decode (.scalar .free) stored = .ok (.scalar (.free bio))) (millis : Int64) :
    Record.decode .author (editor stored millis) =
      .ok (editorRecord bio (Instant.ofMillis millis.toInt)) := by
  have himage : Record.decode .image [("_id", .objectId editorPictureId)] =
      .ok ⟨.image, editorPictureId,
        [.scalar (.text ""), .scalar (.text ""), .asset none]⟩ := rfl
  have hthumbnail := Content.decode_reference
    (v := .document [("_id", .objectId editorPictureId)]) rfl .image
  rw [himage] at hthumbnail
  refine Record.decode_eq_ok_iff_isIn.2 ⟨?_, rfl, ⟨_, rfl, rfl⟩, .cons rfl (.cons rfl
    (.cons rfl (.cons hbio (.cons hthumbnail (.cons rfl .nil)))))⟩
  simp only [editor, List.forall_mem_cons]
  refine ⟨rfl, ?_, ?_, rfl, by simp⟩
  · have hfield : (⟨"bio", "bio", .scalar .free⟩ : Field FieldType) ∈
        RecordType.author.fields := by decide
    rw [RecordType.fault?_field hfield, hbio]
    rfl
  · have hfield : (⟨"thumbnail", "thumbnail", .reference .image⟩ : Field FieldType) ∈
        RecordType.author.fields := by decide
    rw [RecordType.fault?_field hfield, hthumbnail]
    rfl

theorem Record.served_json_determines_editor :
    ∃ r r', Record.decode .author (editor (.double ⟨0x7ff8000000000000⟩) 8210266876800000) = .ok r ∧
      Record.decode .author (editor .null 9000000000000000000) = .ok r' ∧ r.toJson = r'.toJson ∧
        r.Agree (· = ·) r' := by
  have hnan : Content.decode (.scalar .free) (.double ⟨0x7ff8000000000000⟩) =
      .ok (.scalar (.free (some .null))) := rfl
  have hnull : Content.decode (.scalar .free) .null = .ok (.scalar (.free none)) := rfl
  have h := decode_editor hnan 8210266876800000
  have h' := decode_editor hnull 9000000000000000000
  have hjson : (editorRecord (some .null) Instant.latest).toJson =
      (editorRecord none Instant.latest).toJson := rfl
  exact ⟨_, _, h, h', hjson, (Record.served_json_determines h h').1 hjson⟩

end NewsService
