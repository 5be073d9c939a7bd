import NewsService.Proofs.Record.Chain
import NewsService.Record.Json

/-!
# Free content

What editors put into a field without a schema is served as it is stored: the same keys, the same
values, in the same order. There are two exceptions. A document that starts with the key for
embedded JSON text is served as that text. In the place of a reference a document is resolved before
it is read, and then content that spells another value is served as that value, or refused. Main
statement: outside of these two exceptions free content can always be read and is served as it is
stored, in a record of its own and at the end of every chain of references.
-/

namespace NewsService

/-! ## Places in served JSON -/

namespace Json

/-- The value that an object has under a name. -/
def valueAt? (j : Json) (name : String) : Option Json :=
  match j with
  | .object members => members.lookup name
  | _ => none

/-- The value to which a link leads. -/
def linked? (j : Json) (l : Link) : Option Json :=
  match l.place, j.valueAt? l.field.name with
  | none, served => served
  | some i, some (.array items) => items[i]?
  | some _, _ => none

/-- The value at the end of a chain. -/
def follow? (j : Json) (chain : List Link) : Option Json :=
  chain.foldlM linked? j

end Json

/-- A place of free content: a field of the record, or a field of a file stored in the record. -/
inductive FreePlace where
  | own (field : Field FieldType)
  | stored (field : Field FieldType) (inside : Field ScalarType)
  deriving DecidableEq, Repr

/-- The places of free content in the records of a type. -/
def RecordType.freePlaces (type : RecordType) : List FreePlace :=
  type.fields.flatMap fun field =>
    match field.type with
    | .scalar .free => [.own field]
    | .asset asset => (asset.fields.filter fun inside => inside.type == .free).map (.stored field)
    | _ => []

/-- What a document holds at a place. -/
def Document.heldAt? (d : Document) : FreePlace → Option Value
  | .own field => d.lookup field.key
  | .stored field inside =>
    match d.lookup field.key with
    | some (.document file) => file.lookup inside.key
    | _ => none

/-- What is served at a place. -/
def Json.servedAt? (j : Json) : FreePlace → Option Json
  | .own field => j.valueAt? field.name
  | .stored field inside => (j.valueAt? field.name).bind fun file => file.valueAt? inside.name

theorem RecordType.mem_freePlaces {type : RecordType} {place : FreePlace} :
    place ∈ type.freePlaces ↔
      (∃ field ∈ type.fields, field.type = .scalar .free ∧ place = .own field) ∨
      ∃ field ∈ type.fields, ∃ asset, field.type = .asset asset ∧
        ∃ inside ∈ asset.fields, inside.type = .free ∧ place = .stored field inside := by
  rw [freePlaces, List.mem_flatMap]
  constructor
  · rintro ⟨field, hfield, hplace⟩
    cases htype : field.type with
    | scalar kind =>
      cases kind with
      | free =>
        rw [htype] at hplace
        exact Or.inl ⟨field, hfield, htype, List.mem_singleton.1 hplace⟩
      | _ => simp [htype] at hplace
    | asset asset =>
      simp only [htype, List.mem_map, List.mem_filter, beq_iff_eq] at hplace
      obtain ⟨inside, ⟨hinside, hfree⟩, rfl⟩ := hplace
      exact Or.inr ⟨field, hfield, asset, htype, inside, hinside, hfree, rfl⟩
    | _ => simp [htype] at hplace
  · rintro (⟨field, hfield, htype, rfl⟩ |
      ⟨field, hfield, asset, htype, inside, hinside, hfree, rfl⟩)
    · refine ⟨field, hfield, ?_⟩
      rw [htype]
      exact List.mem_singleton_self _
    · refine ⟨field, hfield, ?_⟩
      simp only [htype, List.mem_map, List.mem_filter, beq_iff_eq]
      exact ⟨inside, ⟨hinside, hfree⟩, rfl⟩

example : (RecordType.image.freePlaces : List FreePlace) =
    [.stored ⟨"image", "image", .asset .image⟩ ⟨"resizedTargets", "resized_targets", .free⟩] := by
  decide

/-! ## Content as it is stored -/

namespace Value

mutual

/-- The JSON value of the same shape as a value of types that JSON shares with the store. -/
def verbatim? : Value → Option Json
  | .null => some .null
  | .boolean b => some (.bool b)
  | .int32 n => some (.integer n.toInt)
  | .int64 n => some (.integer n.toInt)
  | .string s => some (.string s)
  | .array items => (verbatimItems? items).map .array
  | .document fields => (verbatimMembers? fields).map .object
  | _ => none

/-- The JSON values of the same shape as the items of an array. -/
def verbatimItems? : List Value → Option (List Json)
  | [] => some []
  | v :: rest => do
    let item ← verbatim? v
    let items ← verbatimItems? rest
    return item :: items

/-- The JSON values of the same shape as the fields of a document, under the same keys. -/
def verbatimMembers? : List (String × Value) → Option (List (String × Json))
  | [] => some []
  | (key, v) :: rest => do
    let value ← verbatim? v
    let members ← verbatimMembers? rest
    return (key, value) :: members

end

mutual

/-- Whether no document in a value starts with the key for embedded JSON text. -/
def isTextless : Value → Bool
  | .array items => textlessItems items
  | .document fields =>
    (fields.head?.all fun entry => entry.1 != Json.embeddedKey) && textlessFields fields
  | _ => true

/-- Whether no document in the items starts with the key for embedded JSON text. -/
def textlessItems : List Value → Bool
  | [] => true
  | v :: rest => isTextless v && textlessItems rest

/-- Whether no document in the fields starts with the key for embedded JSON text. -/
def textlessFields : List (String × Value) → Bool
  | [] => true
  | (_, v) :: rest => isTextless v && textlessFields rest

end

theorem documentJson?_of_textless {fields : Document}
    (h : fields.head?.all (fun entry => entry.1 != Json.embeddedKey) = true)
    (members : Option (List (String × Json))) :
    documentJson? fields members = members.map .object := by
  cases fields with
  | nil => rfl
  | cons entry rest =>
    obtain ⟨key, v⟩ := entry
    have hkey : key ≠ Json.embeddedKey := by simpa using h
    rw [documentJson?.eq_def]
    exact if_neg hkey

mutual

theorem freeJson?_of_verbatim? :
    ∀ (v : Value) (x : Json), v.verbatim? = some x → v.isTextless = true → v.freeJson? = some x
  | .array items, x, hx, htext => by
    rw [verbatim?, Option.map_eq_some_iff] at hx
    obtain ⟨xs, hxs, rfl⟩ := hx
    rw [freeJson?, freeItems?_of_verbatimItems? items xs hxs htext]
    rfl
  | .document fields, x, hx, htext => by
    rw [verbatim?, Option.map_eq_some_iff] at hx
    obtain ⟨xs, hxs, rfl⟩ := hx
    rw [isTextless, Bool.and_eq_true] at htext
    rw [freeJson?, documentJson?_of_textless htext.1,
      freeMembers?_of_verbatimMembers? fields xs hxs htext.2]
    rfl
  | .null, x, hx, _ | .boolean _, x, hx, _ | .int32 _, x, hx, _ | .int64 _, x, hx, _
  | .string _, x, hx, _ => by
    obtain rfl := Option.some.inj hx
    rfl
  | .double _, x, hx, _ | .objectId _, x, hx, _ | .dateTime _, x, hx, _ | .binary _ _, x, hx, _
  | .undefined, x, hx, _ | .minKey, x, hx, _ | .maxKey, x, hx, _ | .symbol _, x, hx, _
  | .code _, x, hx, _ | .scopedCode _ _, x, hx, _ | .regex _ _, x, hx, _
  | .timestamp _ _, x, hx, _ | .decimal128 _, x, hx, _ | .pointer _ _, x, hx, _ => by
    cases hx

theorem freeItems?_of_verbatimItems? :
    ∀ (items : List Value) (xs : List Json), verbatimItems? items = some xs →
      textlessItems items = true → freeItems? items = some xs
  | [], xs, hxs, _ => by
    obtain rfl := Option.some.inj hxs
    rfl
  | v :: rest, xs, hxs, htext => by
    rw [verbatimItems?] at hxs
    obtain ⟨x, hx, hxs⟩ := Option.bind_eq_some_iff.1 hxs
    obtain ⟨items, hitems, hxs⟩ := Option.bind_eq_some_iff.1 hxs
    obtain rfl := Option.some.inj hxs
    rw [textlessItems, Bool.and_eq_true] at htext
    rw [freeItems?, freeJson?_of_verbatim? v x hx htext.1,
      freeItems?_of_verbatimItems? rest items hitems htext.2]
    rfl

theorem freeMembers?_of_verbatimMembers? :
    ∀ (fields : List (String × Value)) (xs : List (String × Json)),
      verbatimMembers? fields = some xs → textlessFields fields = true →
        freeMembers? fields = some xs
  | [], xs, hxs, _ => by
    obtain rfl := Option.some.inj hxs
    rfl
  | (key, v) :: rest, xs, hxs, htext => by
    rw [verbatimMembers?] at hxs
    obtain ⟨x, hx, hxs⟩ := Option.bind_eq_some_iff.1 hxs
    obtain ⟨members, hmembers, hxs⟩ := Option.bind_eq_some_iff.1 hxs
    obtain rfl := Option.some.inj hxs
    rw [textlessFields, Bool.and_eq_true] at htext
    rw [freeMembers?, freeJson?_of_verbatim? v x hx htext.1,
      freeMembers?_of_verbatimMembers? rest members hmembers htext.2]
    rfl

end

end Value

theorem Scalar.read_free {j : Value} {x : Json} (hx : j.verbatim? = some x) (hnull : j ≠ .null)
    (htext : j.isTextless = true) : Scalar.read .free j = .ok (.free (some x)) := by
  have hfree := Value.freeJson?_of_verbatim? j x hx htext
  rw [Scalar.read, hfree]
  · rfl
  · exact hnull

/-! ## What is served under a name -/

variable {type target : RecordType} {d : Document} {r : Record} {l : Link} {place : FreePlace}

theorem RecordType.nodup_names (type : RecordType) :
    ("id" :: type.fields.map Field.name).Nodup := by
  cases type <;> decide

theorem AssetType.nodup_names (type : AssetType) : (type.fields.map Field.name).Nodup := by
  cases type <;> decide

theorem map_fst_written {α β : Type} {fields : List (Field α)} {values : List β}
    (write : α → β → Json) (hlength : fields.length = values.length) :
    ((fields.zip values).map fun p => (p.1.name, write p.1.type p.2)).map Prod.fst =
      fields.map Field.name := by
  rw [List.map_map]
  calc (fields.zip values).map (fun p => p.1.name)
      = ((fields.zip values).map Prod.fst).map Field.name := by
        rw [List.map_map]
        rfl
    _ = fields.map Field.name := by rw [List.map_fst_zip (Nat.le_of_eq hlength)]

/-- When names are distinct, what is written for a field is found under its name. -/
theorem lookup_written {α β : Type} {fields : List (Field α)} {values : List β}
    (write : α → β → Json) (hlength : fields.length = values.length)
    (hnames : (fields.map Field.name).Nodup) {field : Field α} {value : β}
    (h : (field, value) ∈ fields.zip values) :
    ((fields.zip values).map fun p => (p.1.name, write p.1.type p.2)).lookup field.name =
      some (write field.type value) := by
  have hdistinct := map_fst_written write hlength ▸ hnames
  rw [Document.lookup_eq_some_iff_mem hdistinct]
  exact List.mem_map.2 ⟨_, h, rfl⟩

theorem Content.members_eq (fields : List (Field FieldType)) (contents : List Content) :
    Content.members fields contents =
      (fields.zip contents).map fun p => (p.1.name, Content.toJson p.1.type p.2) := by
  induction fields generalizing contents with
  | nil => simp [Content.members]
  | cons field fields ih =>
    cases contents with
    | nil => simp [Content.members]
    | cons content rest => rw [Content.members, ih, List.zip_cons_cons, List.map_cons]

/-- What a stored file has for a field is served under the name of the field. -/
theorem Content.valueAt_toJson_asset {asset : AssetType} {file : Document} {content : Content}
    (h : Content.decode (.asset asset) (.document file) = .ok content) {inside : Field ScalarType}
    (hinside : inside ∈ asset.fields) {v : Value} (hv : file.lookup inside.key = some v)
    {scalar : Scalar} (hread : Scalar.read inside.type v = .ok scalar) :
    (content.toJson (.asset asset)).valueAt? inside.name = some scalar.toJson := by
  rw [Content.decode] at h
  · obtain ⟨scalars?, hscalars?, rfl⟩ := DecodeError.map_eq_ok.1 h
    obtain ⟨-, scalars, rfl, hscalars⟩ := AssetType.read_eq_ok.1 hscalars?
    obtain ⟨i, hi, rfl⟩ := List.getElem_of_mem hinside
    have hi' : i < scalars.length := hscalars.length_eq ▸ hi
    have hscalar : AssetType.readField asset.fields[i].type (file.lookup asset.fields[i].key) =
        .ok scalars[i] := hscalars.get hi hi'
    rw [hv, AssetType.readField, hread] at hscalar
    obtain rfl := Except.ok.inj hscalar
    have hmem : (asset.fields[i], scalars[i]) ∈ asset.fields.zip scalars := by
      refine List.mem_iff_getElem.2 ⟨i, ?_, List.getElem_zip⟩
      rw [List.length_zip]
      omega
    rw [Content.toJson, Json.valueAt?, List.zip_map]
    exact lookup_written (fun _ => Scalar.toJson) hscalars.length_eq
      (AssetType.nodup_names asset) hmem
  · intro hnull
    cases hnull

theorem Related.listToJson_eq (refs : List Related) :
    Related.listToJson refs = refs.map Related.toJson := by
  induction refs with
  | nil => rfl
  | cons ref rest ih => rw [Related.listToJson, ih, List.map_cons]

namespace Record

/-- What is written for a field of a record is found under its name, next to the identifier. -/
theorem lookup_members {contents : List Content} (hlength : type.fields.length = contents.length)
    (j : Json) {field : Field FieldType} {content : Content}
    (hmem : (field, content) ∈ type.fields.zip contents) :
    (("id", j) :: Content.members type.fields contents).lookup field.name =
      some (content.toJson field.type) := by
  have hnames := List.nodup_cons.1 (RecordType.nodup_names type)
  have hid : field.name ≠ "id" := by
    intro heq
    exact hnames.1 (heq ▸ List.mem_map_of_mem (List.of_mem_zip hmem).1)
  rw [List.lookup_cons, beq_false_of_ne hid, Content.members_eq]
  exact lookup_written (fun type content => Content.toJson type content) hlength hnames.2 hmem

/-- What a record has for a field is served under the name of the field. -/
theorem valueAt_toJson (h : decode type d = .ok r) {field : Field FieldType} {content : Content}
    (hcontent : r.content? field = some content) :
    r.toJson.valueAt? field.name = some (content.toJson field.type) := by
  have hin := (decode_eq_ok_iff_isIn.1 h).2
  rw [content?, hin.type_eq] at hcontent
  obtain ⟨before, after, hzip, -⟩ := List.lookup_eq_some_iff.1 hcontent
  have hmem : (field, content) ∈ type.fields.zip r.contents := by simp [hzip]
  obtain ⟨type', id, contents⟩ := r
  obtain rfl : type' = type := hin.type_eq
  rw [toJson, Json.valueAt?]
  exact lookup_members hin.contents.length_eq _ hmem

theorem linked_toJson (h : decode type d = .ok r) {inner : Record}
    (hinner : r.linked? l = some inner) : r.toJson.linked? l = some inner.toJson := by
  obtain ⟨ref, href, hrecord⟩ := Option.bind_eq_some_iff.1 hinner
  obtain rfl : ref = .expanded inner := by
    cases ref with
    | id id => cases hrecord
    | expanded found => rw [Option.some.inj hrecord]
  rw [referenceAt?] at href
  rw [Json.linked?]
  cases hcontent : r.content? l.field with
  | none => cases hplace : l.place <;> simp [hplace, hcontent] at href
  | some content =>
    rw [hcontent] at href
    rw [valueAt_toJson h hcontent]
    cases hplace : l.place with
    | none =>
      rw [hplace] at href
      cases content with
      | reference found =>
        obtain rfl : found = some (.expanded inner) := href
        rw [Content.toJson, Related.toJson]
      | _ => cases href
    | some i =>
      rw [hplace] at href
      cases content with
      | references refs =>
        have href : refs[i]? = some (.expanded inner) := href
        rw [Content.toJson, Related.listToJson_eq]
        simp only [List.getElem?_map, href, Option.map_some, Related.toJson]
      | _ => cases href

/-- The record at the end of a chain is served there. -/
theorem follow_toJson {chain : List Link} {inner : Record} (h : decode type d = .ok r)
    (hinner : r.follow? chain = some inner) : r.toJson.follow? chain = some inner.toJson := by
  induction chain generalizing type d r with
  | nil =>
    obtain rfl := Option.some.inj hinner
    rfl
  | cons l rest ih =>
    obtain ⟨next, hnext, hinner⟩ := Option.bind_eq_some_iff.1 hinner
    obtain ⟨target, v, w, -, -, -, hdecode⟩ := exists_of_linked h hnext
    rw [Json.follow?, List.foldlM_cons, linked_toJson h hnext]
    exact ih hdecode hinner

/-- What is read at a place of free content is served there. -/
theorem servedAt_of_decode (h : decode type d = .ok r) (hplace : place ∈ type.freePlaces)
    {j : Value} {x : Json} (hheld : d.heldAt? place = some j)
    (hread : Scalar.read .free j = .ok (.free (some x))) : r.toJson.servedAt? place = some x := by
  have hnull : j ≠ .null := by
    rintro rfl
    cases hread
  rcases RecordType.mem_freePlaces.1 hplace with ⟨field, hfield, htype, rfl⟩ |
    ⟨field, hfield, asset, htype, inside, hinside, hfree, rfl⟩
  · obtain ⟨content, hcontent, hdecode⟩ := content_of_decode h hfield
    have hstored : d.lookup field.key = some j := hheld
    rw [hstored, readField, htype, Content.decode, hread] at hdecode
    · obtain rfl := Except.ok.inj hdecode
      rw [Json.servedAt?, valueAt_toJson h hcontent]
      rfl
    · exact hnull
  · obtain ⟨content, hcontent, hdecode⟩ := content_of_decode h hfield
    rw [Document.heldAt?] at hheld
    cases hstored : d.lookup field.key with
    | none => simp [hstored] at hheld
    | some stored =>
      rw [hstored] at hheld hdecode
      cases stored with
      | document file =>
        have hheld : file.lookup inside.key = some j := hheld
        rw [readField, htype] at hdecode
        rw [← hfree] at hread
        rw [Json.servedAt?, valueAt_toJson h hcontent, htype, Option.bind_some]
        exact Content.valueAt_toJson_asset hdecode hinside hheld hread
      | _ => cases hheld

end Record

/-! ## Content inside other records -/

/-- Whether a document still has a place of free content once it has been resolved: a stored file
that holds the content has no reserved keys. -/
def Document.UnreservedAt (d : Document) : FreePlace → Prop
  | .own _ => True
  | .stored field _ => ∀ file, d.lookup field.key = some (.document file) →
    ∀ entry ∈ file, ReservedKey.ofName? entry.1 = none

/-- What a resolved document holds at a place was resolved. -/
theorem Document.exists_heldAt_of_resolve {w : Document} {j : Value}
    (hw : Value.resolveFields d = .ok (.document w)) (hfile : d.UnreservedAt place)
    (hheld : d.heldAt? place = some j) : ∃ j', w.heldAt? place = some j' ∧ j.resolve = .ok j' := by
  have hentries := Value.resolveFields_eq_document.1 hw
  cases place with
  | own field => exact Value.exists_lookup_of_resolvesTo hentries hheld
  | stored field inside =>
    rw [heldAt?] at hheld
    cases hstored : d.lookup field.key with
    | none => simp [hstored] at hheld
    | some stored =>
      rw [hstored] at hheld
      cases stored with
      | document file =>
        obtain ⟨v, hv, hresolve⟩ := Value.exists_lookup_of_resolvesTo hentries hstored
        rw [Value.resolve] at hresolve
        obtain ⟨file', rfl⟩ := Value.exists_document_of_resolve (hfile file hstored) hresolve
        rw [heldAt?, hv]
        exact Value.exists_lookup_of_resolvesTo (Value.resolveFields_eq_document.1 hresolve) hheld
      | _ => cases hheld

/-- Inside another record, what is served is the content after it has been resolved. -/
theorem Record.servedAt_of_follow {chain : List Link} {inner : Document} {j : Value}
    (hne : chain ≠ []) (h : decode type d = .ok r) (htype : type.follow? chain = some target)
    (hinner : d.follow? chain = some inner) (hplace : place ∈ target.freePlaces)
    (hfile : inner.UnreservedAt place) (hheld : inner.heldAt? place = some j) :
    ∃ j', j.resolve = .ok j' ∧ ∀ x, Scalar.read .free j' = .ok (.free (some x)) →
      (r.toJson.follow? chain).bind (Json.servedAt? · place) = some x := by
  obtain ⟨w, r', hw, hr', hfollow⟩ := exists_follow hne h htype hinner
  obtain ⟨j', hj', hresolve⟩ := Document.exists_heldAt_of_resolve hw hfile hheld
  refine ⟨j', hresolve, fun x hread => ?_⟩
  rw [follow_toJson h hfollow, Option.bind_some]
  exact servedAt_of_decode hr' hplace hj' hread

/-- Free content that hides no JSON text can always be read, and is served as it is stored: in a
record of its own, and inside another record if it spells nothing but itself. -/
theorem free_content_verbatim {chain : List Link} {inner : Document} {j : Value} {x : Json}
    (htype : type.follow? chain = some target) (hinner : d.follow? chain = some inner)
    (hplace : place ∈ target.freePlaces) (hheld : inner.heldAt? place = some j)
    (hx : j.verbatim? = some x) (hnull : j ≠ .null) (htext : j.isTextless = true)
    (hspells : chain = [] ∨ inner.UnreservedAt place ∧ j.resolve = .ok j) :
    Scalar.read .free j = .ok (.free (some x)) ∧
    ∀ r, Record.decode type d = .ok r →
      (r.toJson.follow? chain).bind (Json.servedAt? · place) = some x := by
  have hread := Scalar.read_free hx hnull htext
  refine ⟨hread, fun r hr => ?_⟩
  by_cases hchain : chain = []
  · subst hchain
    obtain rfl := Option.some.inj htype
    obtain rfl := Option.some.inj hinner
    exact Record.servedAt_of_decode hr hplace hheld hread
  · obtain ⟨hfile, hj⟩ := hspells.resolve_left hchain
    obtain ⟨j', hj', hserved⟩ :=
      Record.servedAt_of_follow hchain hr htype hinner hplace hfile hheld
    obtain rfl := Except.ok.inj (hj.symm.trans hj')
    exact hserved x hread

/-- The place of the description of a topic. -/
def description : FreePlace :=
  .own ⟨"description", "description", .scalar .free⟩

/-- The way from a post to its topic. -/
def toTopic : List Link :=
  [⟨⟨"topics", "topic", .reference .topic⟩, none⟩]

/-- A topic with a description. -/
def described (content : Value) : Document :=
  [(idKey, .objectId ⟨List.replicate 12 8, rfl⟩), ("description", content)]

/-- A post with such a topic in place. -/
def covering (content : Value) : Document :=
  [(idKey, .objectId ⟨List.replicate 12 9, rfl⟩), ("topics", .document (described content))]

theorem exists_decode_described {content : Value} {x : Json}
    (h : Scalar.read .free content = .ok (.free (some x))) :
    ∃ r, Record.decode .topic (described content) = .ok r := by
  have hfield : (⟨"description", "description", .scalar .free⟩ : Field FieldType) ∈
      RecordType.topic.fields := by decide
  refine Record.exists_decode_iff.2 ⟨⟨_, List.mem_cons_self⟩, ?_⟩
  simp only [described, List.forall_mem_cons]
  refine ⟨rfl, ?_, by simp⟩
  rw [RecordType.fault?_field hfield, Content.decode, h]
  · rfl
  · rintro rfl
    cases h

theorem resolve_described {content resolved : Value} (h : content.resolve = .ok resolved) :
    (Value.document (described content)).resolve = .ok (.document (described resolved)) :=
  Value.resolveFields_eq_document.2 (.cons ⟨rfl, rfl, rfl⟩ (.cons ⟨rfl, rfl, h⟩ .nil))

theorem exists_decode_covering {content resolved : Value} {x : Json}
    (hresolve : content.resolve = .ok resolved)
    (hread : Scalar.read .free resolved = .ok (.free (some x))) :
    ∃ r, Record.decode .post (covering content) = .ok r := by
  have hfield : (⟨"topics", "topic", .reference .topic⟩ : Field FieldType) ∈
      RecordType.post.fields := by decide
  obtain ⟨topic, htopic⟩ := exists_decode_described hread
  refine Record.exists_decode_iff.2 ⟨⟨_, List.mem_cons_self⟩, ?_⟩
  simp only [covering, List.forall_mem_cons]
  refine ⟨rfl, ?_, by simp⟩
  rw [RecordType.fault?_field hfield, Content.decode_reference (resolve_described hresolve), htopic]
  rfl

/-- A summary of a topic, as editors store it. -/
def summary : Value :=
  .document [("entities", .int32 2), ("blocks", .array
    [.string "Polls close at eight", .boolean true, .null])]

theorem free_content_verbatim_summary :
    ∃ r, Record.decode .post (covering summary) = .ok r ∧
      (r.toJson.follow? toTopic).bind (Json.servedAt? · description) =
        some (.object [("entities", .integer 2), ("blocks", .array
          [.string "Polls close at eight", .bool true, .null])]) := by
  have htype : RecordType.post.follow? toTopic = some .topic := by decide
  have hplace : description ∈ RecordType.topic.freePlaces := by decide
  have hinner : (covering summary).follow? toTopic = some (described summary) := rfl
  have hresolve : summary.resolve = .ok summary := rfl
  obtain ⟨hread, hserved⟩ := free_content_verbatim htype hinner hplace rfl rfl nofun rfl
    (Or.inr ⟨trivial, hresolve⟩)
  obtain ⟨r, hr⟩ := exists_decode_covering hresolve hread
  exact ⟨r, hr, hserved r hr⟩

/-- A number in its extended spelling, which is a document like any other. -/
def spelledNumber : Value :=
  .document [("$numberInt", .string "5")]

theorem free_content_respelled :
    spelledNumber.verbatim? = some (.object [("$numberInt", .string "5")]) ∧
    spelledNumber.isTextless = true ∧
    (∃ r, Record.decode .topic (described spelledNumber) = .ok r ∧
      r.toJson.servedAt? description = some (.object [("$numberInt", .string "5")])) ∧
    ∃ r, Record.decode .post (covering spelledNumber) = .ok r ∧
      (r.toJson.follow? toTopic).bind (Json.servedAt? · description) = some (.integer 5) := by
  have htype : RecordType.post.follow? toTopic = some .topic := by decide
  have hplace : description ∈ RecordType.topic.freePlaces := by decide
  have hinner : (covering spelledNumber).follow? toTopic = some (described spelledNumber) := rfl
  have hread : Scalar.read .free spelledNumber =
      .ok (.free (some (.object [("$numberInt", .string "5")]))) :=
    Scalar.read_free rfl nofun rfl
  have hresolve : spelledNumber.resolve = .ok (.int32 5) := rfl
  have hnumber : Scalar.read .free (.int32 5) = .ok (.free (some (.integer 5))) := rfl
  obtain ⟨topic, htopic⟩ := exists_decode_described hread
  obtain ⟨post, hpost⟩ := exists_decode_covering hresolve hnumber
  have hne : toTopic ≠ [] := nofun
  obtain ⟨j, hj, hserved⟩ :=
    Record.servedAt_of_follow hne hpost htype hinner hplace trivial rfl
  obtain rfl := Except.ok.inj (hresolve.symm.trans hj)
  exact ⟨rfl, rfl, ⟨topic, htopic, Record.servedAt_of_decode htopic hplace rfl hread⟩,
    post, hpost, hserved _ hnumber⟩

end NewsService
