import Mathlib.Data.List.Nodup
import NewsService.Proofs.ObjectId.Text
import NewsService.Proofs.Record.Replacement

/-!
# Expansion of references

A reference can be read as an identifier or as the record in its place. Main statement: which of the
two it is shows in that reference alone, at any depth of a record, and in what is served only at its
place.
-/

namespace NewsService

variable {type target : RecordType} {d : Document} {r : Record} {l : Link} {ref : Related}

/-! ## Served JSON -/

theorem RecordType.eq_of_name_eq {field other : Field FieldType} (hfield : field ∈ type.fields)
    (hother : other ∈ type.fields) (h : field.name = other.name) : field = other :=
  List.inj_on_of_nodup_map (List.nodup_cons.1 type.nodup_names).2 hfield hother h

theorem zip_zip_map {α β : Type} (f : α × β → β) (as : List α) (bs : List β) :
    as.zip ((as.zip bs).map f) = (as.zip bs).map fun pair => (pair.1, f pair) := by
  induction as generalizing bs with
  | nil => rfl
  | cons a as ih =>
    cases bs with
    | nil => rfl
    | cons b bs => rw [List.zip_cons_cons, List.map_cons, List.map_cons, List.zip_cons_cons, ih]

namespace Record

variable {chain : List Link} {last : Link} {inner : Record} {old : Related}

theorem toJson_setContent (htype : r.type = type) {field : Field FieldType}
    (hfield : field ∈ type.fields) (content : Content) :
    (r.setContent field content).toJson =
      r.toJson.setValue field.name (content.toJson field.type) := by
  obtain ⟨type', id, contents⟩ := r
  obtain rfl : type' = type := htype
  have hid : "id" ≠ field.name := by
    intro heq
    exact (List.nodup_cons.1 type'.nodup_names).1 (heq ▸ List.mem_map_of_mem hfield)
  unfold setContent
  -- both sides change the members one by one: by field here and by name there
  rw [toJson, toJson, Json.setValue, Content.members_eq, Content.members_eq, zip_zip_map,
    List.map_cons, if_neg hid, List.map_map, List.map_map]
  refine congrArg (fun members => Json.object (("id", .string id.text) :: members)) ?_
  refine List.map_congr_left fun entry hentry => ?_
  have hother := (List.of_mem_zip hentry).1
  simp only [Function.comp_apply]
  by_cases hsame : entry.1 = field
  · rw [if_pos hsame, hsame, if_pos rfl]
  · have hname : entry.1.name ≠ field.name := by
      intro hname
      exact hsame (RecordType.eq_of_name_eq hother hfield hname)
    rw [if_neg hsame, if_neg hname]

theorem toJson_setReference (h : decode type d = .ok r) (hold : r.referenceAt? l = some old)
    (ref : Related) :
    (r.setReference l ref).toJson = r.toJson.setReference l ref.toJson := by
  have htype := (decode_eq_ok_iff_isIn.1 h).2.type_eq
  unfold referenceAt? at hold
  unfold setReference Json.setReference
  cases hcontent : r.content? l.field with
  | none => cases hplace : l.place <;> simp [hplace, hcontent] at hold
  | some content =>
    have hfield := mem_of_content hcontent
    rw [htype] at hfield
    rw [hcontent] at hold
    rw [valueAt_toJson h hcontent]
    cases hplace : l.place with
    | none => exact toJson_setContent htype hfield (.reference (some ref))
    | some i =>
      rw [hplace] at hold
      cases content with
      | references refs =>
        have hset : Content.toJson l.field.type (.references (refs.set i ref)) =
            .array ((Related.listToJson refs).set i ref.toJson) := by
          rw [Content.toJson, Related.listToJson_eq, Related.listToJson_eq, List.map_set]
        have hlist : Content.toJson l.field.type (.references refs) =
            .array (Related.listToJson refs) := by
          rw [Content.toJson]
        rw [hlist]
        dsimp only
        rw [← hset]
        exact toJson_setContent htype hfield (.references (refs.set i ref))
      | _ => cases hold

/-- What is served for a record in which a reference is replaced differs at that place only. -/
theorem toJson_replaceAt (h : decode type d = .ok r) (hinner : r.follow? chain = some inner)
    (hold : inner.referenceAt? last = some old) (ref : Related) :
    (r.replaceAt chain last ref).toJson = r.toJson.replaceAt chain last ref.toJson := by
  induction chain generalizing type d r with
  | nil =>
    obtain rfl := Option.some.inj hinner
    exact toJson_setReference h hold ref
  | cons l rest ih =>
    obtain ⟨r', hr', hinner⟩ := Option.bind_eq_some_iff.1 hinner
    obtain ⟨target, v, w, -, -, -, h'⟩ := exists_of_linked h hr'
    unfold replaceAt Json.replaceAt
    rw [hr', linked_toJson h hr']
    dsimp only
    rw [← ih h' hinner]
    exact toJson_setReference h (referenceAt_of_linked hr') _

/-! ## The other references -/

theorem content_setContent (r : Record) (field other : Field FieldType) (content : Content) :
    (r.setContent field content).content? other =
      if other = field then (r.content? field).map fun _ => content else r.content? other := by
  unfold content? setContent
  dsimp only
  rw [zip_zip_map]
  generalize r.type.fields.zip r.contents = entries
  induction entries with
  | nil => simp
  | cons entry rest ih =>
    obtain ⟨first, held⟩ := entry
    rw [List.map_cons, List.lookup_cons, List.lookup_cons, List.lookup_cons, ih]
    by_cases hother : other = first
    · subst hother
      by_cases hfield : other = field
      · simp [hfield]
      · simp [hfield]
    · rw [beq_false_of_ne hother]
      by_cases hfield : other = field
      · have hfirst : ¬ field = first := fun hfirst => hother (hfield.trans hfirst)
        simp [hfield, beq_false_of_ne hfirst]
      · simp [hfield]

/-- What a reference that is there makes of its content. -/
theorem content_of_referenceAt (h : r.referenceAt? l = some old) :
    (l.place = none ∧ r.content? l.field = some (.reference (some old))) ∨
      ∃ i refs, l.place = some i ∧ r.content? l.field = some (.references refs) ∧
        refs[i]? = some old := by
  unfold referenceAt? at h
  split at h
  · next found hplace hcontent =>
    rw [h] at hcontent
    exact Or.inl ⟨hplace, hcontent⟩
  · next i refs hplace hcontent => exact Or.inr ⟨i, refs, hplace, hcontent, h⟩
  · cases h

theorem referenceAt_setReference (h : r.referenceAt? l = some old) (ref : Related) :
    (r.setReference l ref).referenceAt? l = some ref := by
  unfold setReference
  rcases content_of_referenceAt h with ⟨hplace, hcontent⟩ | ⟨i, refs, hplace, hcontent, hi⟩
  · rw [hplace]
    dsimp only
    unfold referenceAt?
    rw [hplace, content_setContent, if_pos rfl, hcontent]
    rfl
  · rw [hplace, hcontent]
    dsimp only
    unfold referenceAt?
    rw [hplace, content_setContent, if_pos rfl, hcontent]
    exact List.getElem?_set_self (List.getElem?_eq_some_iff.1 hi).1

theorem referenceAt_setReference_of_ne (h : r.referenceAt? l = some old) {other : Link}
    (hne : other ≠ l) (ref : Related) :
    (r.setReference l ref).referenceAt? other = r.referenceAt? other := by
  have hplaces : other.field = l.field → other.place ≠ l.place := by
    intro hfield hplace
    exact hne (by cases other; cases l; simp_all)
  by_cases hfield : other.field = l.field
  · have hplaces := hplaces hfield
    unfold setReference
    rcases content_of_referenceAt h with ⟨hplace, hcontent⟩ | ⟨i, refs, hplace, hcontent, hi⟩
    · rw [hplace] at hplaces ⊢
      obtain ⟨j, hj⟩ := Option.ne_none_iff_exists'.1 hplaces
      dsimp only
      unfold referenceAt?
      rw [content_setContent, if_pos hfield, hfield, hcontent, hj]
      rfl
    · rw [hplace, hcontent]
      rw [hplace] at hplaces
      dsimp only
      unfold referenceAt?
      rw [content_setContent, if_pos hfield, hfield, hcontent]
      cases hj : other.place with
      | none => rfl
      | some j =>
        rw [hj] at hplaces
        have hij : i ≠ j := fun hij => hplaces (congrArg some hij.symm)
        exact List.getElem?_set_ne hij
  · have hkeep : ∀ content, (r.setContent l.field content).content? other.field =
        r.content? other.field := by
      intro content
      rw [content_setContent, if_neg hfield]
    unfold setReference referenceAt?
    rcases content_of_referenceAt h with ⟨hplace, hcontent⟩ | ⟨i, refs, hplace, hcontent, hi⟩
    · rw [hplace]
      dsimp only
      rw [hkeep]
    · rw [hplace, hcontent]
      dsimp only
      rw [hkeep]

theorem linked_setReference (h : r.referenceAt? l = some old) (new : Record) :
    (r.setReference l (.expanded new)).linked? l = some new := by
  unfold linked?
  rw [referenceAt_setReference h]
  rfl

theorem linked_setReference_of_ne (h : r.referenceAt? l = some old) {other : Link}
    (hne : other ≠ l) (ref : Related) : (r.setReference l ref).linked? other = r.linked? other := by
  unfold linked?
  rw [referenceAt_setReference_of_ne h hne]

/-- The reference at the end of a path, which is a chain with one more link. -/
def target? (r : Record) (chain : List Link) (last : Link) : Option Related :=
  (r.follow? chain).bind fun inner => inner.referenceAt? last

theorem target_cons (r : Record) (l : Link) (chain : List Link) (last : Link) :
    r.target? (l :: chain) last = (r.linked? l).bind fun inner => inner.target? chain last := by
  unfold target? follow?
  rw [List.foldlM_cons]
  cases r.linked? l <;> rfl

theorem target_eq_some :
    r.target? chain last = some old ↔
      ∃ inner, r.follow? chain = some inner ∧ inner.referenceAt? last = some old :=
  Option.bind_eq_some_iff

theorem target_replaceAt (h : r.target? chain last = some old) (ref : Related) :
    (r.replaceAt chain last ref).target? chain last = some ref := by
  induction chain generalizing r with
  | nil => exact referenceAt_setReference h ref
  | cons l rest ih =>
    rw [target_cons] at h
    obtain ⟨r', hr', h⟩ := Option.bind_eq_some_iff.1 h
    rw [target_cons, replaceAt, hr']
    dsimp only
    rw [linked_setReference (referenceAt_of_linked hr')]
    exact ih h

end Record

/-- Whether two paths part before one of them ends. -/
inductive PartWays : List Link → List Link → Prop
  | here {l l' : Link} {rest rest' : List Link} (h : l ≠ l') : PartWays (l :: rest) (l' :: rest')
  | later {l : Link} {rest rest' : List Link} (h : PartWays rest rest') :
      PartWays (l :: rest) (l :: rest')

namespace Record

variable {chain : List Link} {last : Link} {inner : Record} {old : Related}

/-- A reference keeps its place and its value when one on another path is replaced. -/
theorem target_replaceAt_of_partWays (h : r.target? chain last = some old) (ref : Related)
    {chain' : List Link} {last' : Link} (hparts : PartWays (chain ++ [last]) (chain' ++ [last'])) :
    (r.replaceAt chain last ref).target? chain' last' = r.target? chain' last' := by
  induction chain generalizing r chain' with
  | nil =>
    cases chain' with
    | nil =>
      cases hparts with
      | here hne => exact referenceAt_setReference_of_ne h hne.symm ref
      | later hparts => cases hparts
    | cons l' rest' =>
      cases hparts with
      | here hne =>
        rw [target_cons, target_cons, replaceAt, linked_setReference_of_ne h hne.symm]
      | later hparts => cases hparts
  | cons l rest ih =>
    rw [target_cons] at h
    obtain ⟨r', hr', h⟩ := Option.bind_eq_some_iff.1 h
    have hl := referenceAt_of_linked hr'
    rw [replaceAt, hr']
    dsimp only
    cases chain' with
    | nil =>
      cases hparts with
      | here hne => exact referenceAt_setReference_of_ne hl hne.symm _
      | later hparts => cases rest <;> cases hparts
    | cons l' rest' =>
      cases hparts with
      | here hne => rw [target_cons, target_cons, linked_setReference_of_ne hl hne.symm]
      | later hparts =>
        rw [target_cons, target_cons, linked_setReference hl, hr']
        exact ih h hparts

end Record

/-! ## Expanding and collapsing -/

/-- A record can be told by its identifier, or by the text of it. -/
theorem Related.decode_id {id : ObjectId} {v : Value}
    (h : v ∈ [Value.objectId id, .string id.text]) (target : RecordType) :
    Related.decode target v = .ok (.id id) := by
  rcases List.mem_pair.1 h with rfl | rfl
  · rw [decode_of_resolved rfl, ofResolved]
  · rw [decode_of_resolved rfl, ofResolved, ObjectId.ofText_text]

/-- Every reference in a decoded record, at any depth, was read from a value in the document. When
it is a record, and that value is replaced by the identifier of the record, the document is read as
before but for this reference, which is the identifier. When it is an identifier, and the value is
replaced by one that is read as a record, this reference is the record. References on other paths
stay as they are, and what is served differs at that place only. -/
theorem expansion_invisible {chain : List Link} {last : Link} {old : Related}
    (h : Record.decode type d = .ok r) (hold : r.target? chain last = some old) :
    ∃ innerType target inner v, type.follow? chain = some innerType ∧
      innerType.linked? last = some target ∧ d.follow? chain = some inner ∧
      inner.referenceAt? last = some v ∧ Related.decode target v = .ok old ∧
      (∀ record, old = .expanded record →
        ∀ w ∈ [Value.objectId record.id, .string record.id.text],
          Record.decode type (d.replaceAt chain last w) =
            .ok (r.replaceAt chain last (.id record.id))) ∧
      (∀ id, old = .id id → ∀ w record, Related.decode target w = .ok (.expanded record) →
        Record.decode type (d.replaceAt chain last w) =
          .ok (r.replaceAt chain last (.expanded record))) ∧
      ∀ ref, (r.replaceAt chain last ref).target? chain last = some ref ∧
        (∀ chain' last', PartWays (chain ++ [last]) (chain' ++ [last']) →
          (r.replaceAt chain last ref).target? chain' last' = r.target? chain' last') ∧
        (r.replaceAt chain last ref).toJson = r.toJson.replaceAt chain last ref.toJson := by
  obtain ⟨inner, hinner, hplace⟩ := Record.target_eq_some.1 hold
  obtain ⟨innerType, target, fields, v, htype, hlast, hfields, hv, hread⟩ :=
    Record.exists_referenceAt_of_follow h hinner hplace
  refine ⟨innerType, target, fields, v, htype, hlast, hfields, hv, hread, ?_, ?_, fun ref => ?_⟩
  · rintro record - w hw
    exact Record.decode_replaceAt h htype hlast hinner hplace (Related.decode_id hw target)
  · rintro id - w record hw
    exact Record.decode_replaceAt h htype hlast hinner hplace hw
  · exact ⟨Record.target_replaceAt hold ref,
      fun chain' last' => Record.target_replaceAt_of_partWays hold ref,
      Record.toJson_replaceAt h hinner hplace ref⟩

/-- The identifier of an image. -/
def portraitId : ObjectId :=
  ⟨List.replicate 12 1, rfl⟩

/-- An author whose image is given by a value. -/
def reporter (thumbnail : Value) : Document :=
  [(idKey, .objectId ⟨List.replicate 12 2, rfl⟩), ("thumbnail", thumbnail)]

/-- A post by two authors, the second one in place. -/
def reported (thumbnail : Value) : Document :=
  [(idKey, .objectId ⟨List.replicate 12 3, rfl⟩),
    ("writters", .array [.objectId portraitId, .document (reporter thumbnail)])]

/-- The way from that post to its second author. -/
def toReporter : Link :=
  ⟨⟨"writters", "writers", .references .author⟩, some 1⟩

/-- The way from an author to the image. -/
def toThumbnail : Link :=
  ⟨⟨"thumbnail", "thumbnail", .reference .image⟩, none⟩

/-- An image of which only the identifier is known. -/
def portrait : Value :=
  .document [(idKey, .objectId portraitId)]

theorem decode_portrait : ∃ image, Related.decode .image portrait = .ok (.expanded image) ∧
    image.id = portraitId := by
  have himage : Record.decode .image [(idKey, .objectId portraitId)] =
      .ok ⟨.image, portraitId, [.scalar (.text ""), .scalar (.text ""), .asset none]⟩ := rfl
  exact ⟨_, Related.decode_of_resolvesTo (.cons ⟨rfl, rfl, rfl⟩ .nil) himage, rfl⟩

theorem exists_decode_reporter (h : Related.decode .image portrait = .ok ref) :
    ∃ author, Record.decode .author (reporter portrait) = .ok author := by
  have hfield : toThumbnail.field ∈ RecordType.author.fields := by decide
  have hfault : RecordType.author.fault? ("thumbnail", portrait) = _ :=
    RecordType.fault?_field hfield portrait
  have hcontent : Content.decode (.reference .image) portrait = .ok (.reference (some ref)) := by
    rw [Content.decode, h]
    · rfl
    · intro hnull
      cases hnull
  refine Record.exists_decode_iff.2 ⟨⟨_, List.mem_cons_self⟩, ?_⟩
  simp only [reporter, List.forall_mem_cons]
  refine ⟨rfl, ?_, by simp⟩
  rw [hfault]
  show DecodeError.of? (Content.decode (.reference .image) portrait) = none
  rw [hcontent]
  rfl

theorem exists_decode_reported
    (h : Related.decode .author (.document (reporter portrait)) = .ok ref) :
    ∃ post, Record.decode .post (reported portrait) = .ok post := by
  have hfield : toReporter.field ∈ RecordType.post.fields := by decide
  have hfirst : Related.decode .author (.objectId portraitId) = .ok (.id portraitId) :=
    Related.decode_id List.mem_cons_self .author
  have hfault : RecordType.post.fault?
      ("writters", .array [.objectId portraitId, .document (reporter portrait)]) = _ :=
    RecordType.fault?_field hfield _
  refine Record.exists_decode_iff.2 ⟨⟨_, List.mem_cons_self⟩, ?_⟩
  simp only [reported, List.forall_mem_cons]
  refine ⟨rfl, ?_, by simp⟩
  rw [hfault]
  show DecodeError.of? (Content.decode (.references .author) _) = none
  rw [Content.decode_references, List.mapM_cons, List.mapM_cons, hfirst, h]
  rfl

theorem expansion_invisible_reported :
    ∃ post, Record.decode .post (reported portrait) = .ok post ∧
      Record.decode .post (reported (.objectId portraitId)) =
        .ok (post.replaceAt [toReporter] toThumbnail (.id portraitId)) := by
  obtain ⟨image, himage, hid⟩ := decode_portrait
  obtain ⟨author, hauthor⟩ := exists_decode_reporter himage
  have hresolved : List.Forall₂ Value.ResolvesTo (reporter portrait) (reporter portrait) :=
    .cons ⟨rfl, rfl, rfl⟩ (.cons ⟨rfl, rfl, rfl⟩ .nil)
  obtain ⟨post, hpost⟩ := exists_decode_reported (Related.decode_of_resolvesTo hresolved hauthor)
  have hauthors : RecordType.post.linked? toReporter = some .author := by decide
  have himages : RecordType.author.linked? toThumbnail = some .image := by decide
  obtain ⟨inner, hinner, hlinked⟩ := Record.linked_of_decode hpost hauthors rfl
    (Value.resolveFields_eq_document.2 hresolved)
  obtain rfl := Except.ok.inj (hauthor.symm.trans hinner)
  obtain ⟨old, hold, hread⟩ := Record.referenceAt_of_decode hauthor himages rfl nofun
  obtain rfl := Except.ok.inj (himage.symm.trans hread)
  have htarget : post.target? [toReporter] toThumbnail = some (.expanded image) := by
    rw [Record.target_cons, hlinked]
    exact hold
  obtain ⟨_, _, _, _, -, -, -, -, -, hcollapse, -⟩ := expansion_invisible hpost htarget
  refine ⟨post, hpost, ?_⟩
  rw [← hid]
  exact hcollapse image rfl (.objectId image.id) List.mem_cons_self

end NewsService
