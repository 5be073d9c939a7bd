import NewsService.Proofs.Record.Chain

/-!
# Documents in place of references

A document without reserved keys spells nothing but itself, and so do the documents inside it. Main
statement: such a document is decoded in the place of a reference as it is on its own, it fails
there with the same error, and this goes on along every chain of references.
-/

namespace NewsService

variable {type target : RecordType} {d inner : Document} {r : Record} {l : Link}

/-- Whether a document is read in the same way on its own and in the place of a reference. -/
structure DecodesAlike (type : RecordType) (d : Document) : Prop where
  expanded : ∀ r, Related.decode type (.document d) = .ok (.expanded r) ↔
    Record.decode type d = .ok r
  not_id : ∀ id, Related.decode type (.document d) ≠ .ok (.id id)
  error : ∀ e, Related.decode type (.document d) = .error e ↔ Record.decode type d = .error e

theorem decodesAlike_of_plain (type : RecordType) (h : Value.plainFields d = true) :
    DecodesAlike type d := by
  have heq := Related.decode_document h type
  refine ⟨fun r => ?_, fun id hid => ?_, fun e => ?_⟩
  · rw [heq, DecodeError.map_eq_ok]
    constructor
    · rintro ⟨r', hr', hexpanded⟩
      rw [← Related.expanded.inj hexpanded]
      exact hr'
    · intro hr
      exact ⟨r, hr, rfl⟩
  · rw [heq] at hid
    obtain ⟨r, -, hexpanded⟩ := DecodeError.map_eq_ok.1 hid
    cases hexpanded
  · rw [heq, DecodeError.map_eq_error]

namespace Document

/-! ## Documents inside plain ones -/

theorem isPlain_of_referenceAt (h : Value.plainFields d = true) {v : Value}
    (hv : d.referenceAt? l = some v) : v.isPlain = true := by
  rw [Value.plainFields_iff] at h
  rw [referenceAt?] at hv
  cases hplace : l.place with
  | none =>
    rw [hplace] at hv
    exact (h _ (mem_of_lookup hv)).2
  | some i =>
    rw [hplace] at hv
    cases hstored : d.lookup l.field.key with
    | none => simp [hstored] at hv
    | some stored =>
      rw [hstored] at hv
      have hplain := (h _ (mem_of_lookup hstored)).2
      cases stored with
      | array items => exact Value.plainItems_iff.1 hplain v (List.mem_of_getElem? hv)
      | _ => cases hv

theorem plain_of_linked (h : Value.plainFields d = true) (hinner : d.linked? l = some inner) :
    Value.plainFields inner = true :=
  isPlain_of_referenceAt h (referenceAt_of_linked hinner).1

theorem plain_of_follow {chain : List Link} (h : Value.plainFields d = true)
    (hinner : d.follow? chain = some inner) : Value.plainFields inner = true := by
  induction chain generalizing d with
  | nil =>
    obtain rfl := Option.some.inj hinner
    exact h
  | cons l rest ih =>
    obtain ⟨d', hd', hinner⟩ := Option.bind_eq_some_iff.1 hinner
    exact ih (plain_of_linked h hd') hinner

/-- A plain document in the place of a reference stands for a record. -/
theorem linked_of_referenceAt (h : Value.plainFields d = true)
    (hv : d.referenceAt? l = some (.document inner)) : d.linked? l = some inner := by
  have hplain := isPlain_of_referenceAt h hv
  rw [linked?, hv, Option.bind_some, Value.embedded?_eq_some]
  refine ⟨rfl, fun entry hentry => ?_⟩
  exact ofName?_of_not_reserved (Value.plainFields_iff.1 hplain entry hentry).1

/-! ## What stands in front of a reference -/

/-- Whether all that stands in front of a reference can be read: the entries before its field, and
in a list the items before its place. -/
def ReadableBefore (type : RecordType) (d : Document) (l : Link) : Prop :=
  ∃ before stored after, d = before ++ (l.field.key, stored) :: after ∧
    (∀ entry ∈ before, entry.1 ≠ l.field.key ∧ type.fault? entry = none) ∧
    ∀ target i items, type.linked? l = some target → l.place = some i → stored = .array items →
      ∀ item ∈ items.take i, ∃ ref, Related.decode target item = .ok ref

/-- Whether all that stands in front of the references of a chain can be read. -/
def ReadableAlong : RecordType → Document → List Link → Prop
  | _, _, [] => True
  | type, d, l :: rest =>
    d.ReadableBefore type l ∧ ∀ target inner, type.linked? l = some target →
      d.linked? l = some inner → ReadableAlong target inner rest

theorem lookup_append_of_not_mem {before after : Document} {key : String} {v : Value}
    (h : ∀ entry ∈ before, entry.1 ≠ key) : (before ++ (key, v) :: after).lookup key = some v := by
  rw [List.lookup_eq_some_iff]
  refine ⟨before, after, rfl, fun entry hentry => ?_⟩
  simpa using (h entry hentry).symm

end Document

namespace Record

/-- A document fails as the first document inside it does. -/
theorem decode_error_of_linked (h : Value.plainFields d = true)
    (hl : type.linked? l = some target) (hinner : d.linked? l = some inner)
    (hbefore : d.ReadableBefore type l) {e : DecodeError} (he : decode target inner = .error e) :
    decode type d = .error e := by
  have hplain : Value.plainFields inner = true := Document.plain_of_linked h hinner
  have hresolve : (Value.document inner).resolve = .ok (.document inner) :=
    Value.resolve_of_plain _ hplain
  obtain ⟨hfield, htype⟩ := RecordType.linked?_eq_some.1 hl
  obtain ⟨before, stored, after, rfl, hbefore, hitems⟩ := hbefore
  have hstored : (before ++ (l.field.key, stored) :: after).lookup l.field.key = some stored :=
    Document.lookup_append_of_not_mem fun entry hentry => (hbefore entry hentry).1
  have hv := (Document.referenceAt_of_linked hinner).1
  rw [Document.referenceAt?, hstored] at hv
  refine decode_eq_error.2 (Or.inl ⟨before, _, after, rfl, fun entry hentry => ?_, ?_⟩)
  · exact (hbefore entry hentry).2
  rw [RecordType.fault?_field hfield]
  rcases htype with ⟨htype, hplace⟩ | ⟨htype, i, hplace⟩
  · rw [hplace] at hv
    obtain rfl := Option.some.inj hv
    rw [htype, Content.decode_reference hresolve, he]
    rfl
  · rw [hplace] at hv
    cases stored with
    | array items =>
      have hdecode : Related.decode target (.document inner) = .error e :=
        (decodesAlike_of_plain target hplain).error e |>.2 he
      have hlist := mapM_eq_error (hitems target i items hl hplace rfl) hv hdecode
      rw [htype, Content.decode_references, hlist]
      rfl
    | _ => cases hv

theorem decode_error_of_follow {chain : List Link} (h : Value.plainFields d = true)
    (htype : type.follow? chain = some target) (hinner : d.follow? chain = some inner)
    (hbefore : d.ReadableAlong type chain) {e : DecodeError} (he : decode target inner = .error e) :
    decode type d = .error e := by
  induction chain generalizing type d with
  | nil =>
    obtain rfl := Option.some.inj htype
    obtain rfl := Option.some.inj hinner
    exact he
  | cons l rest ih =>
    obtain ⟨type', hl, htype⟩ := Option.bind_eq_some_iff.1 htype
    obtain ⟨d', hd', hinner⟩ := Option.bind_eq_some_iff.1 hinner
    have hrest := ih (Document.plain_of_linked h hd') htype hinner (hbefore.2 type' d' hl hd')
    exact decode_error_of_linked h hl hd' hbefore.1 hrest

/-- Inside a plain document nothing is left to resolve. -/
theorem follow_of_plain {chain : List Link} (h : Value.plainFields d = true)
    (hr : decode type d = .ok r) (htype : type.follow? chain = some target)
    (hinner : d.follow? chain = some inner) :
    ∃ r', decode target inner = .ok r' ∧ r.follow? chain = some r' := by
  by_cases hne : chain = []
  · subst hne
    obtain rfl := Option.some.inj htype
    obtain rfl := Option.some.inj hinner
    exact ⟨r, hr, rfl⟩
  · obtain ⟨w, r', hw, hr', hfollow⟩ := exists_follow hne hr htype hinner
    have hplain := Value.resolveFields_of_plain inner (Document.plain_of_follow h hinner)
    obtain rfl := Value.document.inj (Except.ok.inj (hw.symm.trans hplain))
    exact ⟨r', hr', hfollow⟩

/-- Every record inside a decoded one is that of a document inside. -/
theorem exists_of_follow {chain : List Link} {r' : Record} (h : Value.plainFields d = true)
    (hr : decode type d = .ok r) (hfollow : r.follow? chain = some r') :
    ∃ target inner, type.follow? chain = some target ∧ d.follow? chain = some inner ∧
      decode target inner = .ok r' := by
  induction chain generalizing type d r with
  | nil =>
    obtain rfl := Option.some.inj hfollow
    exact ⟨type, d, rfl, rfl, hr⟩
  | cons l rest ih =>
    obtain ⟨r₁, hlinked, hfollow⟩ := Option.bind_eq_some_iff.1 hfollow
    obtain ⟨type', v, w, hl, hv, hw, hr₁⟩ := exists_of_linked hr hlinked
    have hspelled := Value.resolve_of_plain v (Document.isPlain_of_referenceAt h hv)
    obtain rfl := Except.ok.inj (hspelled.symm.trans hw)
    have hd' := Document.linked_of_referenceAt h hv
    obtain ⟨target, inner, htype, hinner, hr'⟩ := ih (Document.plain_of_linked h hd') hr₁ hfollow
    refine ⟨target, inner, ?_, ?_, hr'⟩
    · rw [RecordType.follow?, List.foldlM_cons, hl]
      exact htype
    · rw [Document.follow?, List.foldlM_cons, hd']
      exact hinner

end Record

/-- A document without reserved keys is decoded in the same way on its own and in the place of a
reference, and so are the documents to which chains of references lead from it. In a record that is
decoded a chain leads to the record of the document at its end, and to nothing else. A document
fails with the error of the first document inside it that fails. -/
theorem decoded_alike_in_place (type : RecordType) {d : Document}
    (h : Value.plainFields d = true) :
    DecodesAlike type d ∧
    (∀ chain target inner, type.follow? chain = some target → d.follow? chain = some inner →
      DecodesAlike target inner ∧
      (∀ r, Record.decode type d = .ok r →
        ∃ r', Record.decode target inner = .ok r' ∧ r.follow? chain = some r') ∧
      (∀ e, d.ReadableAlong type chain → Record.decode target inner = .error e →
        Record.decode type d = .error e)) ∧
    ∀ r chain r', Record.decode type d = .ok r → r.follow? chain = some r' →
      ∃ target inner, type.follow? chain = some target ∧ d.follow? chain = some inner ∧
        Record.decode target inner = .ok r' := by
  refine ⟨decodesAlike_of_plain type h, ?_, fun r chain r' => Record.exists_of_follow h⟩
  intro chain target inner htype hinner
  have hplain : Value.plainFields inner = true := Document.plain_of_follow h hinner
  refine ⟨decodesAlike_of_plain target hplain, fun r hr => ?_, fun e hbefore he => ?_⟩
  · exact Record.follow_of_plain h hr htype hinner
  · exact Record.decode_error_of_follow h htype hinner hbefore he

/-- A topic. -/
def elections : Document :=
  [(idKey, .string "5f0c2a7e9d3b4c1a2e8f6a01"), ("title", .string "Elections")]

/-- A post with its topic in place. -/
def turnout : Document :=
  [("topics", .document elections), (idKey, .string "5f0c2a7e9d3b4c1a2e8f6a02")]

/-- A topic with two related posts, the second one in place. -/
def debates : Document :=
  [(idKey, .string "5f0c2a7e9d3b4c1a2e8f6a03"),
    ("relateds", .array [.objectId ⟨List.replicate 12 7, rfl⟩, .document turnout])]

/-- The way from that topic to its second related post, and on to the topic of the post. -/
def throughTurnout : List Link :=
  [⟨⟨"relateds", "relateds", .references .post⟩, some 1⟩,
    ⟨⟨"topics", "topic", .reference .topic⟩, none⟩]

theorem decoded_alike_in_place_debates :
    Value.plainFields debates = true ∧
    ∃ r inner, Record.decode .topic debates = .ok r ∧ Record.decode .topic elections = .ok inner ∧
      r.follow? throughTurnout = some inner := by
  have hplain : Value.plainFields debates = true := rfl
  obtain ⟨-, hchain, -⟩ := decoded_alike_in_place .topic hplain
  obtain ⟨inner, hinner⟩ : ∃ r, Record.decode .topic elections = .ok r := by
    refine Record.exists_decode_iff.2 ⟨⟨_, List.mem_cons_self⟩, ?_⟩
    simp only [elections, List.forall_mem_cons]
    exact ⟨rfl, rfl, by simp⟩
  obtain ⟨post, hpost⟩ : ∃ r, Record.decode .post turnout = .ok r := by
    have htopic : (⟨"topics", "topic", .reference .topic⟩ : Field FieldType) ∈
        RecordType.post.fields := by decide
    refine Record.exists_decode_iff.2 ⟨⟨_, List.mem_cons_of_mem _ List.mem_cons_self⟩, ?_⟩
    simp only [turnout, List.forall_mem_cons]
    refine ⟨?_, rfl, by simp⟩
    rw [RecordType.fault?_field htopic, Content.decode_reference (d := elections) rfl, hinner]
    rfl
  obtain ⟨r, hr⟩ : ∃ r, Record.decode .topic debates = .ok r := by
    have hrelateds : (⟨"relateds", "relateds", .references .post⟩ : Field FieldType) ∈
        RecordType.topic.fields := by decide
    have hfirst : Related.decode .post (.objectId ⟨List.replicate 12 7, rfl⟩) =
        .ok (.id ⟨List.replicate 12 7, rfl⟩) := by
      rw [Related.decode_of_resolved rfl, Related.ofResolved]
    have hsecond : Related.decode .post (.document turnout) = .ok (.expanded post) :=
      ((decodesAlike_of_plain .post rfl).expanded post).2 hpost
    refine Record.exists_decode_iff.2 ⟨⟨_, List.mem_cons_self⟩, ?_⟩
    simp only [debates, List.forall_mem_cons]
    refine ⟨rfl, ?_, by simp⟩
    rw [RecordType.fault?_field hrelateds, Content.decode_references, List.mapM_cons,
      List.mapM_cons, hfirst, hsecond]
    rfl
  obtain ⟨-, hfound, -⟩ := hchain throughTurnout .topic elections rfl rfl
  obtain ⟨inner', hinner', hfollow⟩ := hfound r hr
  obtain rfl := Except.ok.inj (hinner.symm.trans hinner')
  exact ⟨hplain, r, inner, hr, hinner, hfollow⟩

end NewsService
