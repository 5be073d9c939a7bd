import NewsService.Proofs.Pipeline.Selection
import NewsService.Proofs.Record.Precise
import NewsService.Record.Json

/-!
# Where identifiers are read and written

The text of an identifier is read in the lists of a filter, in the place of a reference and as the
identifier of a document. It is written for a reference that has not been joined and for a record.
Main statement: a text is read at all of these places or at none, always as the same identifier, and
what is written for an identifier is read back as that one.
-/

namespace NewsService

namespace ObjectId

variable {text other : String} {id id' : ObjectId}

/-! ## Texts -/

theorem toList_toLower (text : String) : text.toLower.toList = text.toList.map Char.toLower :=
  String.toList_map

theorem denotes_iff_toLower : Denotes text id ↔ text.toLower = id.text := by
  unfold Denotes
  rw [← toList_toLower, String.toList_inj]

theorem ofText_eq_ok : ofText text = .ok id ↔ Denotes text id := by
  rw [← ofText?_eq_some]
  unfold ofText?
  cases ofText text with
  | error e => simp [Except.toOption]
  | ok found => simp [Except.toOption]

theorem denotes_text (id : ObjectId) : Denotes id.text id :=
  ofText_eq_ok.1 (ofText_text id)

theorem text_inj : id.text = id'.text ↔ id = id' := by
  constructor
  · intro h
    have hread := ofText_text id
    rw [h, ofText_text] at hread
    exact (Except.ok.inj hread).symm
  · rintro rfl
    rfl

/-- Texts denote the same identifier when they differ at most in the case of letters. -/
theorem Denotes.eq_iff (h : Denotes text id) (h' : Denotes other id') :
    id = id' ↔ text.toLower = other.toLower := by
  rw [denotes_iff_toLower.1 h, denotes_iff_toLower.1 h', text_inj]

theorem ofTexts_eq_singleton : ofTexts [text] = [id] ↔ Denotes text id := by
  rw [← ofText?_eq_some]
  cases hread : ofText? text with
  | none => simp [ofTexts, hread]
  | some found => simp [ofTexts, hread]

/-! ## Reading -/

theorem readId_text_eq_ok : readId (.string text) = .ok id ↔ Denotes text id := by
  rw [← ofText?_eq_some]
  cases hread : ofText? text with
  | none => simp [readId, DecodeError.orMismatch, hread]
  | some found => simp [readId, DecodeError.orMismatch, hread]

theorem related_decode_text_eq_ok {target : RecordType} {ref : Related} :
    Related.decode target (.string text) = .ok ref ↔ ∃ id, Denotes text id ∧ ref = .id id := by
  have hresolve : (Value.string text).resolve = .ok (.string text) := rfl
  simp only [← ofText_eq_ok]
  rw [Related.decode_of_resolved hresolve, Related.ofResolved]
  cases ofText text with
  | error e => simp
  | ok id => simp [eq_comm]

theorem exists_related_decode_text_iff (target : RecordType) :
    (∃ ref, Related.decode target (.string text) = .ok ref) ↔ isWellFormed text = true := by
  rw [isWellFormed_iff]
  constructor
  · rintro ⟨ref, href⟩
    obtain ⟨id, hid, -⟩ := related_decode_text_eq_ok.1 href
    exact ⟨id, hid⟩
  · rintro ⟨id, hid⟩
    exact ⟨.id id, related_decode_text_eq_ok.2 ⟨id, hid, rfl⟩⟩

section Documents

variable {type : RecordType} {before after : Document}

theorem exists_decode_text_iff (h : ∀ entry ∈ before ++ after, type.fault? entry = none) :
    (∃ r, Record.decode type (before ++ (idKey, .string text) :: after) = .ok r) ↔
      isWellFormed text = true := by
  have hfault : type.fault? (idKey, .string text) = none ↔ isWellFormed text = true := by
    rw [RecordType.fault?_id, DecodeError.of?_eq_none, isWellFormed_iff]
    simp only [readId_text_eq_ok]
  have hkey : ∃ v, (idKey, v) ∈ before ++ (idKey, .string text) :: after :=
    ⟨_, List.mem_append_right _ List.mem_cons_self⟩
  rw [Record.exists_decode_iff, ← hfault]
  constructor
  · rintro ⟨-, hall⟩
    exact hall _ (List.mem_append_right _ List.mem_cons_self)
  · intro hid
    refine ⟨hkey, fun entry hentry => ?_⟩
    rcases List.mem_append.1 hentry with hbefore | hentry
    · exact h entry (List.mem_append_left _ hbefore)
    · rcases List.mem_cons.1 hentry with rfl | hafter
      · exact hid
      · exact h entry (List.mem_append_right _ hafter)

theorem id_of_decode_text (hdenotes : Denotes text id) (hnew : ∀ v, (idKey, v) ∉ before)
    {r : Record} (h : Record.decode type (before ++ (idKey, .string text) :: after) = .ok r) :
    r.id = id := by
  have hnone : before.lookup idKey = none := by
    cases hlookup : before.lookup idKey with
    | none => rfl
    | some v => exact absurd (Document.mem_of_lookup hlookup) (hnew v)
  obtain ⟨v, hv, hread⟩ := (Record.decode_eq_ok_iff_isIn.1 h).2.id
  rw [List.lookup_append, hnone, Option.none_or, List.lookup_cons_self] at hv
  obtain rfl := Option.some.inj hv
  have hother := readId_text_eq_ok.1 hread
  exact (hother.eq_iff hdenotes).2 rfl

end Documents

/-! ## Places -/

/-- Whether a text is read as an identifier at every place: in a list, as a reference to a record of
any type, and as the identifier of a document whose other fields can be read. -/
structure ReadAs (text : String) (id : ObjectId) : Prop where
  listed : ofTexts [text] = [id]
  reference : ∀ target, Related.decode target (.string text) = .ok (.id id)
  own : ∀ (type : RecordType) (before after : Document), (∀ v, (idKey, v) ∉ before) →
    (∀ entry ∈ before ++ after, type.fault? entry = none) →
    ∃ r, Record.decode type (before ++ (idKey, .string text) :: after) = .ok r ∧ r.id = id

/-- Whether a text is served for an identifier: in the place of a reference, and under the name `id`
of a record. -/
structure ServedAs (id : ObjectId) (text : String) : Prop where
  reference : (Related.id id).toJson = .string text
  own : ∀ r : Record, r.id = id → ∃ members, r.toJson = .object (("id", .string text) :: members)

theorem readAs_iff : ReadAs text id ↔ Denotes text id := by
  constructor
  · intro h
    exact ofTexts_eq_singleton.1 h.listed
  · intro h
    refine ⟨ofTexts_eq_singleton.2 h, fun target => ?_, ?_⟩
    · exact related_decode_text_eq_ok.2 ⟨id, h, rfl⟩
    · intro type before after hnew hfault
      obtain ⟨r, hr⟩ := (exists_decode_text_iff hfault).2 (isWellFormed_iff.2 ⟨id, h⟩)
      exact ⟨r, hr, id_of_decode_text h hnew hr⟩

theorem servedAs_text (id : ObjectId) : ServedAs id id.text := by
  refine ⟨by rw [Related.toJson], ?_⟩
  rintro ⟨type, -, contents⟩ rfl
  exact ⟨_, by rw [Record.toJson]⟩

/-- A filter that lists a text selects the documents that hold the identifier which it denotes. -/
theorem passes?_listed (same : Equality) (d : Document) (h : Denotes text id) :
    same.passes? d (Filter.stages { ids := [text] }).toDocuments = some true ↔
      same.HoldsAt d idKey (.objectId id) := by
  obtain ⟨passed, hpasses, hpassed⟩ := Filter.passes?_stages same { ids := [text] } d
  have hids : (FilterValue.ids [text]).IsMetBy same d idKey ↔
      same.HoldsAt d idKey (.objectId id) := by
    constructor
    · intro hmet
      obtain ⟨listed, hlisted, found, hfound, hholds⟩ := hmet (List.cons_ne_nil _ _)
      obtain rfl := List.mem_singleton.1 hlisted
      obtain rfl := (hfound.eq_iff h).2 rfl
      exact hholds
    · intro hholds _
      exact ⟨text, List.mem_cons_self, id, h, hholds⟩
  rw [hpasses, Option.some.injEq, hpassed, ← hids]
  constructor
  · intro hdescribes
    exact hdescribes.ids
  · intro hmet
    have hzero : ∀ value : FilterValue, value.isZero = true → ∀ key, value.IsMetBy same d key :=
      fun _ hvalue _ => FilterValue.isMetBy_of_zero hvalue
    exact ⟨hzero _ rfl _, hzero _ rfl _, hzero _ rfl _, hzero _ rfl _, hzero _ rfl _, hzero _ rfl _,
      hmet⟩

theorem passes?_listed_of_own {same : Equality}
    (hsame : ∀ a b, same (.objectId a) (.objectId b) = decide (a = b)) {d : Document}
    {own : ObjectId} (hown : d.lookup idKey = some (.objectId own)) (h : Denotes text id) :
    same.passes? d (Filter.stages { ids := [text] }).toDocuments = some true ↔ own = id := by
  rw [passes?_listed same d h]
  unfold Equality.HoldsAt Equality.holds
  simp [hown, hsame, Value.items]

/-- Twenty-four hexadecimal digits, and no other text, are read as an identifier, and at every place
as the same one; its text is served in lowercase. Texts are read as the same identifier when they
differ at most in case. What is served for an identifier is read as that identifier, and a filter
that lists it selects the document which has it. In a list of texts the identifiers of the
well-formed ones are kept in order. -/
theorem places_agree :
    (∀ text : String,
      ((∃ id, ofTexts [text] = [id]) ↔ isWellFormed text = true) ∧
      (∀ target, (∃ ref, Related.decode target (.string text) = .ok ref) ↔
        isWellFormed text = true) ∧
      (∀ (type : RecordType) (before after : Document),
        (∀ entry ∈ before ++ after, type.fault? entry = none) →
        ((∃ r, Record.decode type (before ++ (idKey, .string text) :: after) = .ok r) ↔
          isWellFormed text = true)) ∧
      ∀ id, ofTexts [text] = [id] → ReadAs text id ∧ ServedAs id text.toLower) ∧
    (∀ text other id id', ReadAs text id → ReadAs other id' →
      (id = id' ↔ text.toLower = other.toLower)) ∧
    (∀ id, ∃ text, ServedAs id text ∧ ReadAs text id ∧
      ∀ same : Equality, (∀ a b, same (.objectId a) (.objectId b) = decide (a = b)) →
        ∀ (d : Document) own, d.lookup idKey = some (.objectId own) →
          (same.passes? d (Filter.stages { ids := [text] }).toDocuments = some true ↔ own = id)) ∧
    ∀ texts ids, ofTexts texts = ids ↔ DenoteList texts ids := by
  refine ⟨fun text => ⟨?_, exists_related_decode_text_iff, ?_, ?_⟩, ?_, ?_, ?_⟩
  · simp only [ofTexts_eq_singleton, isWellFormed_iff]
  · intro type before after hfault
    exact exists_decode_text_iff hfault
  · intro id hlisted
    have hdenotes := ofTexts_eq_singleton.1 hlisted
    rw [denotes_iff_toLower.1 hdenotes]
    exact ⟨readAs_iff.2 hdenotes, servedAs_text id⟩
  · intro text other id id' h h'
    exact (readAs_iff.1 h).eq_iff (readAs_iff.1 h')
  · intro id
    have hdenotes := denotes_text id
    refine ⟨id.text, servedAs_text id, readAs_iff.2 hdenotes, ?_⟩
    intro same hsame d own hown
    exact passes?_listed_of_own hsame hown hdenotes
  · intro texts ids
    rw [denoteList_iff, eq_comm]

theorem places_agree_capitals :
    ∃ id, ReadAs "5F0C2A7E9D3B4C1A2E8F6A01" id ∧ ReadAs "5f0c2a7E9d3b4c1a2e8f6a01" id ∧
      ServedAs id "5f0c2a7e9d3b4c1a2e8f6a01" ∧
      Equality.literal.passes? [("title", .null), (idKey, .objectId id)]
        (Filter.stages { ids := [id.text] }).toDocuments = some true := by
  obtain ⟨htexts, hcase, hserved, -⟩ := places_agree
  obtain ⟨hlisted, -, -, hread⟩ := htexts "5F0C2A7E9D3B4C1A2E8F6A01"
  obtain ⟨hlisted', -, -, hread'⟩ := htexts "5f0c2a7E9d3b4c1a2e8f6a01"
  have hlower : "5F0C2A7E9D3B4C1A2E8F6A01".toLower = "5f0c2a7e9d3b4c1a2e8f6a01" := by
    rw [← String.toList_inj, toList_toLower]
    decide
  have hlower' : "5f0c2a7E9d3b4c1a2e8f6a01".toLower = "5f0c2a7e9d3b4c1a2e8f6a01" := by
    rw [← String.toList_inj, toList_toLower]
    decide
  obtain ⟨id, hid⟩ := hlisted.2 (by decide)
  obtain ⟨id', hid'⟩ := hlisted'.2 (by decide)
  have hsame : id = id' :=
    (hcase _ _ _ _ (hread id hid).1 (hread' id' hid').1).2 (hlower.trans hlower'.symm)
  obtain ⟨text, htext, -, hselects⟩ := hserved id
  have hown : text = id.text := by
    have href := htext.reference
    rw [Related.toJson] at href
    exact (Json.string.inj href).symm
  refine ⟨id, (hread id hid).1, hsame ▸ (hread' id' hid').1, ?_, ?_⟩
  · rw [← hlower]
    exact (hread id hid).2
  · rw [← hown]
    exact (hselects Equality.literal (fun _ _ => rfl) _ id rfl).2 rfl

end ObjectId

end NewsService
