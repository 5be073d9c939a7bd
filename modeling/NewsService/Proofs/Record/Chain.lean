import NewsService.Proofs.Document.Items
import NewsService.Proofs.Record.Precise

/-!
# Records inside records

A reference is found by its field and, in a list of references, by its place. A chain of such links
leads from a record to a record inside it, at any depth. Documents, the record types of their fields
and records are all followed along the same links. Main statement: what a chain leads to in a
decoded document is decoded there as it is on its own.
-/

namespace NewsService

/-- The way from a record to one of its references. -/
structure Link where
  /-- The field of the reference. -/
  field : Field FieldType
  /-- The place of the reference, where the field is a list. -/
  place : Option Nat := none
  deriving DecidableEq, Repr

/-- The record type to which a link leads. -/
def RecordType.linked? (type : RecordType) (l : Link) : Option RecordType :=
  if l.field ∈ type.fields then
    match l.field.type, l.place with
    | .reference target, none => some target
    | .references target, some _ => some target
    | _, _ => none
  else none

/-- The document in the place of a reference. A document with a reserved key spells some other
value. -/
def Value.embedded? : Value → Option Document
  | .document fields =>
    if fields.all fun entry => (ReservedKey.ofName? entry.1).isNone then some fields else none
  | _ => none

namespace Document

/-- What a document holds for a reference. -/
def referenceAt? (d : Document) (l : Link) : Option Value :=
  match l.place, d.lookup l.field.key with
  | none, stored => stored
  | some i, some (.array items) => items[i]?
  | some _, _ => none

/-- The document to which a link leads. -/
def linked? (d : Document) (l : Link) : Option Document :=
  (d.referenceAt? l).bind Value.embedded?

end Document

namespace Record

/-- The content of a field. -/
def content? (r : Record) (field : Field FieldType) : Option Content :=
  (r.type.fields.zip r.contents).lookup field

/-- The reference at the end of a link. -/
def referenceAt? (r : Record) (l : Link) : Option Related :=
  match l.place, r.content? l.field with
  | none, some (.reference target) => target
  | some i, some (.references targets) => targets[i]?
  | _, _ => none

/-- The record to which a link leads. -/
def linked? (r : Record) (l : Link) : Option Record :=
  (r.referenceAt? l).bind Related.record?

end Record

/-! ## Chains -/

/-- The record type at the end of a chain. -/
def RecordType.follow? (type : RecordType) (chain : List Link) : Option RecordType :=
  chain.foldlM RecordType.linked? type

/-- The document at the end of a chain. -/
def Document.follow? (d : Document) (chain : List Link) : Option Document :=
  chain.foldlM Document.linked? d

/-- The record at the end of a chain. -/
def Record.follow? (r : Record) (chain : List Link) : Option Record :=
  chain.foldlM Record.linked? r

variable {type target : RecordType} {d : Document} {r : Record} {l : Link}

theorem RecordType.linked?_eq_some :
    type.linked? l = some target ↔ l.field ∈ type.fields ∧
      (l.field.type = .reference target ∧ l.place = none ∨
        l.field.type = .references target ∧ ∃ i, l.place = some i) := by
  rw [linked?]
  by_cases hfield : l.field ∈ type.fields
  · rw [if_pos hfield]
    cases l.field.type <;> cases l.place <;> simp [hfield]
  · simp [hfield]

theorem Value.embedded?_eq_some {v : Value} {fields : Document} :
    v.embedded? = some fields ↔
      v = .document fields ∧ ∀ entry ∈ fields, ReservedKey.ofName? entry.1 = none := by
  cases v with
  | document other =>
    rw [embedded?]
    split
    · next hall =>
      simp only [List.all_eq_true, Option.isNone_iff_eq_none] at hall
      constructor
      · intro h
        obtain rfl := Option.some.inj h
        exact ⟨rfl, hall⟩
      · rintro ⟨h, -⟩
        rw [Value.document.inj h]
    · next hall =>
      simp only [List.all_eq_true, Option.isNone_iff_eq_none] at hall
      constructor
      · intro h
        cases h
      · rintro ⟨h, hnone⟩
        obtain rfl := Value.document.inj h
        exact absurd hnone hall
  | _ => simp [embedded?]

/-! ## One link -/

/-- What a field can be read as: the default content of its type from null, or else content of its
type. -/
theorem Content.decode_cases {type : FieldType} {v : Value} {content : Content}
    (h : Content.decode type v = .ok content) :
    (v = .null ∧ content = type.default) ∨
    (∃ kind s, type = .scalar kind ∧ content = .scalar s ∧ Scalar.read kind v = .ok s) ∨
    (∃ asset scalars?, type = .asset asset ∧ content = .asset scalars? ∧
      asset.read v = .ok scalars?) ∨
    (∃ target ref, type = .reference target ∧ content = .reference (some ref) ∧
      Related.decode target v = .ok ref) ∨
    (∃ target items refs, type = .references target ∧ v = .array items ∧
      content = .references refs ∧ items.mapM (Related.decode target) = .ok refs) := by
  by_cases hnull : v = .null
  · subst hnull
    exact Or.inl ⟨rfl, (Except.ok.inj h).symm⟩
  refine Or.inr ?_
  cases type with
  | scalar kind =>
    rw [Content.decode] at h
    · obtain ⟨s, hs, rfl⟩ := DecodeError.map_eq_ok.1 h
      exact Or.inl ⟨kind, s, rfl, rfl, hs⟩
    · exact hnull
  | asset asset =>
    rw [Content.decode] at h
    · obtain ⟨scalars?, hscalars, rfl⟩ := DecodeError.map_eq_ok.1 h
      exact Or.inr (Or.inl ⟨asset, scalars?, rfl, rfl, hscalars⟩)
    · exact hnull
  | reference target =>
    rw [Content.decode] at h
    · obtain ⟨ref, href, rfl⟩ := DecodeError.map_eq_ok.1 h
      exact Or.inr (Or.inr (Or.inl ⟨target, ref, rfl, rfl, href⟩))
    · exact hnull
  | references target =>
    cases v with
    | null => exact absurd rfl hnull
    | array items =>
      rw [Content.decode_references] at h
      obtain ⟨refs, hrefs, rfl⟩ := DecodeError.map_eq_ok.1 h
      exact Or.inr (Or.inr (Or.inr ⟨target, items, refs, rfl, rfl, rfl, hrefs⟩))
    | _ => simp [Content.decode] at h

namespace Record

/-- A field of a decoded record has the content that the document gives it. -/
theorem content_of_decode (h : decode type d = .ok r) {field : Field FieldType}
    (hfield : field ∈ type.fields) :
    ∃ content, r.content? field = some content ∧
      readField field.type (d.lookup field.key) = .ok content := by
  have hin := (decode_eq_ok_iff_isIn.1 h).2
  have hcontents := hin.contents
  rw [content?, hin.type_eq]
  generalize type.fields = fields at hfield hcontents
  generalize r.contents = contents at hcontents
  induction hcontents with
  | nil => cases hfield
  | @cons first content fields contents hread _ ih =>
    by_cases hfirst : field = first
    · subst hfirst
      exact ⟨content, by simp, hread⟩
    · obtain ⟨found, hfound, hread⟩ := ih ((List.mem_cons.1 hfield).resolve_left hfirst)
      refine ⟨found, ?_, hread⟩
      rw [List.zip_cons_cons, List.lookup_cons, beq_false_of_ne hfirst]
      exact hfound

theorem mem_of_content {field : Field FieldType} {content : Content}
    (h : r.content? field = some content) : field ∈ r.type.fields := by
  obtain ⟨before, after, hzip, -⟩ := List.lookup_eq_some_iff.1 h
  have hmem : (field, content) ∈ r.type.fields.zip r.contents := by simp [hzip]
  exact (List.of_mem_zip hmem).1

/-- Only a reference field has a reference as its content. -/
theorem exists_of_readField_reference {type : FieldType} {stored? : Option Value} {ref : Related}
    (h : readField type stored? = .ok (.reference (some ref))) :
    ∃ target v, type = .reference target ∧ stored? = some v ∧
      Related.decode target v = .ok ref := by
  cases stored? with
  | none => cases type <;> cases h
  | some v =>
    rcases Content.decode_cases h with ⟨-, hdefault⟩ | ⟨_, _, -, hcontent, -⟩ |
      ⟨_, _, -, hcontent, -⟩ | ⟨target, found, htype, hcontent, hread⟩ |
      ⟨_, _, _, -, -, hcontent, -⟩
    · cases type <;> cases hdefault
    · cases hcontent
    · cases hcontent
    · obtain rfl := Option.some.inj (Content.reference.inj hcontent)
      exact ⟨target, v, htype, rfl, hread⟩
    · cases hcontent

/-- Only a field that holds a list has references as its content. -/
theorem exists_of_readField_references {type : FieldType} {stored? : Option Value}
    {refs : List Related} (h : readField type stored? = .ok (.references refs)) (hne : refs ≠ []) :
    ∃ target items, type = .references target ∧ stored? = some (.array items) ∧
      items.mapM (Related.decode target) = .ok refs := by
  have hdefault : type.default ≠ .references refs := by
    cases type with
    | references target =>
      intro heq
      exact hne (Content.references.inj heq).symm
    | _ => nofun
  cases stored? with
  | none => exact absurd (Except.ok.inj h) hdefault
  | some v =>
    rcases Content.decode_cases h with ⟨-, heq⟩ | ⟨_, _, -, hcontent, -⟩ | ⟨_, _, -, hcontent, -⟩ |
      ⟨_, _, -, hcontent, -⟩ | ⟨target, items, found, htype, rfl, hcontent, hread⟩
    · exact absurd heq.symm hdefault
    · cases hcontent
    · cases hcontent
    · cases hcontent
    · obtain rfl := Content.references.inj hcontent
      exact ⟨target, items, htype, rfl, hread⟩

/-- What a document holds for a reference is read as the reference of the record. -/
theorem referenceAt_of_decode (h : decode type d = .ok r) (hl : type.linked? l = some target)
    {v : Value} (hv : d.referenceAt? l = some v) (hnull : v ≠ .null) :
    ∃ ref, r.referenceAt? l = some ref ∧ Related.decode target v = .ok ref := by
  obtain ⟨hfield, htype⟩ := RecordType.linked?_eq_some.1 hl
  obtain ⟨content, hcontent, hread⟩ := content_of_decode h hfield
  rcases htype with ⟨htype, hplace⟩ | ⟨htype, i, hplace⟩
  · have hstored : d.lookup l.field.key = some v := by
      rw [← hv, Document.referenceAt?, hplace]
    rw [htype, hstored, readField, Content.decode] at hread
    · obtain ⟨ref, href, rfl⟩ := DecodeError.map_eq_ok.1 hread
      refine ⟨ref, ?_, href⟩
      rw [referenceAt?, hplace, hcontent]
    · exact hnull
  · rw [Document.referenceAt?, hplace] at hv
    cases hstored : d.lookup l.field.key with
    | none => simp [hstored] at hv
    | some stored =>
      rw [hstored] at hv hread
      cases stored with
      | array items =>
        rw [htype, readField, Content.decode_references] at hread
        obtain ⟨refs, hrefs, rfl⟩ := DecodeError.map_eq_ok.1 hread
        have hitems := mapM_eq_ok.1 hrefs
        obtain ⟨hi, rfl⟩ := List.getElem?_eq_some_iff.1 hv
        have hi' : i < refs.length := hitems.length_eq ▸ hi
        refine ⟨refs[i], ?_, hitems.get hi hi'⟩
        rw [referenceAt?, hplace, hcontent]
        exact List.getElem?_eq_getElem hi'
      | _ => cases hv

/-- A reference of a record was read from what its document holds for it. -/
theorem exists_of_referenceAt (h : decode type d = .ok r) {ref : Related}
    (href : r.referenceAt? l = some ref) :
    ∃ target v, type.linked? l = some target ∧ d.referenceAt? l = some v ∧
      Related.decode target v = .ok ref := by
  have htype := (decode_eq_ok_iff_isIn.1 h).2.type_eq
  rw [referenceAt?] at href
  cases hcontent : r.content? l.field with
  | none => cases hplace : l.place <;> simp [hplace, hcontent] at href
  | some content =>
    have hfield := mem_of_content hcontent
    rw [htype] at hfield
    obtain ⟨content', hcontent', hread⟩ := content_of_decode h hfield
    obtain rfl := Option.some.inj (hcontent.symm.trans hcontent')
    rw [hcontent] at href
    cases hplace : l.place with
    | none =>
      rw [hplace] at href
      cases content with
      | reference found =>
        obtain rfl : found = some ref := href
        obtain ⟨target, v, htarget, hv, hdecode⟩ := exists_of_readField_reference hread
        refine ⟨target, v, ?_, ?_, hdecode⟩
        · exact RecordType.linked?_eq_some.2 ⟨hfield, Or.inl ⟨htarget, hplace⟩⟩
        · rw [Document.referenceAt?, hplace]
          exact hv
      | _ => cases href
    | some i =>
      rw [hplace] at href
      cases content with
      | references refs =>
        have href : refs[i]? = some ref := href
        have hne : refs ≠ [] := by
          rintro rfl
          cases href
        obtain ⟨target, items, htarget, hstored, hdecode⟩ :=
          exists_of_readField_references hread hne
        have hitems := mapM_eq_ok.1 hdecode
        obtain ⟨hi, rfl⟩ := List.getElem?_eq_some_iff.1 href
        have hi' : i < items.length := hitems.length_eq.symm ▸ hi
        refine ⟨target, items[i], ?_, ?_, hitems.get hi' hi⟩
        · exact RecordType.linked?_eq_some.2 ⟨hfield, Or.inr ⟨htarget, i, hplace⟩⟩
        · rw [Document.referenceAt?, hplace, hstored]
          exact List.getElem?_eq_getElem hi'
      | _ => cases href

end Record

/-- A reference is read as a record when the record is in its place. -/
theorem Related.decode_eq_expanded {v : Value} {inner : Record} :
    Related.decode target v = .ok (.expanded inner) ↔
      ∃ w, v.resolve = .ok (.document w) ∧ Record.decode target w = .ok inner := by
  constructor
  · intro h
    obtain ⟨x, hx, hread⟩ := DecodeError.exists_of_bind_eq_ok h
    cases x with
    | document w =>
      rw [Related.decode_of_resolve_document hx] at h
      obtain ⟨found, hfound, hinner⟩ := DecodeError.map_eq_ok.1 h
      obtain rfl := Related.expanded.inj hinner
      exact ⟨w, hx, hfound⟩
    | string s =>
      rw [Related.ofResolved] at hread
      split at hread <;> simp at hread
    | _ => simp [Related.ofResolved] at hread
  · rintro ⟨w, hw, hinner⟩
    rw [Related.decode_of_resolve_document hw, hinner]
    rfl

namespace Record

theorem linked_of_decode (h : decode type d = .ok r) (hl : type.linked? l = some target) {v : Value}
    {w : Document} (hv : d.referenceAt? l = some v) (hw : v.resolve = .ok (.document w)) :
    ∃ inner, decode target w = .ok inner ∧ r.linked? l = some inner := by
  have hnull : v ≠ .null := by
    rintro rfl
    cases hw
  obtain ⟨ref, href, hread⟩ := referenceAt_of_decode h hl hv hnull
  rw [Related.decode_of_resolve_document hw] at hread
  obtain ⟨inner, hinner, rfl⟩ := DecodeError.map_eq_ok.1 hread
  refine ⟨inner, hinner, ?_⟩
  rw [linked?, href]
  rfl

theorem exists_of_linked (h : decode type d = .ok r) {inner : Record}
    (hinner : r.linked? l = some inner) :
    ∃ target v w, type.linked? l = some target ∧ d.referenceAt? l = some v ∧
      v.resolve = .ok (.document w) ∧ decode target w = .ok inner := by
  obtain ⟨ref, href, hrecord⟩ := Option.bind_eq_some_iff.1 hinner
  cases ref with
  | id id => cases hrecord
  | expanded found =>
    obtain rfl := Option.some.inj hrecord
    obtain ⟨target, v, hl, hv, hread⟩ := exists_of_referenceAt h href
    obtain ⟨w, hw, hdecode⟩ := Related.decode_eq_expanded.1 hread
    exact ⟨target, v, w, hl, hv, hw, hdecode⟩

end Record

/-! ## Chains -/

namespace Document

theorem referenceAt_of_linked {inner : Document} (h : d.linked? l = some inner) :
    d.referenceAt? l = some (.document inner) ∧
      ∀ entry ∈ inner, ReservedKey.ofName? entry.1 = none := by
  obtain ⟨v, hv, hinner⟩ := Option.bind_eq_some_iff.1 h
  obtain ⟨rfl, hkeys⟩ := Value.embedded?_eq_some.1 hinner
  exact ⟨hv, hkeys⟩

/-- The value that a resolved document holds for a reference was resolved. -/
theorem exists_referenceAt_of_resolve {w : Document} {v : Value}
    (hw : Value.resolveFields d = .ok (.document w)) (hv : d.referenceAt? l = some v) :
    ∃ v', w.referenceAt? l = some v' ∧ v.resolve = .ok v' := by
  have hentries := Value.resolveFields_eq_document.1 hw
  rw [referenceAt?] at hv ⊢
  cases hplace : l.place with
  | none =>
    rw [hplace] at hv
    exact Value.exists_lookup_of_resolvesTo hentries hv
  | some i =>
    rw [hplace] at hv
    cases hstored : d.lookup l.field.key with
    | none => simp [hstored] at hv
    | some stored =>
      rw [hstored] at hv
      cases stored with
      | array items =>
        have hv : items[i]? = some v := hv
        obtain ⟨resolved, hlookup, hresolve⟩ := Value.exists_lookup_of_resolvesTo hentries hstored
        rw [Value.resolve] at hresolve
        obtain ⟨items', hitems, hresolve⟩ := DecodeError.exists_of_bind_eq_ok hresolve
        obtain rfl := Except.ok.inj hresolve
        have hitems := Value.resolveItems_eq_ok.1 hitems
        obtain ⟨hi, rfl⟩ := List.getElem?_eq_some_iff.1 hv
        have hi' : i < items'.length := hitems.length_eq ▸ hi
        refine ⟨items'[i], ?_, hitems.get hi hi'⟩
        rw [hlookup]
        exact List.getElem?_eq_getElem hi'
      | _ => cases hv

end Document

namespace Record

/-- A document in the place of a reference is read as a record once it has been resolved. -/
theorem exists_linked (h : decode type d = .ok r) (hl : type.linked? l = some target)
    {inner : Document} (hinner : d.linked? l = some inner) :
    ∃ w r', Value.resolveFields inner = .ok (.document w) ∧ decode target w = .ok r' ∧
      r.linked? l = some r' := by
  obtain ⟨hv, hkeys⟩ := Document.referenceAt_of_linked hinner
  obtain ⟨ref, -, hread⟩ := referenceAt_of_decode h hl hv nofun
  obtain ⟨x, hx, -⟩ := DecodeError.exists_of_bind_eq_ok hread
  obtain ⟨w, rfl⟩ := Value.exists_document_of_resolve hkeys hx
  obtain ⟨r', hr', hlinked⟩ := linked_of_decode h hl hv hx
  exact ⟨w, r', hx, hr', hlinked⟩

/-- Inside a resolved document nothing is left to resolve. -/
theorem exists_linked_of_resolve {w inner : Document}
    (hw : Value.resolveFields d = .ok (.document w)) (h : decode type w = .ok r)
    (hl : type.linked? l = some target) (hinner : d.linked? l = some inner) :
    ∃ w' r', Value.resolveFields inner = .ok (.document w') ∧ decode target w' = .ok r' ∧
      r.linked? l = some r' := by
  obtain ⟨hv, hkeys⟩ := Document.referenceAt_of_linked hinner
  obtain ⟨v', hv', hx⟩ := Document.exists_referenceAt_of_resolve hw hv
  obtain ⟨w', rfl⟩ := Value.exists_document_of_resolve hkeys hx
  have hfixed := Value.resolve_of_resolve _ _ hx
  obtain ⟨r', hr', hlinked⟩ := linked_of_decode h hl hv' hfixed
  exact ⟨w', r', hx, hr', hlinked⟩

theorem exists_follow_of_resolve {chain : List Link} {w inner : Document}
    (hw : Value.resolveFields d = .ok (.document w)) (h : decode type w = .ok r)
    (htype : type.follow? chain = some target) (hinner : d.follow? chain = some inner) :
    ∃ w' r', Value.resolveFields inner = .ok (.document w') ∧ decode target w' = .ok r' ∧
      r.follow? chain = some r' := by
  induction chain generalizing type d w r with
  | nil =>
    obtain rfl := Option.some.inj htype
    obtain rfl := Option.some.inj hinner
    exact ⟨w, r, hw, h, rfl⟩
  | cons l rest ih =>
    obtain ⟨type', hl, htype⟩ := Option.bind_eq_some_iff.1 htype
    obtain ⟨d', hd', hinner⟩ := Option.bind_eq_some_iff.1 hinner
    obtain ⟨w', r', hw', hr', hlinked⟩ := exists_linked_of_resolve hw h hl hd'
    obtain ⟨w'', r'', hw'', hr'', hfollow⟩ := ih hw' hr' htype hinner
    refine ⟨w'', r'', hw'', hr'', ?_⟩
    rw [follow?, List.foldlM_cons, hlinked]
    exact hfollow

/-- A document inside a record is read once it has been resolved, at any depth. -/
theorem exists_follow {chain : List Link} {inner : Document} (hne : chain ≠ [])
    (h : decode type d = .ok r) (htype : type.follow? chain = some target)
    (hinner : d.follow? chain = some inner) :
    ∃ w r', Value.resolveFields inner = .ok (.document w) ∧ decode target w = .ok r' ∧
      r.follow? chain = some r' := by
  cases chain with
  | nil => exact absurd rfl hne
  | cons l rest =>
    obtain ⟨type', hl, htype⟩ := Option.bind_eq_some_iff.1 htype
    obtain ⟨d', hd', hinner⟩ := Option.bind_eq_some_iff.1 hinner
    obtain ⟨w, r', hw, hr', hlinked⟩ := exists_linked h hl hd'
    obtain ⟨w', r'', hw', hr'', hfollow⟩ := exists_follow_of_resolve hw hr' htype hinner
    refine ⟨w', r'', hw', hr'', ?_⟩
    rw [follow?, List.foldlM_cons, hlinked]
    exact hfollow

end Record

end NewsService
