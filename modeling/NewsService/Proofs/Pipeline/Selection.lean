import NewsService.Pipeline.Filter
import NewsService.Proofs.Document.Fields
import NewsService.Proofs.ObjectId.Text
import NewsService.Proofs.Record.Embedded

/-!
# What a filter selects

The stage of a filter is read here as the document store reads it, from its spelling alone: a
condition that is a document under a key with a dollar sign is an operator, any other value is
compared with what a field holds. What values are equal is the store's own affair. Main statement: a
document passes the stage of a filter exactly when the filter describes it, and lists of identifiers
without a well-formed entry let nothing pass.
-/

namespace NewsService

/-- When a store takes a stored value to be equal to the value of a condition. -/
abbrev Equality := Value → Value → Bool

/-- Whether a key names a field: it neither begins as an operator does nor leads into a field. -/
def isFieldName (key : String) : Bool :=
  !isReserved key && !key.toList.contains '.'

namespace Equality

variable (same : Equality)

/-- Whether a stored value equals a value, or is an array with an item that does. -/
def holds (v stored : Value) : Bool :=
  same stored v || stored.items.any fun item => same item v

/-- What a spelled condition asks of a stored value: to hold one of the values listed under `$in`,
or to hold the value that is spelled. Patterns and all other operators are left open. -/
def test? : Value → Option (Value → Bool)
  | .document [("$in", .array listed)] => some fun stored => listed.any fun v => same.holds v stored
  | .document ((key, v) :: rest) =>
    if isReserved key then none else some (same.holds (.document ((key, v) :: rest)))
  | .regex _ _ => none
  | v => some (same.holds v)

/-- Whether a document meets a spelled condition under its key. Without the field it does not. -/
def meets? (d : Document) (condition : String × Value) : Option Bool := do
  let test ← same.test? condition.2
  if isFieldName condition.1 then some ((d.lookup condition.1).any test) else none

/-- Whether a document meets all conditions of a spelled stage. -/
def meetsAll? (d : Document) : Document → Option Bool
  | [] => some true
  | condition :: rest => do
    let first ← same.meets? d condition
    let others ← meetsAll? d rest
    return first && others

/-- Whether a document passes spelled stages, as far as they select only. -/
def passes? (d : Document) : List Document → Option Bool
  | [] => some true
  | [("$match", .document conditions)] :: rest => do
    let met ← same.meetsAll? d conditions
    let passed ← passes? d rest
    return met && passed
  | _ => none

/-- The equality of strings, truth values and identifiers; nothing else is equal to anything. -/
def literal : Equality
  | .string a, .string b => a == b
  | .boolean a, .boolean b => a == b
  | .objectId a, .objectId b => a == b
  | _, _ => false

/-- Whether a document holds a value under a key. -/
def HoldsAt (d : Document) (key : String) (v : Value) : Prop :=
  ∃ stored, d.lookup key = some stored ∧ same.holds v stored = true

end Equality

/-- Whether a document has what one part of a filter asks for under a key. A list asks for one of
the identifiers that its entries denote. -/
def FilterValue.IsMetBy (same : Equality) (d : Document) (key : String) : FilterValue → Prop
  | .text s => s ≠ "" → same.HoldsAt d key (.string s)
  | .flag b => ∀ v, b = some v → same.HoldsAt d key (.boolean v)
  | .ids texts =>
    texts ≠ [] → ∃ text ∈ texts, ∃ id, ObjectId.Denotes text id ∧ same.HoldsAt d key (.objectId id)

namespace Filter

/-- The documents that a filter describes. -/
structure Describes (same : Equality) (f : Filter) (d : Document) : Prop where
  slug : (FilterValue.text f.slug).IsMetBy same d "slug"
  state : (FilterValue.text f.state).IsMetBy same d "state"
  style : (FilterValue.text f.style).IsMetBy same d "style"
  isFeatured : (FilterValue.flag f.isFeatured).IsMetBy same d "isFeatured"
  categories : (FilterValue.ids f.categories).IsMetBy same d "categories"
  tags : (FilterValue.ids f.tags).IsMetBy same d "tags"
  ids : (FilterValue.ids f.ids).IsMetBy same d "_id"

/-- Whether a filter has all that another one asks for, and perhaps asks for more. -/
structure Extends (g f : Filter) : Prop where
  slug : f.slug = "" ∨ g.slug = f.slug
  state : f.state = "" ∨ g.state = f.state
  style : f.style = "" ∨ g.style = f.style
  isFeatured : f.isFeatured = none ∨ g.isFeatured = f.isFeatured
  categories : f.categories = [] ∨ g.categories = f.categories
  tags : f.tags = [] ∨ g.tags = f.tags
  ids : f.ids = [] ∨ g.ids = f.ids

end Filter

/-! ## Conditions -/

namespace FilterValue

variable {same : Equality} {d : Document} {key : String} {value : FilterValue}

theorem isZero_text {s : String} : (text s).isZero = true ↔ s = "" := by
  simp [isZero]

theorem isZero_flag {b : Option Bool} : (flag b).isZero = true ↔ b = none := by
  simp [isZero]

theorem isZero_ids {texts : List String} : (ids texts).isZero = true ↔ texts = [] := by
  simp [isZero]

/-- A part that asks for nothing is met by every document. -/
theorem isMetBy_of_zero (h : value.isZero = true) : value.IsMetBy same d key := by
  cases value with
  | text s => exact fun hs => absurd (isZero_text.1 h) hs
  | flag b =>
    rintro v rfl
    cases h
  | ids texts => exact fun htexts => absurd (isZero_ids.1 h) htexts

theorem isMetBy_nil_iff : value.IsMetBy same [] key ↔ value.isZero = true := by
  refine ⟨fun h => ?_, isMetBy_of_zero⟩
  have hnothing : ∀ v, ¬ same.HoldsAt [] key v := by
    rintro v ⟨stored, hstored, -⟩
    cases hstored
  cases value with
  | text s => simpa [IsMetBy, isZero, hnothing] using h
  | flag b => cases b <;> simp_all [IsMetBy, isZero]
  | ids texts => simpa [IsMetBy, isZero, hnothing] using h

/-- What meets a part of a filter meets the part that asks for nothing, too. -/
theorem IsMetBy.mono {other : FilterValue} (h : other.IsMetBy same d key)
    (hvalue : value.isZero = true ∨ other = value) : value.IsMetBy same d key := by
  rcases hvalue with hzero | rfl
  · exact isMetBy_of_zero hzero
  · exact h

/-- A list of identifiers without a well-formed entry is met by no document. -/
theorem not_isMetBy_ids {texts : List String} (hne : texts ≠ [])
    (hbad : ∀ text ∈ texts, ObjectId.isWellFormed text = false) (key : String) :
    ¬ (ids texts).IsMetBy same d key := by
  intro hmet
  obtain ⟨text, htext, id, hdenotes, -⟩ := hmet hne
  have hgood := ObjectId.isWellFormed_iff.2 ⟨id, hdenotes⟩
  rw [hbad text htext] at hgood
  cases hgood

theorem condition?_eq_none_iff : value.condition? = none ↔ value.isZero = true := by
  cases value with
  | text s => simp [condition?]
  | flag b => cases b <;> simp [condition?, isZero]
  | ids texts => simp [condition?]

/-- A spelled condition asks for what the part of the filter asks for. -/
theorem meets?_condition (same : Equality) (d : Document) (hkey : isFieldName key = true)
    {c : Condition} (h : value.condition? = some c) :
    ∃ met, same.meets? d (key, Stage.conditionValue c) = some met ∧
      (met = true ↔ value.IsMetBy same d key) := by
  -- a test of what the field holds is all that a condition comes down to
  have hmeets : ∀ {spelled test}, same.test? spelled = some test →
      same.meets? d (key, spelled) = some ((d.lookup key).any test) := by
    intro spelled test htest
    simp [Equality.meets?, htest, hkey]
  have hholds : ∀ v, (d.lookup key).any (same.holds v) = true ↔ same.HoldsAt d key v := by
    intro v
    rw [Option.any_eq_true, Equality.HoldsAt]
  rw [condition?.eq_def] at h
  split at h
  · cases h
  · next hzero =>
    cases value with
    | text s =>
      obtain rfl := Option.some.inj h
      have hs : s ≠ "" := mt isZero_text.2 hzero
      refine ⟨_, hmeets rfl, (hholds _).trans ?_⟩
      simp [IsMetBy, hs, Stage.conditionValue]
    | flag b =>
      obtain ⟨v, rfl, rfl⟩ := Option.map_eq_some_iff.1 h
      refine ⟨_, hmeets rfl, (hholds _).trans ?_⟩
      simp [IsMetBy, Stage.conditionValue]
    | ids texts =>
      obtain rfl := Option.some.inj h
      have htexts : texts ≠ [] := mt isZero_ids.2 hzero
      refine ⟨_, hmeets rfl, ?_⟩
      rw [IsMetBy, Option.any_eq_true]
      constructor
      · rintro ⟨stored, hstored, hlisted⟩ -
        obtain ⟨v, hv, hheld⟩ := List.any_eq_true.1 hlisted
        obtain ⟨id, hid, rfl⟩ := List.mem_map.1 hv
        obtain ⟨text, htext, hdenotes⟩ := ObjectId.mem_ofTexts.1 hid
        exact ⟨text, htext, id, hdenotes, stored, hstored, hheld⟩
      · intro hmet
        obtain ⟨text, htext, id, hdenotes, stored, hstored, hheld⟩ := hmet htexts
        have hid : Value.objectId id ∈ (ObjectId.ofTexts texts).map .objectId :=
          List.mem_map_of_mem (ObjectId.mem_ofTexts.2 ⟨text, htext, hdenotes⟩)
        exact ⟨stored, hstored, List.any_eq_true.2 ⟨_, hid, hheld⟩⟩

end FilterValue

namespace Filter

variable {same : Equality}

/-- The conditions that the parts in a table put are met together when each part is. -/
theorem meetsAll?_conditions (same : Equality) (f : Filter) (d : Document)
    {table : List FilterField} (hkeys : ∀ field ∈ table, isFieldName field.key = true) :
    ∃ met,
      same.meetsAll? d ((table.filterMap fun field =>
        (field.value f).condition?.map fun c => (field.key, c)).map
          fun (key, c) => (key, Stage.conditionValue c)) = some met ∧
      (met = true ↔ ∀ field ∈ table, (field.value f).IsMetBy same d field.key) := by
  induction table with
  | nil => exact ⟨true, rfl, by simp⟩
  | cons field rest ih =>
    obtain ⟨others, hothers, hiff⟩ :=
      ih fun field hfield => hkeys field (List.mem_cons_of_mem _ hfield)
    rw [List.forall_mem_cons, ← hiff]
    cases hc : (field.value f).condition? with
    | none =>
      have hmet : (field.value f).IsMetBy same d field.key :=
        FilterValue.isMetBy_of_zero (FilterValue.condition?_eq_none_iff.1 hc)
      rw [List.filterMap_cons_none (by rw [hc]; rfl)]
      exact ⟨others, hothers, by simp [hmet]⟩
    | some c =>
      obtain ⟨met, hmeets, hmet⟩ :=
        FilterValue.meets?_condition same d (hkeys field List.mem_cons_self) hc
      rw [List.filterMap_cons_some (by rw [hc]; rfl), List.map_cons, Equality.meetsAll?, hmeets,
        hothers]
      refine ⟨met && others, rfl, ?_⟩
      rw [Bool.and_eq_true, hmet]

theorem describes_iff {f : Filter} {d : Document} :
    f.Describes same d ↔ ∀ field ∈ fields, (field.value f).IsMetBy same d field.key := by
  constructor
  · intro h
    simp only [fields, List.forall_mem_cons]
    exact ⟨h.slug, h.state, h.style, h.isFeatured, h.categories, h.tags, h.ids, by simp⟩
  · intro h
    simp only [fields, List.forall_mem_cons] at h
    obtain ⟨hslug, hstate, hstyle, hfeatured, hcategories, htags, hids, -⟩ := h
    exact ⟨hslug, hstate, hstyle, hfeatured, hcategories, htags, hids⟩

/-- A document passes the stage of a filter exactly when the filter describes it. -/
theorem passes?_stages (same : Equality) (f : Filter) (d : Document) :
    ∃ passed, same.passes? d f.stages.toDocuments = some passed ∧
      (passed = true ↔ f.Describes same d) := by
  have hnames : ∀ field ∈ fields, isFieldName field.key = true := by decide
  obtain ⟨met, hmeets, hmet⟩ := meetsAll?_conditions same f d hnames
  rw [describes_iff, ← hmet, stages]
  split
  · next hempty =>
    rw [← conditions, List.isEmpty_iff.1 hempty] at hmeets
    exact ⟨true, rfl, by rw [Option.some.inj hmeets]⟩
  · rw [← conditions] at hmeets
    refine ⟨met, ?_, Iff.rfl⟩
    simp [Pipeline.toDocuments, Stage.toDocument, Equality.passes?, hmeets]

theorem isEmpty_iff {f : Filter} : f.isEmpty = true ↔ f = {} := by
  obtain ⟨slug, state, style, isFeatured, categories, tags, ids⟩ := f
  simp [isEmpty, fields, FilterValue.isZero]

/-- Only the filter that asks for nothing has no stage. -/
theorem stages_eq_nil_iff {f : Filter} : f.stages = [] ↔ f = {} := by
  have hconditions : f.conditions = [] ↔ f = {} := by
    rw [← isEmpty_iff, isEmpty, List.all_eq_true, conditions, List.filterMap_eq_nil_iff]
    simp only [Option.map_eq_none_iff, FilterValue.condition?_eq_none_iff]
  rw [← hconditions, stages]
  split
  · next h => simpa using h
  · next h => simpa using h

/-- The document without fields is described only by the filter that asks for nothing. -/
theorem describes_nil_iff {f : Filter} : f.Describes same [] ↔ f = {} := by
  rw [describes_iff, ← isEmpty_iff, isEmpty, List.all_eq_true]
  simp only [FilterValue.isMetBy_nil_iff]

theorem Describes.of_extends {g f : Filter} {d : Document} (h : g.Describes same d)
    (hext : g.Extends f) : f.Describes same d where
  slug := h.slug.mono (hext.slug.imp FilterValue.isZero_text.2 (congrArg _))
  state := h.state.mono (hext.state.imp FilterValue.isZero_text.2 (congrArg _))
  style := h.style.mono (hext.style.imp FilterValue.isZero_text.2 (congrArg _))
  isFeatured := h.isFeatured.mono (hext.isFeatured.imp FilterValue.isZero_flag.2 (congrArg _))
  categories := h.categories.mono (hext.categories.imp FilterValue.isZero_ids.2 (congrArg _))
  tags := h.tags.mono (hext.tags.imp FilterValue.isZero_ids.2 (congrArg _))
  ids := h.ids.mono (hext.ids.imp FilterValue.isZero_ids.2 (congrArg _))

/-- The stage of a filter passes exactly the documents that the filter describes. There is one stage
at most. Only the filter that asks for nothing has none, and only that one passes every document; a
list without a well-formed entry passes none, and asking for more passes no more. -/
theorem stages_select_described (same : Equality) (f : Filter) :
    (∀ d, ∃ passed, same.passes? d f.stages.toDocuments = some passed ∧
      (passed = true ↔ f.Describes same d)) ∧
    f.stages.length ≤ 1 ∧
    (f.isEmpty = true ↔ f = {}) ∧
    (f.stages = [] ↔ f = {}) ∧
    ((∀ d, same.passes? d f.stages.toDocuments = some true) ↔ f = {}) ∧
    (∀ texts ∈ [f.categories, f.tags, f.ids], texts ≠ [] →
      (∀ text ∈ texts, ObjectId.isWellFormed text = false) →
      ∀ d, same.passes? d f.stages.toDocuments = some false) ∧
    (∀ g : Filter, g.Extends f → ∀ d, same.passes? d g.stages.toDocuments = some true →
      same.passes? d f.stages.toDocuments = some true) := by
  have htrue : ∀ (g : Filter) d,
      same.passes? d g.stages.toDocuments = some true ↔ g.Describes same d := by
    intro g d
    obtain ⟨passed, hpasses, hiff⟩ := passes?_stages same g d
    rw [hpasses, Option.some.injEq, hiff]
  have hfalse : ∀ d, ¬ f.Describes same d → same.passes? d f.stages.toDocuments = some false := by
    intro d hnot
    obtain ⟨passed, hpasses, hiff⟩ := passes?_stages same f d
    rw [hpasses, Option.some.injEq, ← Bool.not_eq_true, hiff]
    exact hnot
  refine ⟨passes?_stages same f, ?_, isEmpty_iff, stages_eq_nil_iff, ?_, ?_, ?_⟩
  · rw [stages]
    split <;> simp
  · constructor
    · intro h
      exact describes_nil_iff.1 ((htrue f []).1 (h []))
    · rintro rfl d
      rfl
  · intro texts htexts hne hbad d
    have hnot : ∀ key, ¬ (FilterValue.ids texts).IsMetBy same d key :=
      FilterValue.not_isMetBy_ids hne hbad
    simp only [List.mem_cons, List.not_mem_nil, or_false] at htexts
    rcases htexts with rfl | rfl | rfl
    · exact hfalse d fun h => hnot _ h.categories
    · exact hfalse d fun h => hnot _ h.tags
    · exact hfalse d fun h => hnot _ h.ids
  · intro g hext d h
    exact (htrue f d).2 (((htrue g d).1 h).of_extends hext)

theorem stages_select_published :
    (∀ d, Equality.literal.passes? d
      (Filter.stages { state := "published", tags := ["zz"] }).toDocuments = some false) ∧
    Equality.literal.passes?
      [("isFeatured", .array [.null, .boolean true]), ("state", .string "published")]
      (Filter.stages { state := "published" }).toDocuments = some true := by
  obtain ⟨-, -, -, -, -, hnone, -⟩ :=
    stages_select_described Equality.literal { state := "published", tags := ["zz"] }
  obtain ⟨-, -, -, -, -, -, hmore⟩ :=
    stages_select_described Equality.literal { state := "published" }
  refine ⟨hnone ["zz"] (by simp) (by simp) (by decide), ?_⟩
  exact hmore { state := "published", isFeatured := some true }
    ⟨by simp, by simp, by simp, by simp, by simp, by simp, by simp⟩ _ (by decide)

end Filter

end NewsService
