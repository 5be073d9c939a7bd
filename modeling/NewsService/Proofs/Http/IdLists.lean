import NewsService.Proofs.Document.Fields
import NewsService.Proofs.Http.Bounds
import NewsService.Proofs.ObjectId.Text
import NewsService.Proofs.Pipeline.Layout
import NewsService.Proofs.Text.CommaList

/-!
# Lists of identifiers in requests

Three parameters of a list hold identifiers between commas: those of categories, of tags and of the
records themselves. Main statement: however such a list is written, the pipeline asks for exactly
the identifiers in it; entries that are none are passed over, but a list that has any entry asks for
something.
-/

namespace NewsService

/-! ## Conditions of a pipeline -/

/-- Whether spelled stages put a condition on a field: their only match holds it under the key. -/
def Pipeline.HasCondition (stages : List Document) (key : String) (condition : Value) : Prop :=
  ∃ conditions, stages.filter (Stage.isUnder "$match") = [[("$match", .document conditions)]] ∧
    conditions.lookup key = some condition

/-! ## The condition of a filter -/

theorem Filter.filter_match_stages (f : Filter) :
    (Pipeline.toDocuments f.stages).filter (Stage.isUnder "$match") =
      Pipeline.toDocuments f.stages := by
  rw [List.filter_eq_self]
  intro stage hstage
  obtain ⟨spelled, hspelled, rfl⟩ := List.mem_map.1 hstage
  have hplace := place_of_mem_stages spelled hspelled
  rw [Stage.isUnder_match (by omega), hplace]
  decide

/-- A filter puts on a field the condition of its part for the field, if it has one. -/
theorem Filter.hasCondition_iff {f : Filter} {stages : List Document}
    (hstages : stages.filter (Stage.isUnder "$match") = Pipeline.toDocuments f.stages)
    {field : FilterField} (hfield : field ∈ Filter.fields) {condition : Value} :
    Pipeline.HasCondition stages field.key condition ↔
      (field.value f).condition?.map Stage.conditionValue = some condition := by
  have hlookup : (f.conditions.map fun entry =>
      (entry.1, Stage.conditionValue entry.2)).lookup field.key =
      (field.value f).condition?.map Stage.conditionValue := by
    rw [← lookup_filterMap_keyed FilterField.key (by decide)
      (fun field => (field.value f).condition?.map Stage.conditionValue) hfield, conditions,
      List.map_filterMap]
    simp only [Option.map_map]
    rfl
  rw [Pipeline.HasCondition, hstages, Filter.stages, ← hlookup]
  cases hconditions : f.conditions with
  | nil => simp [Pipeline.toDocuments]
  | cons first rest => simp [Pipeline.toDocuments, Stage.toDocument]

theorem Query.filter_match_countPipeline (q : Query) :
    (Pipeline.toDocuments q.countPipeline).filter (Stage.isUnder "$match") =
      Pipeline.toDocuments q.filter.stages := by
  have hcount : [[("$count", Value.string totalKey)]].filter (Stage.isUnder "$match") = [] := rfl
  rw [q.countPipeline_toDocuments .post 0, filter_match_pipeline, List.filter_append,
    Filter.filter_match_stages, hcount, List.append_nil]

namespace Http.ListParams

open Pipeline (HasCondition)

/-! ## Parameters -/

/-- The parameters that list identifiers, each with the key of the field that it is about. -/
def idLists (p : ListParams) : List (Option String × String) :=
  [(p.categoryId, "categories"), (p.tagId, "tags"), (p.id, "_id")]

/-- Whether a text writes identifiers: of the entries that it lists, of which there are some, the
well-formed ones denote the identifiers, one by one. -/
def WritesIds (text : String) (ids : List ObjectId) : Prop :=
  ∃ entries, Text.ListsEntries text entries ∧ entries ≠ [] ∧ ObjectId.DenoteList entries ids

variable {p : ListParams} {limits : Limits} {q : Query} {text : String}

/-- What a parameter that lists identifiers asks for. -/
theorem condition?_entries (parameter : Option String) :
    (FilterValue.ids (entries parameter)).condition?.map Stage.conditionValue =
      if entries parameter = [] then none
      else some (.document
        [("$in", .array ((ObjectId.ofTexts (entries parameter)).map .objectId))]) := by
  by_cases h : entries parameter = []
  · simp [FilterValue.condition?, FilterValue.isZero, h]
  · simp [FilterValue.condition?, FilterValue.isZero, h, Stage.conditionValue]

theorem entries_eq_nil_iff {parameter : Option String} :
    entries parameter = [] ↔ ∀ text, parameter = some text → Text.ListsEntries text [] := by
  cases parameter with
  | none => simp [entries]
  | some text => simp [entries, Text.commaEntries_eq_iff]

theorem hasCondition_of_mem_idLists {stages : List Document} {list : Option String × String}
    (hstages : stages.filter (Stage.isUnder "$match") = Pipeline.toDocuments p.filter.stages)
    (hlist : list ∈ p.idLists) {condition : Value} :
    HasCondition stages list.2 condition ↔
      entries list.1 ≠ [] ∧ condition = .document
        [("$in", .array ((ObjectId.ofTexts (entries list.1)).map .objectId))] := by
  have hfield : ∃ field ∈ Filter.fields, field.key = list.2 ∧
      field.value p.filter = .ids (entries list.1) := by
    simp only [idLists, List.mem_cons, List.not_mem_nil, or_false] at hlist
    rcases hlist with rfl | rfl | rfl
    · exact ⟨⟨"categories", fun f => .ids f.categories⟩, by simp [Filter.fields], rfl, rfl⟩
    · exact ⟨⟨"tags", fun f => .ids f.tags⟩, by simp [Filter.fields], rfl, rfl⟩
    · exact ⟨⟨"_id", fun f => .ids f.ids⟩, by simp [Filter.fields], rfl, rfl⟩
  obtain ⟨field, hfield, hkey, hvalue⟩ := hfield
  rw [← hkey, Filter.hasCondition_iff hstages hfield, hvalue, condition?_entries]
  by_cases h : entries list.1 = []
  · simp [h]
  · simp [h, eq_comm]

/-- However a list of identifiers is written, the pipeline asks for exactly these: in their order,
with repetitions, and for none of them when no entry is well formed. There is no such condition just
when the parameter is missing or lists no entries. The counting pipeline has the same conditions.
Entries are not empty, have no commas, and neither begin nor end with blanks; joined by commas they
are read as themselves. -/
theorem id_lists_reach_pipeline (p : ListParams) (limits : Limits) :
    ((∃ q, p.toQuery limits = .ok q) ↔
      ∀ text, p.sort = some text → ∃ order, SortOrder.parse text = .ok order) ∧
    (∀ q, p.toQuery limits = .ok q → ∀ kind depth,
      ∀ stages ∈ [(q.pipeline kind depth).toDocuments, Pipeline.toDocuments q.countPipeline],
      ∀ list ∈ p.idLists,
        (∀ text ids, list.1 = some text → WritesIds text ids →
          HasCondition stages list.2 (.document [("$in", .array (ids.map .objectId))])) ∧
        ((∀ condition, ¬ HasCondition stages list.2 condition) ↔
          ∀ text, list.1 = some text → Text.ListsEntries text [])) ∧
    ∀ text, (∀ entry ∈ entries (some text), Text.IsEntry entry) ∧
      entries (some (",".intercalate (entries (some text)))) = entries (some text) := by
  refine ⟨exists_toQuery_iff, fun q hq kind depth stages hstages list hlist => ?_, fun text => ?_⟩
  · have hmatch : stages.filter (Stage.isUnder "$match") =
        Pipeline.toDocuments p.filter.stages := by
      rw [← filter_of_toQuery hq]
      rcases List.mem_pair.1 hstages with rfl | rfl
      · exact Query.filter_match_pipeline q kind depth
      · exact q.filter_match_countPipeline
    have hcondition : ∀ {condition}, HasCondition stages list.2 condition ↔ _ :=
      hasCondition_of_mem_idLists hmatch hlist
    constructor
    · rintro text ids htext ⟨listed, hlisted, hne, hids⟩
      have hentries : entries list.1 = listed := by
        rw [htext]
        exact Text.commaEntries_eq_iff.2 hlisted
      rw [hcondition, hentries, ObjectId.denoteList_iff.1 hids]
      exact ⟨hne, rfl⟩
    · rw [← entries_eq_nil_iff]
      constructor
      · intro hnone
        refine Decidable.byContradiction fun hne => ?_
        exact hnone _ (hcondition.2 ⟨hne, rfl⟩)
      · intro hnil condition hsome
        exact (hcondition.1 hsome).1 hnil
  · have hentries : ∀ entry ∈ entries (some text), Text.IsEntry entry :=
      fun entry hentry => Text.isEntry_of_mem_commaEntries hentry
    exact ⟨hentries, Text.commaEntries_eq_iff.2 (Text.listsEntries_join hentries)⟩

/-- The identifier of a category. -/
def category : ObjectId :=
  ⟨List.replicate 12 10, rfl⟩

/-- Parameters that name the category twice, no tag, and nothing at all. -/
def twice : ListParams where
  categoryId := some "zz, 0A0A0A0A0A0A0A0A0A0A0A0A,,\u30000a0a0a0a0a0a0a0a0a0a0a0a"
  tagId := some "0a0a ,"
  id := some ", ,"

theorem id_lists_reach_pipeline_twice (limits : Limits) :
    ∃ q, twice.toQuery limits = .ok q ∧
      HasCondition (q.pipeline .post 1).toDocuments "categories"
        (.document [("$in", .array [.objectId category, .objectId category])]) ∧
      HasCondition (q.pipeline .post 1).toDocuments "tags" (.document [("$in", .array [])]) ∧
      ∀ condition, ¬ HasCondition (q.pipeline .post 1).toDocuments "_id" condition := by
  obtain ⟨hquery, hlists, -⟩ := id_lists_reach_pipeline twice limits
  obtain ⟨q, hq⟩ := hquery.2 nofun
  have hstages := hlists q hq .post 1 _ List.mem_cons_self
  have hcategories : WritesIds "zz, 0A0A0A0A0A0A0A0A0A0A0A0A,,\u30000a0a0a0a0a0a0a0a0a0a0a0a"
      [category, category] :=
    ⟨_, Text.listsEntries_commaEntries _, by decide, ObjectId.denoteList_iff.2 (by decide)⟩
  have htags : WritesIds "0a0a ," [] :=
    ⟨_, Text.listsEntries_commaEntries _, by decide, ObjectId.denoteList_iff.2 (by decide)⟩
  have hids : Text.ListsEntries ", ," [] := Text.commaEntries_eq_iff.1 (by decide)
  have hcategory : (twice.categoryId, "categories") ∈ twice.idLists := List.mem_cons_self
  have htag : (twice.tagId, "tags") ∈ twice.idLists :=
    List.mem_cons_of_mem _ List.mem_cons_self
  have hid : (twice.id, "_id") ∈ twice.idLists :=
    List.mem_cons_of_mem _ (List.mem_cons_of_mem _ List.mem_cons_self)
  refine ⟨q, hq, (hstages _ hcategory).1 _ _ rfl hcategories, (hstages _ htag).1 _ _ rfl htags,
    (hstages _ hid).2.2 fun text htext => ?_⟩
  rwa [← Option.some.inj htext]

end Http.ListParams

end NewsService
