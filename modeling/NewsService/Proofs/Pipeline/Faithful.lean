import NewsService.Proofs.Document.Fields
import NewsService.Proofs.ObjectId.Text
import NewsService.Proofs.Pipeline.Layout
import NewsService.Proofs.Pipeline.Spelling

/-!
# Queries with the same pipeline

Two queries mean the same when they differ only in what no document store could tell apart:
malformed texts of identifiers, the case of digits, bounds of a window that are not positive, and
the expansion of records without further joins. Main statement: queries that mean the same have the
same pipeline, and no others have.
-/

namespace NewsService

/-! ## Queries that mean the same -/

/-- Whether two lists of texts ask for the same identifiers: for none at all, or for those of one
list, in its order. -/
def SameIds (a b : List String) : Prop :=
  (a = [] ∧ b = []) ∨
    (a ≠ [] ∧ b ≠ [] ∧ ∃ ids, ObjectId.DenoteList a ids ∧ ObjectId.DenoteList b ids)

/-- Whether two filters mean the same. -/
structure Filter.Agrees (f g : Filter) : Prop where
  slug : f.slug = g.slug
  state : f.state = g.state
  style : f.style = g.style
  isFeatured : f.isFeatured = g.isFeatured
  categories : SameIds f.categories g.categories
  tags : SameIds f.tags g.tags
  ids : SameIds f.ids g.ids

/-- Whether two queries mean the same, their expansion aside. -/
structure Query.Agrees (q r : Query) : Prop where
  filter : q.filter.Agrees r.filter
  sort : q.sort = r.sort
  offset : max q.window.offset 0 = max r.window.offset 0
  limit : max q.window.limit 0 = max r.window.limit 0

/-! ## Filters -/

namespace FilterValue

theorem text_condition?_inj {s t : String} :
    (text s).condition? = (text t).condition? ↔ s = t := by
  by_cases hs : s = "" <;> by_cases ht : t = "" <;>
    simp [condition?, isZero, hs, ht, Ne.symm]

theorem flag_condition?_inj {b c : Option Bool} :
    (flag b).condition? = (flag c).condition? ↔ b = c := by
  cases b <;> cases c <;> simp [condition?, isZero]

theorem ids_condition?_inj {a b : List String} :
    (ids a).condition? = (ids b).condition? ↔ SameIds a b := by
  simp only [SameIds, ObjectId.denoteList_iff]
  by_cases ha : a = [] <;> by_cases hb : b = [] <;> simp [condition?, isZero, ha, hb]

end FilterValue

namespace Filter

theorem conditions_inj {f g : Filter} : f.conditions = g.conditions ↔ f.Agrees g := by
  rw [conditions, conditions, filterMap_keyed_inj FilterField.key (by decide)]
  simp only [fields, List.forall_mem_cons, FilterValue.text_condition?_inj,
    FilterValue.flag_condition?_inj, FilterValue.ids_condition?_inj]
  constructor
  · rintro ⟨hslug, hstate, hstyle, hfeatured, hcategories, htags, hids, -⟩
    exact ⟨hslug, hstate, hstyle, hfeatured, hcategories, htags, hids⟩
  · rintro ⟨hslug, hstate, hstyle, hfeatured, hcategories, htags, hids⟩
    exact ⟨hslug, hstate, hstyle, hfeatured, hcategories, htags, hids, by simp⟩

theorem stages_inj {f g : Filter} : f.stages = g.stages ↔ f.Agrees g := by
  rw [← conditions_inj, stages, stages]
  cases f.conditions <;> cases g.conditions <;> simp

end Filter

/-! ## Orders and windows -/

theorem SortOrder.stages_inj {s t : SortOrder} : s.stages = t.stages ↔ s = t := by
  have hkeys : s.keys = t.keys ↔ s = t := by
    rw [keys, keys, filterMap_keyed_inj SortField.key (by decide)]
    obtain ⟨published, updated⟩ := s
    obtain ⟨published', updated'⟩ := t
    simp [fields]
  rw [← hkeys, stages, stages]
  cases s.keys <;> cases t.keys <;> simp

theorem Window.side_inj {make : Int64 → Stage} (hmake : Function.Injective make) {m n : Int64} :
    side make m = side make n ↔ max m 0 = max n 0 := by
  have hmax : ∀ n : Int64, max n 0 = if 0 < n then n else 0 := by
    intro n
    change (if n ≤ 0 then 0 else n) = _
    by_cases hn : 0 < n
    · rw [if_pos hn, if_neg (Int64.not_le.2 hn)]
    · rw [if_neg hn, if_pos (Int64.not_lt.1 hn)]
  have hne : ∀ n : Int64, 0 < n → n ≠ 0 := by
    rintro n hn rfl
    exact absurd hn (by decide)
  rw [side, side, hmax, hmax]
  by_cases hm : 0 < m <;> by_cases hn : 0 < n
  · simp [hm, hn, hmake.eq_iff]
  · simp [hm, hn, hne m hm]
  · simp [hm, hn, (hne n hn).symm]
  · simp [hm, hn]

theorem Window.stages_inj {w v : Window} :
    w.stages = v.stages ↔ max w.offset 0 = max v.offset 0 ∧ max w.limit 0 = max v.limit 0 := by
  have hskip : Function.Injective Stage.skip := fun _ _ => Stage.skip.inj
  have hlimit : Function.Injective Stage.limit := fun _ _ => Stage.limit.inj
  have hfront : ∀ n, ∀ s ∈ side .skip n, s.place < 3 := by
    intro n s hs
    have hplace : s.place = 2 := by rw [(mem_side.1 hs).2, Stage.place]
    omega
  have hback : ∀ n, ∀ s ∈ side .limit n, 3 ≤ s.place := by
    intro n s hs
    have hplace : s.place = 3 := by rw [(mem_side.1 hs).2, Stage.place]
    omega
  rw [stages_eq, stages_eq,
    Pipeline.append_eq_append_iff 3 (hfront _) (hback _) (hfront _) (hback _), side_inj hskip,
    side_inj hlimit]

/-! ## Joins -/

/-- Both expansions of a kind have the same joining stages only where the full one adds none. -/
theorem Kind.joinStages_inj {kind : Kind} {expansion expansion' : Expansion} {depth : Nat} :
    kind.joinStages expansion depth = kind.joinStages expansion' depth ↔
      kind = .author ∨ expansion = expansion' := by
  have hlength : ∀ kind : Kind, kind ≠ .author →
      (kind.joinStages .summary depth).length < (kind.joinStages .full depth).length := by
    intro kind hkind
    rw [joinStages, joinStages, JoinGraph.joins, JoinGraph.joins, List.flatMap_append,
      List.length_append]
    refine Nat.lt_add_of_pos_right ?_
    cases kind with
    | post => simp [joinGraph, Join.stages]
    | topic => simp [joinGraph, Join.stages]
    | author => exact absurd rfl hkind
  constructor
  · intro h
    refine Decidable.or_iff_not_imp_left.2 fun hkind => ?_
    have hlt := hlength kind hkind
    cases expansion <;> cases expansion' <;> simp_all
  · rintro (rfl | rfl)
    · cases expansion <;> cases expansion' <;> rfl
    · rfl

theorem Query.expansion_inj {q r : Query} : q.expansion = r.expansion ↔ q.full = r.full := by
  rw [expansion, expansion]
  cases q.full <;> cases r.full <;> simp

/-! ## Pipelines -/

theorem Pipeline.toDocuments_inj {p q : Pipeline} : p.toDocuments = q.toDocuments ↔ p = q := by
  constructor
  · intro h
    have hread := congrArg ofDocuments? h
    rw [ofDocuments?_toDocuments, ofDocuments?_toDocuments] at hread
    exact Option.some.inj hread
  · rintro rfl
    rfl

namespace Query

theorem stages_inj {q r : Query} : q.stages = r.stages ↔ q.Agrees r := by
  have hwindow : ∀ q : Query, ∀ s ∈ q.window.stages, 2 ≤ s.place := by
    intro q s hs
    rcases Window.place_of_mem_stages s hs with h | h <;> omega
  have hfilter : ∀ q : Query, ∀ s ∈ q.filter.stages, s.place < 1 := by
    intro q s hs
    rw [Filter.place_of_mem_stages s hs]
    decide
  have hsort : ∀ q : Query, ∀ s ∈ q.sort.stages, 1 ≤ s.place := fun q s hs =>
    Nat.le_of_eq (SortOrder.place_of_mem_stages s hs).symm
  rw [stages, stages,
    Pipeline.append_eq_append_iff 2 place_of_mem_choice (hwindow q) place_of_mem_choice (hwindow r),
    Pipeline.append_eq_append_iff 1 (hfilter q) (hsort q) (hfilter r) (hsort r),
    Filter.stages_inj, SortOrder.stages_inj, Window.stages_inj]
  constructor
  · rintro ⟨⟨hfilters, hsorts⟩, hoffsets, hlimits⟩
    exact ⟨hfilters, hsorts, hoffsets, hlimits⟩
  · rintro ⟨hfilters, hsorts, hoffsets, hlimits⟩
    exact ⟨⟨hfilters, hsorts⟩, hoffsets, hlimits⟩

/-- Queries have the same pipeline exactly when they mean the same, the same pipeline without joins
exactly when they do their expansion aside, and the same counting pipeline exactly when their
filters do. -/
theorem pipelines_faithful (q r : Query) (kind : Kind) (depth : Nat) :
    ((q.pipeline kind depth).toDocuments = (r.pipeline kind depth).toDocuments ↔
      q.Agrees r ∧ (kind = .author ∨ q.full = r.full)) ∧
    (q.stages.toDocuments = r.stages.toDocuments ↔ q.Agrees r) ∧
    (q.countPipeline.toDocuments = r.countPipeline.toDocuments ↔ q.filter.Agrees r.filter) := by
  rw [Pipeline.toDocuments_inj, Pipeline.toDocuments_inj, Pipeline.toDocuments_inj]
  refine ⟨?_, stages_inj, ?_⟩
  · have hjoins : ∀ q : Query, ∀ s ∈ kind.joinStages q.expansion depth, 4 ≤ s.place :=
      fun q s hs => Nat.le_of_eq (Kind.place_of_mem_joinStages s hs).symm
    rw [pipeline, pipeline,
      Pipeline.append_eq_append_iff 4 place_of_mem_stages (hjoins q) place_of_mem_stages (hjoins r),
      stages_inj, Kind.joinStages_inj, expansion_inj]
  · rw [countPipeline, countPipeline, List.append_left_inj, Filter.stages_inj]

end Query

end NewsService
