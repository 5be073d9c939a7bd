import NewsService.Proofs.Pipeline.Layout

/-!
# Bounded pipelines

What keeps a pipeline from taking in a whole collection: a limit in front of every join, and joins
that are nested to a certain depth only. Main statement: the pipeline of a query is bounded when its
window is.
-/

namespace NewsService

mutual

/-- How deep the pipelines inside a stage are nested. -/
def Stage.nesting : Stage → Nat
  | .joinThrough _ _ pipeline => nestingOf pipeline + 1
  | _ => 0

/-- How deep the pipelines inside some stages are nested. -/
def Stage.nestingOf : List Stage → Nat
  | [] => 0
  | stage :: rest => max (nesting stage) (nestingOf rest)

end

namespace Pipeline

/-- The limits in a pipeline, those of pipelines inside it aside. -/
def limits (pipeline : Pipeline) : List Int64 :=
  pipeline.filterMap fun
    | .limit n => some n
    | _ => none

/-- What the stages of a pipeline skip, those of pipelines inside it aside. -/
def skips (pipeline : Pipeline) : List Int64 :=
  pipeline.filterMap fun
    | .skip n => some n
    | _ => none

/-- Whether a pipeline counts. -/
def counts (pipeline : Pipeline) : Bool :=
  pipeline.any fun
    | .count _ => true
    | _ => false

/-- Whether a pipeline shows just the given window of what it finds, of at most `greatest`
documents, and joins to that window only what `depth` nested joins lead to. -/
structure Bounded (greatest : Int64) (depth : Nat) (w : Window) (pipeline : Pipeline) : Prop where
  limits : pipeline.limits = [w.limit]
  one_le_limit : 1 ≤ w.limit
  limit_le : w.limit ≤ greatest
  skips : w.offset = 0 ∧ pipeline.skips = [] ∨ 0 < w.offset ∧ pipeline.skips = [w.offset]
  before_joins : ∃ before after, pipeline = before ++ .limit w.limit :: after ∧
    ∀ stage ∈ before, stage.isJoining = false
  nesting : Stage.nestingOf pipeline ≤ depth

end Pipeline

/-! ## Nesting -/

theorem Stage.nestingOf_le {pipeline : Pipeline} {n : Nat} :
    nestingOf pipeline ≤ n ↔ ∀ stage ∈ pipeline, stage.nesting ≤ n := by
  induction pipeline with
  | nil => simp [nestingOf]
  | cons stage rest ih => rw [nestingOf, Nat.max_le, ih, List.forall_mem_cons]

theorem Stage.nesting_of_place {stage : Stage} (h : stage.place < 4) : stage.nesting = 0 := by
  cases stage with
  | joinThrough => simp [place] at h
  | _ => rfl

/-- Joins are nested no deeper than they are followed. -/
theorem Join.nesting_le (depth : Nat) (j : Join) :
    ∀ stage ∈ j.stages depth, stage.nesting ≤ depth := by
  induction depth generalizing j with
  | zero =>
    obtain ⟨field, collection, shape⟩ := j
    cases shape <;> simp [stages, Stage.nesting]
  | succ remaining ih =>
    obtain ⟨field, collection, shape⟩ := j
    cases shape with
    | one => simp [stages, Stage.nesting]
    | many => simp [stages, Stage.nesting]
    | nested kind =>
      have hinside : Stage.nestingOf
          (.selectReferenced :: (kind.nestedJoins remaining).flatMap (Join.stages remaining)) ≤
            remaining := by
        rw [Stage.nestingOf_le, List.forall_mem_cons]
        refine ⟨Nat.zero_le _, fun stage hstage => ?_⟩
        obtain ⟨inner, -, hinner⟩ := List.mem_flatMap.1 hstage
        exact ih inner stage hinner
      simpa [stages, Stage.nesting] using hinside

/-! ## Limits, skips and counts -/

namespace Pipeline

variable {p : Pipeline}

theorem limits_append (p r : Pipeline) : limits (p ++ r) = limits p ++ limits r :=
  List.filterMap_append

theorem limits_cons_limit (n : Int64) (p : Pipeline) : limits (.limit n :: p) = n :: limits p := rfl

theorem skips_append (p r : Pipeline) : skips (p ++ r) = skips p ++ skips r :=
  List.filterMap_append

theorem limits_of_place (h : ∀ stage ∈ p, stage.place ≠ 3) : p.limits = [] := by
  refine List.filterMap_eq_nil_iff.2 fun stage hstage => ?_
  cases stage with
  | limit n => exact absurd rfl (h _ hstage)
  | _ => rfl

theorem skips_of_place (h : ∀ stage ∈ p, stage.place ≠ 2) : p.skips = [] := by
  refine List.filterMap_eq_nil_iff.2 fun stage hstage => ?_
  cases stage with
  | skip n => exact absurd rfl (h _ hstage)
  | _ => rfl

theorem counts_of_place (h : ∀ stage ∈ p, stage.place < 5) : p.counts = false := by
  refine List.any_eq_false.2 fun stage hstage => ?_
  cases stage with
  | count key => exact absurd (h _ hstage) (by simp [Stage.place])
  | _ => simp

end Pipeline

/-! ## Queries -/

namespace Query

theorem counts_pipeline (q : Query) (kind : Kind) (depth : Nat) :
    (q.pipeline kind depth).counts = false :=
  Pipeline.counts_of_place place_of_mem_pipeline

theorem counts_countPipeline (q : Query) : q.countPipeline.counts = true := by
  rw [countPipeline, Pipeline.counts, List.any_append]
  simp

/-- The pipeline of a query is bounded when its window is. -/
theorem bounded_pipeline {q : Query} (kind : Kind) (depth : Nat) {greatest : Int64}
    (hoffset : 0 ≤ q.window.offset) (hlimit : 1 ≤ q.window.limit)
    (hgreatest : q.window.limit ≤ greatest) :
    (q.pipeline kind depth).Bounded greatest depth q.window := by
  have hpos : 0 < q.window.limit := by
    rw [Int64.le_iff_toInt_le, Int64.toInt_one] at hlimit
    rw [Int64.lt_iff_toInt_lt, Int64.toInt_zero]
    omega
  -- the limit parts the pipeline into what stands before it and the joins
  let front := q.filter.stages ++ q.sort.stages ++ Window.side .skip q.window.offset
  let joins := kind.joinStages q.expansion depth
  have hpipeline : q.pipeline kind depth = front ++ .limit q.window.limit :: joins := by
    rw [pipeline, stages, Window.stages_eq, Window.side.eq_def .limit, if_pos hpos]
    simp [front, joins]
  have hfront : ∀ stage ∈ front, stage.place < 3 := by
    intro stage hstage
    rcases List.mem_append.1 hstage with hchoice | hskip
    · exact Nat.lt_succ_of_lt (place_of_mem_choice stage hchoice)
    · rw [(Window.mem_side.1 hskip).2, Stage.place]
      decide
  have hjoins : ∀ stage ∈ joins, stage.place = 4 := Kind.place_of_mem_joinStages
  refine ⟨?_, hlimit, hgreatest, ?_, ⟨front, joins, hpipeline, ?_⟩, ?_⟩
  · have hnone : front.limits = [] := Pipeline.limits_of_place fun s hs h => by
      have := hfront s hs
      omega
    have hlast : joins.limits = [] := Pipeline.limits_of_place fun s hs h => by
      have := hjoins s hs
      omega
    rw [hpipeline, Pipeline.limits_append, hnone, Pipeline.limits_cons_limit, hlast]
    rfl
  · have hchoice : Pipeline.skips (q.filter.stages ++ q.sort.stages) = [] :=
      Pipeline.skips_of_place fun s hs h => by
        have := place_of_mem_choice s hs
        omega
    have hlast : Pipeline.skips (.limit q.window.limit :: joins) = [] :=
      Pipeline.skips_of_place fun s hs h => by
        rcases List.mem_cons.1 hs with rfl | hs
        · cases h
        · have := hjoins s hs
          omega
    have hskips : (q.pipeline kind depth).skips = (Window.side .skip q.window.offset).skips := by
      rw [hpipeline, Pipeline.skips_append, Pipeline.skips_append, hchoice, hlast, List.append_nil,
        List.nil_append]
    rw [hskips, Window.side]
    by_cases hskip : 0 < q.window.offset
    · rw [if_pos hskip]
      exact Or.inr ⟨hskip, rfl⟩
    · rw [if_neg hskip]
      exact Or.inl ⟨Int64.le_antisymm (Int64.not_lt.1 hskip) hoffset, rfl⟩
  · intro stage hstage
    rw [← Bool.not_eq_true, Stage.isJoining_iff]
    have := hfront stage hstage
    omega
  · rw [Stage.nestingOf_le, hpipeline]
    intro stage hstage
    rcases List.mem_append.1 hstage with hstage | hstage
    · rw [Stage.nesting_of_place (Nat.lt_succ_of_lt (hfront stage hstage))]
      exact Nat.zero_le _
    · rcases List.mem_cons.1 hstage with rfl | hstage
      · exact Nat.zero_le _
      · obtain ⟨j, -, hj⟩ := List.mem_flatMap.1 hstage
        exact Join.nesting_le depth j stage hj

end Query

end NewsService
