import NewsService.Pipeline.Compile

/-!
# The layout of a pipeline

Every stage of a query has its place: conditions, order, the two sides of the window, joins. The
parts of a query stand in the order of their places, so each part can be told apart in a pipeline.
-/

namespace NewsService

namespace Stage

/-- Whether a stage is one of those that joins consist of. -/
def isJoining : Stage → Bool
  | .join .. | .unwind .. | .joinThrough .. => true
  | _ => false

/-- The place of a stage among those of a query. -/
def place : Stage → Nat
  | .select _ => 0
  | .sort _ => 1
  | .skip _ => 2
  | .limit _ => 3
  | .join .. | .unwind .. | .joinThrough .. => 4
  | .selectReferenced | .count _ => 5

theorem isJoining_iff {stage : Stage} : stage.isJoining = true ↔ stage.place = 4 := by
  cases stage <;> simp [isJoining, place]

end Stage

theorem Join.isJoining_of_mem_stages {j : Join} {depth : Nat} :
    ∀ stage ∈ j.stages depth, stage.isJoining = true := by
  obtain ⟨field, collection, shape⟩ := j
  cases shape with
  | one => simp [stages, Stage.isJoining]
  | many => simp [stages, Stage.isJoining]
  | nested kind => cases depth <;> simp [stages, Stage.isJoining]

/-! ## The places of the parts -/

theorem Filter.place_of_mem_stages {f : Filter} : ∀ stage ∈ f.stages, stage.place = 0 := by
  rw [stages]
  split <;> simp [Stage.place]

theorem SortOrder.place_of_mem_stages {s : SortOrder} : ∀ stage ∈ s.stages, stage.place = 1 := by
  rw [stages]
  split <;> simp [Stage.place]

/-- The stage for one side of a window: none for a value that is not positive. -/
def Window.side (make : Int64 → Stage) (n : Int64) : Pipeline :=
  if 0 < n then [make n] else []

theorem Window.stages_eq (w : Window) :
    w.stages = side .skip w.offset ++ side .limit w.limit := rfl

theorem Window.mem_side {make : Int64 → Stage} {n : Int64} {stage : Stage} :
    stage ∈ side make n ↔ 0 < n ∧ stage = make n := by
  rw [side]
  split <;> simp [*]

theorem Window.place_of_mem_stages {w : Window} :
    ∀ stage ∈ w.stages, stage.place = 2 ∨ stage.place = 3 := by
  intro stage hstage
  rw [stages_eq, List.mem_append, mem_side, mem_side] at hstage
  rcases hstage with ⟨-, rfl⟩ | ⟨-, rfl⟩
  · exact Or.inl rfl
  · exact Or.inr rfl

theorem Query.place_of_mem_choice {q : Query} :
    ∀ stage ∈ q.filter.stages ++ q.sort.stages, stage.place < 2 := by
  intro stage hstage
  rcases List.mem_append.1 hstage with hfilter | hsort
  · rw [Filter.place_of_mem_stages stage hfilter]
    decide
  · rw [SortOrder.place_of_mem_stages stage hsort]
    decide

theorem Query.place_of_mem_stages {q : Query} : ∀ stage ∈ q.stages, stage.place < 4 := by
  intro stage hstage
  rcases List.mem_append.1 hstage with hchoice | hwindow
  · exact Nat.lt_of_lt_of_le (place_of_mem_choice stage hchoice) (by decide)
  · rcases Window.place_of_mem_stages stage hwindow with h | h <;> omega

theorem Kind.place_of_mem_joinStages {kind : Kind} {expansion : Expansion} {depth : Nat} :
    ∀ stage ∈ kind.joinStages expansion depth, stage.place = 4 := by
  intro stage hstage
  obtain ⟨j, -, hj⟩ := List.mem_flatMap.1 hstage
  exact Stage.isJoining_iff.1 (Join.isJoining_of_mem_stages stage hj)

theorem Query.place_of_mem_pipeline {q : Query} {kind : Kind} {depth : Nat} :
    ∀ stage ∈ q.pipeline kind depth, stage.place < 5 := by
  intro stage hstage
  rcases List.mem_append.1 hstage with hstage | hjoin
  · exact Nat.lt_succ_of_lt (place_of_mem_stages stage hstage)
  · rw [Kind.place_of_mem_joinStages stage hjoin]
    decide

/-! ## Telling parts apart -/

/-- Two parts, one before a place and one from it on, can be told apart. -/
theorem Pipeline.append_eq_append_iff (k : Nat) {a b c d : Pipeline} (ha : ∀ s ∈ a, s.place < k)
    (hb : ∀ s ∈ b, k ≤ s.place) (hc : ∀ s ∈ c, s.place < k) (hd : ∀ s ∈ d, k ≤ s.place) :
    a ++ b = c ++ d ↔ a = c ∧ b = d := by
  have hfront : ∀ {x y : Pipeline}, (∀ s ∈ x, s.place < k) → (∀ s ∈ y, k ≤ s.place) →
      (x ++ y).filter (fun s => decide (s.place < k)) = x := by
    intro x y hx hy
    have hself : x.filter (fun s => decide (s.place < k)) = x :=
      List.filter_eq_self.2 fun s hs => decide_eq_true (hx s hs)
    have hnil : y.filter (fun s => decide (s.place < k)) = [] :=
      List.filter_eq_nil_iff.2 fun s hs => by simpa using hy s hs
    rw [List.filter_append, hself, hnil, List.append_nil]
  constructor
  · intro h
    have hac : a = c := by rw [← hfront ha hb, h, hfront hc hd]
    rw [hac] at h
    exact ⟨hac, List.append_cancel_left h⟩
  · rintro ⟨rfl, rfl⟩
    rfl

/-! ## The filter in a pipeline -/

/-- Whether a stage is spelled under a key. -/
def Stage.isUnder (key : String) (stage : Document) : Bool :=
  stage.map Prod.fst == [key]

theorem Stage.isUnder_match {stage : Stage} (h : stage.place < 5) :
    isUnder "$match" stage.toDocument = true ↔ stage.place < 1 := by
  cases stage <;> simp [place, isUnder, toDocument] at h ⊢

namespace Query

theorem filter_place_pipeline (q : Query) (kind : Kind) (depth : Nat) :
    (q.pipeline kind depth).filter (fun stage => decide (stage.place < 1)) = q.filter.stages := by
  have hfilter : q.filter.stages.filter (fun stage => decide (stage.place < 1)) =
      q.filter.stages := by
    refine List.filter_eq_self.2 fun stage hstage => decide_eq_true ?_
    rw [Filter.place_of_mem_stages stage hstage]
    decide
  have hrest : (q.sort.stages ++ q.window.stages ++ kind.joinStages q.expansion depth).filter
      (fun stage => decide (stage.place < 1)) = [] := by
    refine List.filter_eq_nil_iff.2 fun stage hstage => ?_
    rw [decide_eq_true_iff]
    rcases List.mem_append.1 hstage with hstage | hjoin
    · rcases List.mem_append.1 hstage with hsort | hwindow
      · rw [SortOrder.place_of_mem_stages stage hsort]
        decide
      · rcases Window.place_of_mem_stages stage hwindow with h | h <;> omega
    · rw [Kind.place_of_mem_joinStages stage hjoin]
      decide
  have hpipeline : q.pipeline kind depth = q.filter.stages ++
      (q.sort.stages ++ q.window.stages ++ kind.joinStages q.expansion depth) := by
    rw [pipeline, stages, List.append_assoc, List.append_assoc, List.append_assoc]
  rw [hpipeline, List.filter_append, hfilter, hrest, List.append_nil]

/-- The only stage of a query that is spelled as a match is that of its filter. -/
theorem filter_match_pipeline (q : Query) (kind : Kind) (depth : Nat) :
    (q.pipeline kind depth).toDocuments.filter (Stage.isUnder "$match") =
      Pipeline.toDocuments q.filter.stages := by
  rw [Pipeline.toDocuments, List.filter_map, ← filter_place_pipeline q kind depth,
    Pipeline.toDocuments]
  refine congrArg _ (List.filter_congr fun stage hstage => ?_)
  rw [Bool.eq_iff_iff, decide_eq_true_iff]
  exact Stage.isUnder_match (place_of_mem_pipeline stage hstage)

/-- A query is counted by its only match, if it has one, and a count. -/
theorem countPipeline_toDocuments (q : Query) (kind : Kind) (depth : Nat) :
    Pipeline.toDocuments q.countPipeline =
      (q.pipeline kind depth).toDocuments.filter (Stage.isUnder "$match") ++
        [[("$count", .string totalKey)]] := by
  rw [filter_match_pipeline, countPipeline, Pipeline.toDocuments, List.map_append]
  rfl

theorem length_filter_match_pipeline (q : Query) (kind : Kind) (depth : Nat) :
    ((q.pipeline kind depth).toDocuments.filter (Stage.isUnder "$match")).length ≤ 1 := by
  rw [filter_match_pipeline, Filter.stages]
  split <;> simp [Pipeline.toDocuments]

end Query

end NewsService
