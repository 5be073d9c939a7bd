import Mathlib.Data.List.Basic
import NewsService.Proofs.Pipeline.Bounds

/-!
# How deep related posts unfold

The only joins that nest are those into `relateds`. Each of them holds the summary of a post and,
while there is depth left, the next one. Main statement: the joins of posts and topics have a chain
of related posts that is exactly as long as they are deep, and depth changes nothing else.
-/

namespace NewsService

namespace Stage

/-- Where a stage takes documents from, and the field that it puts them into. -/
def joined? : Stage → Option (Collection × String)
  | .join collection field => some (collection, field)
  | .joinThrough collection field _ => some (collection, field)
  | _ => none

/-- Whether a stage joins into a field. -/
def fills (field : String) (stage : Stage) : Bool :=
  stage.joined?.any fun joined => joined.2 == field

mutual

/-- The pipelines inside a stage, at every level. -/
def inside : Stage → List Pipeline
  | .joinThrough _ _ pipeline => pipeline :: insideOf pipeline
  | _ => []

/-- The pipelines inside some stages, at every level. -/
def insideOf : List Stage → List Pipeline
  | [] => []
  | stage :: rest => inside stage ++ insideOf rest

end

theorem mem_insideOf {pipeline inner : Pipeline} :
    inner ∈ insideOf pipeline ↔ ∃ stage ∈ pipeline, inner ∈ stage.inside := by
  induction pipeline with
  | nil => simp [insideOf]
  | cons stage rest ih => simp [insideOf, ih]

theorem toValues_eq (pipeline : Pipeline) :
    toValues pipeline = (Pipeline.toDocuments pipeline).map .document := by
  induction pipeline with
  | nil => rfl
  | cons stage rest ih =>
    rw [toValues, ih]
    rfl

end Stage

/-- The joins into a field of which each is inside the one before: there is just one at every level,
and none at the last. -/
inductive Pipeline.Chain (field : String) : Pipeline → Nat → Prop
  | last {p : Pipeline} (h : p.filter (Stage.fills field) = []) : Chain field p 0
  | next {p inner : Pipeline} {collection : Collection} {n : Nat}
      (h : p.filter (Stage.fills field) = [.joinThrough collection field inner])
      (hinner : Chain field inner n) : Chain field p (n + 1)

theorem Pipeline.Chain.unique {field : String} {p : Pipeline} {m n : Nat} (hm : Chain field p m)
    (hn : Chain field p n) : m = n := by
  induction hm generalizing n with
  | last h =>
    cases hn with
    | last _ => rfl
    | next h' _ =>
      rw [h] at h'
      cases h'
  | next h _ ih =>
    cases hn with
    | last h' =>
      rw [h] at h'
      cases h'
    | next h' hinner =>
      rw [h] at h'
      cases h'
      rw [ih hinner]

/-! ## The joins that depth is about -/

/-- The join of related posts. -/
def relatedJoin : Join :=
  ⟨"relateds", .posts, .nested .post⟩

theorem Join.stages_of_plain {j : Join} (h : j.nestedKind? = none) (depth : Nat) :
    j.stages depth = j.stages 0 := by
  obtain ⟨field, collection, shape⟩ := j
  cases shape with
  | one => simp [stages]
  | many => simp [stages]
  | nested kind => cases h

namespace Kind

/-- The joins of a kind that do not nest. -/
def plainJoins (kind : Kind) : List Join :=
  (kind.joinGraph.joins .full).filter fun j => j.nestedKind?.isNone

theorem summary_plain (kind : Kind) : ∀ j ∈ kind.joinGraph.summary, j.nestedKind? = none := by
  cases kind <;> decide

theorem plainJoins_plain (kind : Kind) : ∀ j ∈ kind.plainJoins, j.nestedKind? = none := by
  cases kind <;> decide

theorem plainJoins_not_related (kind : Kind) : ∀ j ∈ kind.plainJoins, j.field ≠ "relateds" := by
  cases kind <;> decide

theorem joins_full (kind : Kind) :
    kind.joinGraph.joins .full =
      kind.plainJoins ++ if kind = .author then [] else [relatedJoin] := by
  cases kind <;> decide

theorem nestedJoins_post (remaining : Nat) :
    Kind.post.nestedJoins remaining =
      Kind.post.joinGraph.summary ++ if 0 < remaining then [relatedJoin] else [] := by
  unfold nestedJoins
  by_cases h : 0 < remaining
  · rw [if_pos h]
    simp only [h, decide_true, Bool.and_true]
    rfl
  · rw [if_neg h]
    simp [h]

/-- Joins that do not nest are the same for all depths. -/
theorem flatMap_plain {joins : List Join} (h : ∀ j ∈ joins, j.nestedKind? = none) (depth : Nat) :
    joins.flatMap (Join.stages depth) = joins.flatMap (Join.stages 0) :=
  List.flatMap_congr fun j hj => Join.stages_of_plain (h j hj) depth

theorem joinStages_summary (kind : Kind) (depth : Nat) :
    kind.joinStages .summary depth = kind.joinStages .summary 0 :=
  flatMap_plain kind.summary_plain depth

theorem joinStages_full (kind : Kind) (depth : Nat) :
    kind.joinStages .full depth = kind.plainJoins.flatMap (Join.stages 0) ++
      if kind = .author then [] else relatedJoin.stages depth := by
  unfold joinStages
  rw [joins_full, List.flatMap_append, flatMap_plain kind.plainJoins_plain depth]
  split
  · rfl
  · rw [List.flatMap_singleton]

end Kind

/-- The posts that are referred to, with their summary and the next join of related posts. -/
def relatedPipeline (remaining : Nat) : Pipeline :=
  .selectReferenced :: (Kind.post.joinStages .summary 0 ++ relatedJoin.stages remaining)

theorem relatedJoin_stages_succ (remaining : Nat) :
    relatedJoin.stages (remaining + 1) =
      [.joinThrough .posts "relateds" (relatedPipeline remaining)] := by
  have hinner : (Kind.post.nestedJoins remaining).flatMap (Join.stages remaining) =
      Kind.post.joinStages .summary 0 ++ relatedJoin.stages remaining := by
    rw [Kind.nestedJoins_post, List.flatMap_append, ← Kind.joinStages_summary .post remaining]
    cases remaining with
    | zero => rfl
    | succ n => rw [if_pos (Nat.succ_pos n), List.flatMap_singleton]; rfl
  rw [relatedJoin, Join.stages, hinner]
  rfl

/-! ## Joins into a field -/

theorem Join.joined_of_mem_stages {j : Join} {depth : Nat} {stage : Stage}
    (h : stage ∈ j.stages depth) :
    stage.joined? = none ∨ stage.joined? = some (j.collection, j.field) := by
  obtain ⟨field, collection, shape⟩ := j
  cases shape with
  | one =>
    have h : stage = .join collection field ∨ stage = .unwind field := by simpa [stages] using h
    rcases h with rfl | rfl
    · exact Or.inr rfl
    · exact Or.inl rfl
  | many =>
    obtain rfl : stage = .join collection field := by simpa [stages] using h
    exact Or.inr rfl
  | nested kind =>
    cases depth with
    | zero => simp [stages] at h
    | succ n =>
      rw [stages, List.mem_singleton] at h
      subst h
      exact Or.inr rfl

/-- Joins into other fields leave a field alone. -/
theorem Stage.filter_fills_of_ne {joins : List Join} {field : String}
    (h : ∀ j ∈ joins, j.field ≠ field) (depth : Nat) :
    (joins.flatMap (Join.stages depth)).filter (fills field) = [] := by
  refine List.filter_eq_nil_iff.2 fun stage hstage => ?_
  obtain ⟨j, hj, hstage⟩ := List.mem_flatMap.1 hstage
  rcases Join.joined_of_mem_stages hstage with hnone | hsome
  · simp [fills, hnone]
  · simpa [fills, hsome] using h j hj

theorem relatedJoin_filter (depth : Nat) :
    (relatedJoin.stages depth).filter (Stage.fills "relateds") = relatedJoin.stages depth := by
  cases depth with
  | zero => rfl
  | succ n =>
    rw [relatedJoin_stages_succ]
    rfl

namespace Kind

/-- The joins into a field that the full expansion of a kind makes. -/
def joinsInto (kind : Kind) (field : String) (depth : Nat) : Pipeline :=
  (kind.joinStages .full depth).filter (Stage.fills field)

theorem joinsInto_relateds (kind : Kind) (depth : Nat) :
    kind.joinsInto "relateds" depth =
      if kind = .author then [] else relatedJoin.stages depth := by
  unfold joinsInto
  rw [joinStages_full, List.filter_append, Stage.filter_fills_of_ne kind.plainJoins_not_related,
    List.nil_append]
  split
  · rfl
  · exact relatedJoin_filter depth

end Kind

/-! ## Chains -/

theorem relatedPipeline_filter (remaining : Nat) :
    (relatedPipeline remaining).filter (Stage.fills "relateds") = relatedJoin.stages remaining := by
  have hsummary : (Kind.post.joinStages .summary 0).filter (Stage.fills "relateds") = [] :=
    Stage.filter_fills_of_ne (by decide) 0
  have hselect : ¬ Stage.fills "relateds" .selectReferenced = true := by decide
  unfold relatedPipeline
  rw [List.filter_cons_of_neg hselect, List.filter_append, hsummary, List.nil_append]
  exact relatedJoin_filter remaining

theorem relatedJoin_chain {p : Pipeline} {depth : Nat}
    (h : p.filter (Stage.fills "relateds") = relatedJoin.stages depth) :
    p.Chain "relateds" depth := by
  induction depth generalizing p with
  | zero => exact .last h
  | succ n ih =>
    rw [relatedJoin_stages_succ] at h
    exact .next h (ih (relatedPipeline_filter n))

namespace Stage

theorem nestingOf_append (p q : Pipeline) :
    nestingOf (p ++ q) = max (nestingOf p) (nestingOf q) := by
  induction p with
  | nil => exact (Nat.zero_max _).symm
  | cons stage rest ih => rw [List.cons_append, nestingOf, nestingOf, ih, Nat.max_assoc]

theorem nestingOf_of_depth_zero (joins : List Join) :
    nestingOf (joins.flatMap (Join.stages 0)) = 0 := by
  refine Nat.le_zero.1 (nestingOf_le.2 fun stage hstage => ?_)
  obtain ⟨j, -, hj⟩ := List.mem_flatMap.1 hstage
  exact j.nesting_le 0 stage hj

theorem nesting_relatedJoin (depth : Nat) : nestingOf (relatedJoin.stages depth) = depth := by
  induction depth with
  | zero => rfl
  | succ n ih =>
    have hinner : nestingOf (Kind.post.joinStages .summary 0 ++ relatedJoin.stages n) = n := by
      unfold Kind.joinStages
      rw [nestingOf_append, nestingOf_of_depth_zero, ih, Nat.zero_max]
    rw [relatedJoin_stages_succ]
    simp [nestingOf, nesting, relatedPipeline, hinner]

/-- Joins of no depth have no pipelines inside. -/
theorem inside_of_depth_zero {joins : List Join} {stage : Stage}
    (h : stage ∈ joins.flatMap (Join.stages 0)) : stage.inside = [] := by
  obtain ⟨j, -, hj⟩ := List.mem_flatMap.1 h
  have hnesting : stage.nesting ≤ 0 := j.nesting_le 0 stage hj
  cases stage with
  | joinThrough collection field pipeline => exact absurd hnesting (by simp [nesting])
  | _ => rfl

/-- Every pipeline inside a join of related posts is that of such a join of less depth. -/
theorem inside_relatedJoin {depth : Nat} {inner : Pipeline}
    (h : inner ∈ insideOf (relatedJoin.stages depth)) :
    ∃ remaining < depth, inner = relatedPipeline remaining := by
  induction depth with
  | zero => cases h
  | succ n ih =>
    have hcases : inner = relatedPipeline n ∨ inner ∈ insideOf (relatedPipeline n) := by
      rw [relatedJoin_stages_succ] at h
      simpa [insideOf, inside, relatedPipeline] using h
    rcases hcases with rfl | hinner
    · exact ⟨n, Nat.lt_succ_self n, rfl⟩
    · obtain ⟨stage, hstage, hinside⟩ := mem_insideOf.1 hinner
      -- of the stages of this pipeline only the next join has pipelines inside
      have hnext : stage ∈ relatedJoin.stages n := by
        rcases List.mem_cons.1 hstage with rfl | hstage
        · cases hinside
        · rcases List.mem_append.1 hstage with hsummary | hnext
          · rw [inside_of_depth_zero hsummary] at hinside
            cases hinside
          · exact hnext
      obtain ⟨remaining, hlt, hremaining⟩ := ih (mem_insideOf.2 ⟨stage, hnext, hinside⟩)
      exact ⟨remaining, Nat.lt_succ_of_lt hlt, hremaining⟩

theorem inside_joinStages {kind : Kind} {expansion : Expansion} {depth : Nat} {inner : Pipeline}
    (h : inner ∈ insideOf (kind.joinStages expansion depth)) :
    ∃ remaining < depth, inner = relatedPipeline remaining := by
  obtain ⟨stage, hstage, hinside⟩ := mem_insideOf.1 h
  have hplain : ∀ joins : List Join, stage ∈ joins.flatMap (Join.stages 0) → False := by
    intro joins hjoins
    rw [inside_of_depth_zero hjoins] at hinside
    cases hinside
  cases expansion with
  | summary =>
    rw [Kind.joinStages_summary] at hstage
    exact absurd hstage (hplain _)
  | full =>
    rw [Kind.joinStages_full] at hstage
    rcases List.mem_append.1 hstage with hstage | hrelated
    · exact absurd hstage (hplain _)
    · by_cases hauthor : kind = .author
      · rw [if_pos hauthor] at hrelated
        cases hrelated
      · rw [if_neg hauthor] at hrelated
        exact inside_relatedJoin (mem_insideOf.2 ⟨stage, hrelated, hinside⟩)

/-- The fields of posts that only the full expansion joins, related posts aside, and the collections
that they lead to. -/
def fullOnly : List (Collection × String) :=
  [(.videos, "leading_video"), (.tags, "tags"), (.themes, "theme"), (.contacts, "writters"),
    (.contacts, "photographers"), (.contacts, "designers"), (.contacts, "engineers")]

example :
    (Kind.post.joinGraph.joins .full).map (fun j => (j.collection, j.field)) =
      Kind.post.joinGraph.summary.map (fun j => (j.collection, j.field)) ++ fullOnly ++
        [(.posts, "relateds")] := by
  decide

theorem joined_relatedPipeline {remaining : Nat} {stage : Stage} {joined : Collection × String}
    (h : stage ∈ relatedPipeline remaining) (hjoined : stage.joined? = some joined) :
    ∃ j ∈ Kind.post.joinGraph.summary ++ [relatedJoin], joined = (j.collection, j.field) := by
  have hmem : ∃ j ∈ Kind.post.joinGraph.summary ++ [relatedJoin], ∃ depth,
      stage ∈ j.stages depth := by
    rcases List.mem_cons.1 h with rfl | h
    · cases hjoined
    · rcases List.mem_append.1 h with hsummary | hnext
      · obtain ⟨j, hj, hstage⟩ := List.mem_flatMap.1 hsummary
        exact ⟨j, List.mem_append_left _ hj, 0, hstage⟩
      · exact ⟨relatedJoin, List.mem_append_right _ (List.mem_singleton_self _), remaining, hnext⟩
  obtain ⟨j, hj, depth, hstage⟩ := hmem
  refine ⟨j, hj, ?_⟩
  rcases Join.joined_of_mem_stages hstage with hnone | hsome
  · rw [hnone] at hjoined
    cases hjoined
  · rw [hsome] at hjoined
    exact (Option.some.inj hjoined).symm

end Stage

/-- The spelling of the join of related posts. -/
theorem relatedJoin_toDocuments (remaining : Nat) :
    Pipeline.toDocuments (relatedJoin.stages (remaining + 1)) =
      [[("$lookup", .document [
        ("from", .string "posts"),
        ("let", .document [
          ("ids", .document [("$ifNull", .array [.string "$relateds", .array []])])]),
        ("pipeline", .array (([("$match", .document [
            ("$expr", .document [("$in", .array [.string "$_id", .string "$$ids"])])])] ::
          (Pipeline.toDocuments (Kind.post.joinStages .summary 0) ++
            Pipeline.toDocuments (relatedJoin.stages remaining))).map .document)),
        ("as", .string "relateds")])]] := by
  rw [relatedJoin_stages_succ, Pipeline.toDocuments, List.map_singleton, Stage.toDocument,
    Stage.toValues_eq, Pipeline.toDocuments, List.map_cons, List.map_append]
  rfl

/-- The full expansion of posts and topics has the joins that it has without depth and, if there is
depth, one join of related posts behind them. This join is spelled as one that selects the posts
that are referred to, with the summary of posts and the related posts of a post for one level less.
So related posts are nested in a chain as long as the depth, and nothing else is. The pipelines
inside join nothing that only the full expansion does. Authors and summaries have the same joins for
all depths, and the joins of a summary come first in the full expansion. -/
theorem related_posts_unfold (depth : Nat) :
    (∀ kind ∈ [Kind.post, Kind.topic],
      kind.joinStages .full depth =
        kind.joinStages .full 0 ++ kind.joinsInto "relateds" depth ∧
      kind.joinsInto "relateds" 0 = [] ∧
      kind.joinsInto "relateds" (depth + 1) =
        [.joinThrough .posts "relateds" (.selectReferenced ::
          (Kind.post.joinStages .summary depth ++ Kind.post.joinsInto "relateds" depth))] ∧
      Pipeline.toDocuments (kind.joinsInto "relateds" (depth + 1)) =
        [[("$lookup", .document [
          ("from", .string "posts"),
          ("let", .document [
            ("ids", .document [("$ifNull", .array [.string "$relateds", .array []])])]),
          ("pipeline", .array (([("$match", .document [
              ("$expr", .document [("$in", .array [.string "$_id", .string "$$ids"])])])] ::
            (Pipeline.toDocuments (Kind.post.joinStages .summary depth) ++
              Pipeline.toDocuments (Kind.post.joinsInto "relateds" depth))).map .document)),
          ("as", .string "relateds")])]] ∧
      (∀ n, (kind.joinStages .full depth).Chain "relateds" n ↔ n = depth) ∧
      Stage.nestingOf (kind.joinStages .full depth) = depth) ∧
    (∀ (kind : Kind) (expansion : Expansion),
      ∀ inner ∈ Stage.insideOf (kind.joinStages expansion depth), ∀ stage ∈ inner,
        ∀ collection field, stage.joined? = some (collection, field) →
          collection ∉ Stage.fullOnly.map Prod.fst ∧ field ∉ Stage.fullOnly.map Prod.snd) ∧
    (∀ expansion, Kind.author.joinStages expansion depth = Kind.author.joinStages expansion 0) ∧
    ∀ kind : Kind, kind.joinStages .summary depth = kind.joinStages .summary 0 ∧
      kind.joinStages .summary depth <+: kind.joinStages .full depth := by
  refine ⟨fun kind hkind => ?_, ?_, ?_, fun kind => ⟨kind.joinStages_summary depth, ?_⟩⟩
  · have hauthor : kind ≠ .author := by
      rintro rfl
      exact absurd hkind (by decide)
    have hpost : Kind.post ≠ .author := by decide
    have hinto : ∀ n, kind.joinsInto "relateds" n = relatedJoin.stages n := by
      intro n
      rw [Kind.joinsInto_relateds, if_neg hauthor]
    have hchain : (kind.joinStages .full depth).Chain "relateds" depth :=
      relatedJoin_chain (hinto depth)
    rw [Kind.joinsInto_relateds .post, if_neg hpost, hinto, hinto, hinto,
      Kind.joinStages_summary .post depth]
    refine ⟨?_, rfl, relatedJoin_stages_succ depth, relatedJoin_toDocuments depth, ?_, ?_⟩
    · rw [Kind.joinStages_full, Kind.joinStages_full kind 0, if_neg hauthor, if_neg hauthor,
        List.append_assoc]
      rfl
    · intro n
      constructor
      · intro h
        exact h.unique hchain
      · rintro rfl
        exact hchain
    · rw [Kind.joinStages_full, if_neg hauthor, Stage.nestingOf_append, Stage.nesting_relatedJoin,
        Stage.nestingOf_of_depth_zero, Nat.zero_max]
  · intro kind expansion inner hinner stage hstage collection field hjoined
    obtain ⟨remaining, -, rfl⟩ := Stage.inside_joinStages hinner
    obtain ⟨j, hj, hsame⟩ := Stage.joined_relatedPipeline hstage hjoined
    have hnone : ∀ j ∈ Kind.post.joinGraph.summary ++ [relatedJoin],
        j.collection ∉ Stage.fullOnly.map Prod.fst ∧ j.field ∉ Stage.fullOnly.map Prod.snd := by
      decide
    obtain ⟨rfl, rfl⟩ := Prod.mk.inj hsame
    exact hnone j hj
  · intro expansion
    cases expansion with
    | summary => exact Kind.joinStages_summary .author depth
    | full => rw [Kind.joinStages_full, Kind.joinStages_full .author 0]; rfl
  · unfold Kind.joinStages JoinGraph.joins
    exact ⟨_, (List.flatMap_append).symm⟩

theorem related_posts_unfold_twice :
    (Kind.topic.joinStages .full 2).Chain "relateds" 2 ∧
      Stage.nestingOf (Kind.topic.joinStages .full 2) = 2 :=
  have h := (related_posts_unfold 2).1 .topic (by decide)
  ⟨(h.2.2.2.2.1 2).2 rfl, h.2.2.2.2.2⟩

end NewsService
