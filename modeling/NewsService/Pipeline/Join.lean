import NewsService.Pipeline.Stage

/-!
# Joins

Each kind of record has the joins of its summary and further ones that only the full expansion
makes. A join keeps its result as a list, or takes the only element of it, or expands the joined
records in turn with the summary joins of their kind. Joins of the last sort lead back to records of
the same kind, so they are followed to a given depth only; at depth zero the references stay as they
are.
-/

namespace NewsService

/-- What becomes of the result of a join. -/
inductive JoinShape where
  /-- The one element takes the place of the list. -/
  | one
  /-- It stays a list. -/
  | many
  /-- It stays a list, and its records are expanded as records of a kind. -/
  | nested (kind : Kind)
  deriving DecidableEq, Repr

/-- A join. -/
structure Join where
  /-- The field with the references, which takes the result. -/
  field : String
  /-- The collection that the references lead to. -/
  collection : Collection
  /-- What becomes of the result. -/
  shape : JoinShape
  deriving DecidableEq, Repr

namespace Join

/-- Whether the list of results is replaced by its one element. -/
def unwinds (j : Join) : Bool :=
  j.shape == .one

/-- The kind as which joined records are expanded. -/
def nestedKind? (j : Join) : Option Kind :=
  match j.shape with
  | .nested kind => some kind
  | _ => none

end Join

/-- The joins of a kind of record. -/
structure JoinGraph where
  /-- The joins of every expansion, in order. -/
  summary : List Join
  /-- The joins that only the full expansion makes, in order. -/
  extended : List Join
  deriving DecidableEq, Repr

/-- The joins of an expansion, in order. -/
def JoinGraph.joins (graph : JoinGraph) : Expansion → List Join
  | .summary => graph.summary
  | .full => graph.summary ++ graph.extended

namespace Kind

/-- The joins of a kind. -/
def joinGraph : Kind → JoinGraph
  | .post =>
    { summary :=
        [⟨"heroImage", .images, .one⟩,
          ⟨"leading_image_portrait", .images, .one⟩,
          ⟨"og_image", .images, .one⟩,
          ⟨"categories", .categories, .many⟩,
          ⟨"topics", .topics, .one⟩]
      extended :=
        [⟨"leading_video", .videos, .one⟩,
          ⟨"tags", .tags, .many⟩,
          ⟨"theme", .themes, .one⟩,
          ⟨"writters", .contacts, .many⟩,
          ⟨"photographers", .contacts, .many⟩,
          ⟨"designers", .contacts, .many⟩,
          ⟨"engineers", .contacts, .many⟩,
          ⟨"relateds", .posts, .nested .post⟩] }
  | .topic =>
    { summary :=
        [⟨"leading_image", .images, .one⟩,
          ⟨"leading_image_portrait", .images, .one⟩,
          ⟨"og_image", .images, .one⟩]
      extended :=
        [⟨"leading_video", .videos, .one⟩,
          ⟨"relateds", .posts, .nested .post⟩] }
  | .author => { summary := [⟨"thumbnail", .images, .one⟩], extended := [] }

/-- The joins that expand joined records of a kind: those of the summary and, while there is depth
left, the nested ones. -/
def nestedJoins (kind : Kind) (remaining : Nat) : List Join :=
  let graph := kind.joinGraph
  graph.summary ++ graph.extended.filter fun j => j.nestedKind?.isSome && decide (0 < remaining)

end Kind

/-- The stages of a join, with nested joins followed to a depth. -/
def Join.stages : Nat → Join → Pipeline
  | depth, ⟨field, collection, shape⟩ =>
    match shape, depth with
    | .one, _ => [.join collection field, .unwind field]
    | .many, _ => [.join collection field]
    | .nested _, 0 => []
    | .nested kind, remaining + 1 =>
      [.joinThrough collection field
        (.selectReferenced :: (kind.nestedJoins remaining).flatMap (Join.stages remaining))]

/-- How deep nested joins are followed unless told otherwise. -/
def defaultRelatedDepth : Nat := 1

/-- The greatest depth that a configuration may set. -/
def maxRelatedDepth : Nat := 3

/-- The joining stages of a kind and an expansion. -/
def Kind.joinStages (kind : Kind) (expansion : Expansion) (depth : Nat) : Pipeline :=
  (kind.joinGraph.joins expansion).flatMap (Join.stages depth)

end NewsService
