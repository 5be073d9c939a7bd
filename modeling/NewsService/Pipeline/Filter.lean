import NewsService.Pipeline.Stage

/-!
# Filters as stages

Each part of a filter puts at most one condition on one field. The parts are visited in a fixed
order, which is also the order of the conditions, and a part that asks for nothing puts none. Texts
of identifiers that are not well formed are dropped from a list, but a list that had any entry keeps
its condition: one without well-formed entries is met by no document.
-/

namespace NewsService

/-- The value of one part of a filter. -/
inductive FilterValue where
  | text (s : String)
  | flag (b : Option Bool)
  /-- Texts of identifiers. -/
  | ids (texts : List String)
  deriving DecidableEq, Repr

namespace FilterValue

/-- Whether a value asks for nothing. -/
def isZero : FilterValue → Bool
  | .text s => s.isEmpty
  | .flag b => b.isNone
  | .ids texts => texts.isEmpty

/-- The condition that a value puts on a field. -/
def condition? (value : FilterValue) : Option Condition :=
  if value.isZero then none
  else
    match value with
    | .text s => some (.text s)
    | .flag b => b.map .flag
    | .ids texts => some (.oneOf (ObjectId.ofTexts texts))

end FilterValue

/-- A part of a filter. -/
structure FilterField where
  /-- The key of the field that the part is about. -/
  key : String
  /-- The value of the part. -/
  value : Filter → FilterValue

namespace Filter

/-- The parts of a filter, in order. -/
def fields : List FilterField :=
  [⟨"slug", fun f => .text f.slug⟩,
    ⟨"state", fun f => .text f.state⟩,
    ⟨"style", fun f => .text f.style⟩,
    ⟨"isFeatured", fun f => .flag f.isFeatured⟩,
    ⟨"categories", fun f => .ids f.categories⟩,
    ⟨"tags", fun f => .ids f.tags⟩,
    ⟨"_id", fun f => .ids f.ids⟩]

/-- The conditions of a filter, in order. -/
def conditions (f : Filter) : List (String × Condition) :=
  fields.filterMap fun field => (field.value f).condition?.map fun c => (field.key, c)

/-- Whether a filter asks for nothing. -/
def isEmpty (f : Filter) : Bool :=
  fields.all fun field => (field.value f).isZero

/-- The stages of a filter: one, or none. -/
def stages (f : Filter) : Pipeline :=
  if f.conditions.isEmpty then [] else [.select f.conditions]

end Filter

end NewsService
