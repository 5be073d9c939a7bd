import NewsService.Json
import NewsService.Query.Basic

/-!
# Queries as JSON

Members may be missing, which leaves the part at the value that asks for nothing, and members of
other names are passed over. A member that is there must have the type of its part; null is one only
where `none` is. Integers are written without fraction and exponent and have 64 bits. All members
are written.
-/

namespace NewsService

open Json

/-- The word for a direction. -/
def Direction.name : Direction → String
  | .ascending => "asc"
  | .descending => "desc"

/-- The direction that a word stands for. -/
def Direction.ofName? : String → Option Direction
  | "asc" => some .ascending
  | "desc" => some .descending
  | _ => none

/-- Reads a direction. -/
def Direction.ofJson? (j : Json) : Option Direction := do
  Direction.ofName? (← j.asWord?)

/-- Writes a direction. -/
def Direction.toJson (d : Direction) : Json :=
  .string d.name

/-- Reads a window. -/
def Window.ofJson? (j : Json) : Option Window := do
  let members ← j.members? ["offset", "limit"] 0
  let offset ← member? members "offset" 0 asInt64?
  let limit ← member? members "limit" 0 asInt64?
  return { offset, limit }

/-- Writes a window. -/
def Window.toJson (w : Window) : Json :=
  .object [("offset", .integer w.offset.toInt), ("limit", .integer w.limit.toInt)]

/-- Reads a filter. -/
def Filter.ofJson? (j : Json) : Option Filter := do
  let members ← j.members? ["slug", "state", "style", "is_featured", "categories", "tags", "ids"] 0
  let slug ← member? members "slug" "" asString?
  let state ← member? members "state" "" asString?
  let style ← member? members "style" "" asString?
  let isFeatured ← member? members "is_featured" none (nullable? asBool?)
  let categories ← member? members "categories" [] asStrings?
  let tags ← member? members "tags" [] asStrings?
  let ids ← member? members "ids" [] asStrings?
  return { slug, state, style, isFeatured, categories, tags, ids }

/-- Writes a filter. -/
def Filter.toJson (f : Filter) : Json :=
  let strings (items : List String) : Json := .array (items.map .string)
  .object [("slug", .string f.slug), ("state", .string f.state), ("style", .string f.style),
    ("is_featured", ofOption .bool f.isFeatured), ("categories", strings f.categories),
    ("tags", strings f.tags), ("ids", strings f.ids)]

/-- Reads an order. -/
def SortOrder.ofJson? (j : Json) : Option SortOrder := do
  let members ← j.members? ["published_date", "updated_at"] 0
  let publishedDate ← member? members "published_date" none (nullable? Direction.ofJson?)
  let updatedAt ← member? members "updated_at" none (nullable? Direction.ofJson?)
  return { publishedDate, updatedAt }

/-- Writes an order. -/
def SortOrder.toJson (s : SortOrder) : Json :=
  .object [("published_date", ofOption Direction.toJson s.publishedDate),
    ("updated_at", ofOption Direction.toJson s.updatedAt)]

/-- Reads a query. -/
def Query.ofJson? (j : Json) : Option Query := do
  let members ← j.members? ["pagination", "filter", "sort", "full"] 0
  let window ← member? members "pagination" {} Window.ofJson?
  let filter ← member? members "filter" {} Filter.ofJson?
  let sort ← member? members "sort" {} SortOrder.ofJson?
  let full ← member? members "full" false asBool?
  return { window, filter, sort, full }

/-- Writes a query. -/
def Query.toJson (q : Query) : Json :=
  .object [("pagination", q.window.toJson), ("filter", q.filter.toJson), ("sort", q.sort.toJson),
    ("full", .bool q.full)]

end NewsService
