import NewsService.Http.QueryString
import NewsService.Json
import NewsService.Limits
import NewsService.Pipeline.Sort
import NewsService.Query.Basic

/-!
# Parameters of the endpoints

A list of records is asked for by conditions, an order, a window and the extent of joins; a single
record only by the extent. Parameters of a list denote a query: lists of identifiers are split at
commas, the size of the page is clamped to the limits, and a negative offset counts as zero.
-/

namespace NewsService.Http

open Json

/-- The parameters of a list of records. -/
structure ListParams where
  /-- The slug. -/
  slug : Option String := none
  /-- The state of publication. -/
  state : Option String := none
  /-- The style of an article. -/
  style : Option String := none
  /-- Whether the record is featured. -/
  isFeatured : Option Bool := none
  /-- Identifiers of categories, between commas. -/
  categoryId : Option String := none
  /-- Identifiers of tags, between commas. -/
  tagId : Option String := none
  /-- Identifiers of records, between commas. -/
  id : Option String := none
  /-- Keys of the order, between commas. -/
  sort : Option String := none
  /-- Whether all references are joined. -/
  full : Option Bool := none
  /-- The size of the page. -/
  limit : Option Int64 := none
  /-- How many records to skip. -/
  offset : Option Int64 := none
  deriving DecidableEq, Repr

namespace ListParams

/-- The parameters by their names. -/
def known : List (Parameter ListParams) :=
  [.optional "slug" slug (fun p v => { p with slug := some v }) readText,
    .optional "state" state (fun p v => { p with state := some v }) readText,
    .optional "style" style (fun p v => { p with style := some v }) readText,
    .optional "is_featured" isFeatured (fun p v => { p with isFeatured := some v }) readBool,
    .optional "category_id" categoryId (fun p v => { p with categoryId := some v }) readText,
    .optional "tag_id" tagId (fun p v => { p with tagId := some v }) readText,
    .optional "id" id (fun p v => { p with id := some v }) readText,
    .optional "sort" sort (fun p v => { p with sort := some v }) readText,
    .optional "full" full (fun p v => { p with full := some v }) readBool,
    .optional "limit" limit (fun p v => { p with limit := some v }) readInt64,
    .optional "offset" offset (fun p v => { p with offset := some v }) readInt64]

/-- Reads the parameters in a query string. -/
def ofQueryString (query : String) : Except QueryStringError ListParams :=
  takeQueryString known {} query

/-- Reads parameters from JSON: an object, or an array with all of them. Each may be null, and in an
object it may be missing. -/
def ofJson? (j : Json) : Option ListParams := do
  let names := known.map Parameter.name
  let members ← j.members? names names.length
  let text (name : String) := member? members name none (nullable? asString?)
  let flag (name : String) := member? members name none (nullable? asBool?)
  let number (name : String) := member? members name none (nullable? asInt64?)
  return {
    slug := ← text "slug"
    state := ← text "state"
    style := ← text "style"
    isFeatured := ← flag "is_featured"
    categoryId := ← text "category_id"
    tagId := ← text "tag_id"
    id := ← text "id"
    sort := ← text "sort"
    full := ← flag "full"
    limit := ← number "limit"
    offset := ← number "offset" }

/-- The entries of a list parameter. -/
def entries (parameter : Option String) : List String :=
  (parameter.map Text.commaEntries).getD []

/-- The conditions that the parameters denote. -/
def filter (p : ListParams) : Filter where
  slug := p.slug.getD ""
  state := p.state.getD ""
  style := p.style.getD ""
  isFeatured := p.isFeatured
  categories := entries p.categoryId
  tags := entries p.tagId
  ids := entries p.id

/-- The window that the parameters denote. -/
def window (p : ListParams) (limits : Limits) : Window where
  offset := max (p.offset.getD 0) 0
  limit := limits.pageSize p.limit

/-- The query that the parameters denote, unless their order has a key that is not known. -/
def toQuery (p : ListParams) (limits : Limits) : Except UnsupportedSortKey Query := do
  let order ← match p.sort with
    | some text => SortOrder.parse text
    | none => .ok {}
  return { window := p.window limits, filter := p.filter, sort := order, full := p.full.getD false }

end ListParams

/-- The parameters of a single record. -/
structure RecordParams where
  /-- Whether all references are joined. -/
  full : Option Bool := none
  deriving DecidableEq, Repr

namespace RecordParams

/-- The parameters by their names. -/
def known : List (Parameter RecordParams) :=
  [.optional "full" full (fun p v => { p with full := some v }) readBool]

/-- Reads the parameters in a query string. -/
def ofQueryString (query : String) : Except QueryStringError RecordParams :=
  takeQueryString known {} query

end RecordParams

end NewsService.Http
