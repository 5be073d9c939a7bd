import NewsService.Pipeline.Stage
import NewsService.Text.Blank

/-!
# Orders as stages

The keys that take part in an order form one stage, the date of publication before the date of the
last change. In requests an order is a list of key names between commas, each with a minus sign in
front for the descending direction; of two entries for one key the later one counts.
-/

namespace NewsService

/-- A key name that no order knows. -/
structure UnsupportedSortKey where
  /-- The name, without its sign. -/
  name : String
  deriving DecidableEq, Repr

/-- A key of an order. -/
structure SortField where
  /-- The key of the field that is compared. -/
  key : String
  /-- The direction, if the key takes part. -/
  direction : SortOrder → Option Direction

namespace SortOrder

/-- The keys of an order, the deciding ones first. -/
def fields : List SortField :=
  [⟨"publishedDate", publishedDate⟩, ⟨"updatedAt", updatedAt⟩]

/-- The keys that take part, with their directions. -/
def keys (s : SortOrder) : List (String × Direction) :=
  fields.filterMap fun field => (field.direction s).map fun d => (field.key, d)

/-- Whether no key takes part. -/
def isEmpty (s : SortOrder) : Bool :=
  s.publishedDate.isNone && s.updatedAt.isNone

/-- The stages of an order: one, or none. -/
def stages (s : SortOrder) : Pipeline :=
  if s.keys.isEmpty then [] else [.sort s.keys]

/-- The direction and the name in an entry. -/
def cutEntry (entry : String) : Direction × String :=
  match entry.toList with
  | '-' :: name => (.descending, String.ofList name)
  | _ => (.ascending, entry)

/-- Takes up an entry. -/
def takeEntry (s : SortOrder) (entry : String) : Except UnsupportedSortKey SortOrder :=
  let (direction, name) := cutEntry entry
  if name = "published_date" then .ok { s with publishedDate := some direction }
  else if name = "updated_at" then .ok { s with updatedAt := some direction }
  else .error ⟨name⟩

/-- Reads an order; the first entry with an unknown name is an error. -/
def parse (text : String) : Except UnsupportedSortKey SortOrder :=
  (Text.commaEntries text).foldlM takeEntry {}

end SortOrder

end NewsService
