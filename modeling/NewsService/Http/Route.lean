import NewsService.Query.Basic

/-!
# Routes

A path leads to an endpoint when its segments are those of the route, letter by letter and before
any escape is resolved. The last segment of a route to a single record is free, but not empty.
-/

namespace NewsService.Http

/-- What the service offers. -/
inductive Endpoint where
  /-- Whether the document store can be reached. -/
  | health
  /-- The records of a kind. -/
  | records (kind : Kind)
  /-- A single record, by a segment that still has its escapes. -/
  | record (kind : Kind) (segment : String)
  /-- The index page. -/
  | indexPage
  deriving DecidableEq, Repr

/-- The segment that stands for the records of a kind. -/
def pathSegment : Kind → String
  | .post => "posts"
  | .topic => "topics"
  | .author => "authors"

/-- The kind whose records a segment stands for. -/
def kindOfSegment? (segment : String) : Option Kind :=
  [Kind.post, .topic, .author].find? fun kind => pathSegment kind == segment

/-- The segments of a path, between slashes. -/
def segments (path : String) : List String :=
  (path.toList.splitOn '/').map String.ofList

/-- The endpoint to which a path leads. -/
def Endpoint.ofPath? (path : String) : Option Endpoint :=
  match segments path with
  | ["", "health"] => some .health
  | ["", "v2", "index_page"] => some .indexPage
  | ["", "v2", word] => (kindOfSegment? word).map .records
  | ["", "v2", word, segment] =>
    if segment.isEmpty then none else (kindOfSegment? word).map (.record · segment)
  | _ => none

end NewsService.Http
