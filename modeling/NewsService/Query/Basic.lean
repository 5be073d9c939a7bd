import NewsService.Record.Schema

/-!
# Queries

A query asks for records of one kind: which ones (the filter), in what order, which window of the
result, and whether all references are to be joined or only the summary ones. Every part has a value
that asks for nothing.
-/

namespace NewsService

/-- The collections of the document store. -/
inductive Collection where
  | posts | topics | contacts | images | videos | tags | categories | themes
  deriving DecidableEq, Repr

namespace Collection

/-- The name of a collection in the store. -/
def name : Collection → String
  | .posts => "posts"
  | .topics => "topics"
  | .contacts => "contacts"
  | .images => "images"
  | .videos => "videos"
  | .tags => "tags"
  | .categories => "postcategories"
  | .themes => "themes"

/-- All collections. -/
def all : List Collection :=
  [.posts, .topics, .contacts, .images, .videos, .tags, .categories, .themes]

/-- The type of the records in a collection. -/
def recordType : Collection → RecordType
  | .posts => .post
  | .topics => .topic
  | .contacts => .author
  | .images => .image
  | .videos => .video
  | .tags => .label
  | .categories => .label
  | .themes => .theme

end Collection

/-- The kinds of records that can be asked for. -/
inductive Kind where
  | post | topic | author
  deriving DecidableEq, Repr

namespace Kind

/-- The word for a kind. -/
def name : Kind → String
  | .post => "post"
  | .topic => "topic"
  | .author => "author"

/-- The kind that a word stands for. -/
def ofName? : String → Option Kind
  | "post" => some .post
  | "topic" => some .topic
  | "author" => some .author
  | _ => none

/-- The collection in which records of a kind are stored. -/
def collection : Kind → Collection
  | .post => .posts
  | .topic => .topics
  | .author => .contacts

/-- The type of the records of a kind. -/
def recordType (kind : Kind) : RecordType :=
  kind.collection.recordType

end Kind

/-- Which references are joined. -/
inductive Expansion where
  /-- The direct references that a summary shows. -/
  | summary
  /-- All references. -/
  | full
  deriving DecidableEq, Repr

/-- The expansion that a word stands for. -/
def Expansion.ofName? : String → Option Expansion
  | "summary" => some .summary
  | "full" => some .full
  | _ => none

/-- The word for an expansion. -/
def Expansion.name : Expansion → String
  | .summary => "summary"
  | .full => "full"

/-- A window of a result. Values that are not positive ask for nothing. -/
structure Window where
  /-- How many records to skip. -/
  offset : Int64 := 0
  /-- How many records to keep. -/
  limit : Int64 := 0
  deriving DecidableEq, Repr

/-- Conditions on records. The empty string, the empty list and `none` ask for nothing. -/
structure Filter where
  /-- The slug. -/
  slug : String := ""
  /-- The state of publication. -/
  state : String := ""
  /-- The style of an article. -/
  style : String := ""
  /-- Whether the record is featured. -/
  isFeatured : Option Bool := none
  /-- Texts of identifiers of categories, one of which the record must have. -/
  categories : List String := []
  /-- Texts of identifiers of tags, one of which the record must have. -/
  tags : List String := []
  /-- Texts of identifiers, one of which must be that of the record. -/
  ids : List String := []
  deriving DecidableEq, Repr

/-- The direction of a sort key. -/
inductive Direction where
  | ascending | descending
  deriving DecidableEq, Repr

/-- The order of a result: a direction for each key that takes part. -/
structure SortOrder where
  /-- By date of publication. -/
  publishedDate : Option Direction := none
  /-- By date of the last change. -/
  updatedAt : Option Direction := none
  deriving DecidableEq, Repr

/-- A query. -/
structure Query where
  /-- The window of the result. -/
  window : Window := {}
  /-- The conditions on records. -/
  filter : Filter := {}
  /-- The order of the result. -/
  sort : SortOrder := {}
  /-- Whether all references are joined. -/
  full : Bool := false
  deriving DecidableEq, Repr

/-- The expansion that a query asks for. -/
def Query.expansion (q : Query) : Expansion :=
  if q.full then .full else .summary

end NewsService
