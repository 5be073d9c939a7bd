/-!
# Schemas

A record type is described by its fields. A field has the key under which documents hold it, the
name under which it is served, and a type: a scalar, an asset, a reference to a record or a list of
references. Decoding and writing records follow these tables and nothing else. The identifier, held
under `_id` and served as `id`, belongs to every record type and is not listed.
-/

namespace NewsService

/-- The types of records. -/
inductive RecordType where
  | post | topic | author | image | video | label | theme
  deriving DecidableEq, Repr

/-- The types of plain fields. -/
inductive ScalarType where
  /-- A string; null is the empty one. -/
  | text
  /-- A truth value; null is false. -/
  | flag
  /-- An integer that may be absent; doubles are rounded. -/
  | number
  /-- A point in time that may be absent. -/
  | date
  /-- Any value that has a JSON form, or absent. -/
  | free
  deriving DecidableEq, Repr

/-- The types of stored files. -/
inductive AssetType where
  | image | video
  deriving DecidableEq, Repr

/-- The types of fields of records. -/
inductive FieldType where
  | scalar (type : ScalarType)
  /-- A stored file with fields of its own, or none. -/
  | asset (type : AssetType)
  /-- A reference, or none. -/
  | reference (target : RecordType)
  /-- A list of references; null is the empty one. -/
  | references (target : RecordType)
  deriving DecidableEq, Repr

/-- A field of a schema. -/
structure Field (α : Type) where
  /-- The key in documents. -/
  key : String
  /-- The name in served objects. -/
  name : String
  /-- The type. -/
  type : α
  deriving DecidableEq, Repr

/-- The key of the identifier in documents. -/
def idKey : String := "_id"

/-- The fields of a stored file. -/
def AssetType.fields : AssetType → List (Field ScalarType)
  | .image =>
    [⟨"filename", "filename", .text⟩, ⟨"filetype", "filetype", .text⟩, ⟨"width", "width", .number⟩,
      ⟨"height", "height", .number⟩, ⟨"url", "url", .text⟩,
      ⟨"resizedTargets", "resized_targets", .free⟩]
  | .video =>
    [⟨"filetype", "filetype", .text⟩, ⟨"size", "size", .number⟩, ⟨"url", "url", .text⟩]

namespace RecordType

/-- The fields of posts. -/
def postFields : List (Field FieldType) :=
  [⟨"slug", "slug", .scalar .text⟩,
    ⟨"title", "title", .scalar .text⟩,
    ⟨"subtitle", "subtitle", .scalar .text⟩,
    ⟨"state", "state", .scalar .text⟩,
    ⟨"style", "style", .scalar .text⟩,
    ⟨"og_title", "og_title", .scalar .text⟩,
    ⟨"og_description", "og_description", .scalar .text⟩,
    ⟨"brief", "brief", .scalar .free⟩,
    ⟨"content", "content", .scalar .free⟩,
    ⟨"extend_byline", "extend_byline", .scalar .text⟩,
    ⟨"isFeatured", "is_featured", .scalar .flag⟩,
    ⟨"isExternal", "is_external", .scalar .flag⟩,
    ⟨"publishedDate", "published_date", .scalar .date⟩,
    ⟨"updatedAt", "updated_at", .scalar .date⟩,
    ⟨"heroImage", "hero_image", .reference .image⟩,
    ⟨"leading_image_portrait", "leading_image_portrait", .reference .image⟩,
    ⟨"og_image", "og_image", .reference .image⟩,
    ⟨"leading_video", "leading_video", .reference .video⟩,
    ⟨"categories", "categories", .references .label⟩,
    ⟨"tags", "tags", .references .label⟩,
    ⟨"topics", "topic", .reference .topic⟩,
    ⟨"theme", "theme", .reference .theme⟩,
    ⟨"writters", "writers", .references .author⟩,
    ⟨"photographers", "photographers", .references .author⟩,
    ⟨"designers", "designers", .references .author⟩,
    ⟨"engineers", "engineers", .references .author⟩,
    ⟨"relateds", "relateds", .references .post⟩]

/-- The fields of topics. -/
def topicFields : List (Field FieldType) :=
  [⟨"slug", "slug", .scalar .text⟩,
    ⟨"title", "title", .scalar .text⟩,
    ⟨"short_title", "short_title", .scalar .text⟩,
    ⟨"state", "state", .scalar .text⟩,
    ⟨"og_title", "og_title", .scalar .text⟩,
    ⟨"og_description", "og_description", .scalar .text⟩,
    ⟨"description", "description", .scalar .free⟩,
    ⟨"team_description", "team_description", .scalar .free⟩,
    ⟨"title_position", "title_position", .scalar .text⟩,
    ⟨"relateds_format", "relateds_format", .scalar .text⟩,
    ⟨"relateds_background", "relateds_background", .scalar .text⟩,
    ⟨"publishedDate", "published_date", .scalar .date⟩,
    ⟨"updatedAt", "updated_at", .scalar .date⟩,
    ⟨"leading_image", "leading_image", .reference .image⟩,
    ⟨"leading_image_portrait", "leading_image_portrait", .reference .image⟩,
    ⟨"og_image", "og_image", .reference .image⟩,
    ⟨"leading_video", "leading_video", .reference .video⟩,
    ⟨"relateds", "relateds", .references .post⟩]

/-- The fields of a record type. -/
def fields : RecordType → List (Field FieldType)
  | .post => postFields
  | .topic => topicFields
  | .author =>
    [⟨"name", "name", .scalar .text⟩,
      ⟨"email", "email", .scalar .text⟩,
      ⟨"job_title", "job_title", .scalar .text⟩,
      ⟨"bio", "bio", .scalar .free⟩,
      ⟨"thumbnail", "thumbnail", .reference .image⟩,
      ⟨"updatedAt", "updated_at", .scalar .date⟩]
  | .image =>
    [⟨"description", "description", .scalar .text⟩,
      ⟨"copyright", "copyright", .scalar .text⟩,
      ⟨"image", "image", .asset .image⟩]
  | .video =>
    [⟨"title", "title", .scalar .text⟩,
      ⟨"video", "video", .asset .video⟩]
  | .label => [⟨"name", "name", .scalar .text⟩]
  | .theme =>
    [⟨"name", "name", .scalar .text⟩,
      ⟨"title_position", "title_position", .scalar .text⟩,
      ⟨"header_position", "header_position", .scalar .text⟩,
      ⟨"font_color", "font_color", .scalar .text⟩]

/-- The field that documents hold under a key, if the type knows the key. -/
def field? (type : RecordType) (key : String) : Option (Field FieldType) :=
  type.fields.find? fun field => field.key == key

end RecordType

/-- The field that a stored file holds under a key, if the type knows the key. -/
def AssetType.field? (type : AssetType) (key : String) : Option (Field ScalarType) :=
  type.fields.find? fun field => field.key == key

end NewsService
