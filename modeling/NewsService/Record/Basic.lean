import NewsService.Calendar.Instant
import NewsService.Json
import NewsService.ObjectId
import NewsService.Record.Schema

/-!
# Records

A record has a type, an identifier, and one content for each field of its schema, in the order of
the schema. A reference is either still an identifier or the record that was joined in its place, so
one type serves results of every expansion.
-/

namespace NewsService

/-- The content of a plain field. -/
inductive Scalar where
  | text (s : String)
  | flag (b : Bool)
  | number (n : Option Int64)
  | date (t : Option Instant)
  | free (j : Option Json)

/-- The content of a plain field that a document does not have. -/
def ScalarType.default : ScalarType → Scalar
  | .text => .text ""
  | .flag => .flag false
  | .number => .number none
  | .date => .date none
  | .free => .free none

mutual

/-- A record. -/
structure Record where
  /-- The type, whose schema says what the contents are. -/
  type : RecordType
  /-- The identifier. -/
  id : ObjectId
  /-- The contents, in the order of the schema. -/
  contents : List Content

/-- The content of a field. -/
inductive Content where
  | scalar (s : Scalar)
  /-- A stored file: one content for each of its fields, or none. -/
  | asset (fields : Option (List Scalar))
  | reference (target : Option Related)
  | references (targets : List Related)

/-- A reference. -/
inductive Related where
  /-- It has not been joined. -/
  | id (id : ObjectId)
  /-- It has been replaced by the record that it names. -/
  | expanded (record : Record)

end

/-- The content of a field that a document does not have. -/
def FieldType.default : FieldType → Content
  | .scalar type => .scalar type.default
  | .asset _ => .asset none
  | .reference _ => .reference none
  | .references _ => .references []

namespace Related

/-- Whether a reference has been replaced by its record. -/
def isExpanded : Related → Bool
  | .id _ => false
  | .expanded _ => true

/-- The record in place of a reference. -/
def record? : Related → Option Record
  | .id _ => none
  | .expanded record => some record

end Related

end NewsService
