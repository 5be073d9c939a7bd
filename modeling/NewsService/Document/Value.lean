import NewsService.Document.Decimal128
import NewsService.Number.Binary64
import NewsService.ObjectId

/-!
# Document values

The values that a document store holds. A document is a list of fields in order; keys do not repeat.
-/

namespace NewsService

/-- A value of a stored document. -/
inductive Value where
  | null
  | boolean (b : Bool)
  | int32 (n : Int32)
  | int64 (n : Int64)
  | double (x : Binary64)
  | string (s : String)
  | array (items : List Value)
  | document (fields : List (String × Value))
  | objectId (id : ObjectId)
  /-- A point in time, in milliseconds since the beginning of 1970. -/
  | dateTime (millis : Int64)
  /-- Octets with a tag; the tag 0 marks generic ones. -/
  | binary (subtype : UInt8) (octets : List UInt8)
  | undefined
  | minKey
  | maxKey
  | symbol (name : String)
  /-- Program text. -/
  | code (source : String)
  /-- Program text with the bindings it runs under. -/
  | scopedCode (source : String) (scope : List (String × Value))
  | regex (pattern options : String)
  /-- An internal time mark: seconds and a counter within the second. -/
  | timestamp (seconds increment : UInt32)
  | decimal128 (x : Decimal128)
  /-- A reference into a named collection. -/
  | pointer (collection : String) (id : ObjectId)

/-- A document: fields in order. -/
abbrev Document := List (String × Value)

namespace Document

/-- Sets a field. A key that is there keeps its place and takes the new value. -/
def insert (key : String) (value : Value) : Document → Document
  | [] => [(key, value)]
  | field :: rest =>
    if field.1 = key then (key, value) :: rest else field :: insert key value rest

/-- The document of a list of fields in which keys may repeat: the first place and the last value
count. -/
def ofFields (fields : List (String × Value)) : Document :=
  fields.foldl (fun document (key, value) => document.insert key value) []

end Document

/-- The types of values. -/
inductive ValueType where
  | null | boolean | int32 | int64 | double | string | array | document | objectId | dateTime
  | binary | undefined | minKey | maxKey | symbol | code | scopedCode | regex | timestamp
  | decimal128 | pointer
  deriving DecidableEq, Repr

/-- The name of a type in messages. -/
def ValueType.name : ValueType → String
  | .null => "Null"
  | .boolean => "Boolean"
  | .int32 => "Int32"
  | .int64 => "Int64"
  | .double => "Double"
  | .string => "String"
  | .array => "Array"
  | .document => "EmbeddedDocument"
  | .objectId => "ObjectId"
  | .dateTime => "DateTime"
  | .binary => "Binary"
  | .undefined => "Undefined"
  | .minKey => "MinKey"
  | .maxKey => "MaxKey"
  | .symbol => "Symbol"
  | .code => "JavaScriptCode"
  | .scopedCode => "JavaScriptCodeWithScope"
  | .regex => "RegularExpression"
  | .timestamp => "Timestamp"
  | .decimal128 => "Decimal128"
  | .pointer => "DbPointer"

namespace Value

/-- The type of a value. -/
def type : Value → ValueType
  | .null => .null
  | .boolean _ => .boolean
  | .int32 _ => .int32
  | .int64 _ => .int64
  | .double _ => .double
  | .string _ => .string
  | .array _ => .array
  | .document _ => .document
  | .objectId _ => .objectId
  | .dateTime _ => .dateTime
  | .binary _ _ => .binary
  | .undefined => .undefined
  | .minKey => .minKey
  | .maxKey => .maxKey
  | .symbol _ => .symbol
  | .code _ => .code
  | .scopedCode _ _ => .scopedCode
  | .regex _ _ => .regex
  | .timestamp _ _ => .timestamp
  | .decimal128 _ => .decimal128
  | .pointer _ _ => .pointer

/-- The text of a value: a string, or generic octets that are UTF-8. -/
def text? : Value → Option String
  | .string s => some s
  | .binary 0 octets => Utf8.toString? octets
  | _ => none

/-- A whole number of either width. -/
def integer? : Value → Option Int
  | .int32 n => some n.toInt
  | .int64 n => some n.toInt
  | _ => none

/-- Whether a value is of a type that has an extended spelling and no other form outside the store,
so that a reader meets it as a document with one reserved key. -/
def isSpelled : Value → Bool
  | .objectId _ | .dateTime _ | .undefined | .minKey | .maxKey | .symbol _ | .code _
  | .scopedCode _ _ | .regex _ _ | .timestamp _ _ | .decimal128 _ | .pointer _ _ => true
  | .binary subtype _ => subtype != 0
  | _ => false

end Value

end NewsService
