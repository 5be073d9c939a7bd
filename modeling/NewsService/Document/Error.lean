import NewsService.Document.Value

/-!
# Decoding errors

A document that is no record of the expected type is refused for one cause. The causes that a
message names are a reference or a number of the wrong type, a missing field, and the text of a bad
identifier; every other mismatch is one cause without details.
-/

namespace NewsService

/-- Why a value cannot be decoded. -/
inductive DecodeError where
  /-- A reference holds a value of a type that is neither identifier nor document. -/
  | notReference (found : ValueType)
  /-- A number field holds a value of a type that is no finite number. -/
  | notNumber (found : ValueType)
  /-- A required field is missing. -/
  | missingField (key : String)
  /-- A reference holds a string that is no identifier. -/
  | badId (error : ObjectId.TextError)
  /-- A value does not have the type of its field. -/
  | mismatch
  deriving DecidableEq, Repr

/-- The details that are told about an error, if any. -/
def DecodeError.detail? : DecodeError → Option String
  | .notReference found =>
    some ("expected object id or embedded document, found " ++ found.name)
  | .notNumber found => some ("expected a number, found " ++ found.name)
  | .missingField key => some ("missing field `" ++ key ++ "`")
  | .badId error => some error.message
  | .mismatch => none

/-- The value that is there, or a mismatch. -/
def DecodeError.orMismatch {α : Type} : Option α → Except DecodeError α
  | some a => .ok a
  | none => .error .mismatch

end NewsService
