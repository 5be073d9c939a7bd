import NewsService.Document.Error
import NewsService.Query.Basic
import NewsService.Text.Duration

/-!
# Store errors

A call of the store fails as a whole: it was refused, it took too long, or a document of its answer
is no record of the expected type. Each error names the collection of the call.
-/

namespace NewsService

/-- Why a call of the store failed. -/
inductive StoreError where
  /-- The document store refused the call. -/
  | execute (collection : Collection)
  /-- A document of the answer could not be decoded. -/
  | decode (collection : Collection) (cause : DecodeError)
  /-- The call took longer than it was given. -/
  | timeout (collection : Collection) (limit : Duration)
  deriving DecidableEq, Repr

namespace StoreError

/-- The collection of the call. -/
def collection : StoreError → Collection
  | .execute collection => collection
  | .decode collection _ => collection
  | .timeout collection _ => collection

/-- Whether the call took too long. -/
def isTimeout : StoreError → Bool
  | .timeout _ _ => true
  | _ => false

/-- The wording of an error. -/
def message : StoreError → String
  | .execute collection => "aggregate on '" ++ collection.name ++ "' failed"
  | .decode collection _ => "failed to decode document from '" ++ collection.name ++ "'"
  | .timeout collection limit =>
    "aggregate on '" ++ collection.name ++ "' timed out after " ++ limit.text

end StoreError

end NewsService
