import NewsService.Http.Message
import NewsService.Http.QueryString
import NewsService.Pipeline.Sort
import NewsService.Store.Error

/-!
# Failures

What can go wrong with a request to an endpoint, and how it is told. Requests that cannot be read
are refused in plain text. All later failures are told in JSON; those of the store show only whether
time ran out, so that nothing about the store leaks.
-/

namespace NewsService.Http

/-- Why a request has no success. -/
inductive Failure where
  /-- A path segment is not UTF-8 when its escapes are resolved. -/
  | path (parameter : String)
  /-- The query string is refused. -/
  | queryString (cause : QueryStringError)
  /-- The order has a key that is not known. -/
  | unsupportedSort (key : UnsupportedSortKey)
  /-- There is no such record. -/
  | notFound
  /-- The store failed. -/
  | store (cause : StoreError)
  deriving DecidableEq, Repr

namespace Failure

/-- The status of a failure. -/
def status : Failure → Nat
  | .path _ => 400
  | .queryString _ => 400
  | .unsupportedSort _ => 400
  | .notFound => 404
  | .store cause => if cause.isTimeout then 504 else 500

/-- The wording of a failure. -/
def message : Failure → String
  | .path parameter => "Invalid URL: Invalid UTF-8 in `" ++ parameter ++ "`"
  | .queryString cause => "Failed to deserialize query string: " ++ cause.message
  | .unsupportedSort key => "bad request: unsupported sort field '" ++ key.name ++ "'"
  | .notFound => "not found"
  | .store cause => if cause.isTimeout then "query timed out" else "internal server error"

/-- A failure told in JSON: a word for whose failure it is, and its wording. -/
def envelope (failure : Failure) (word : String) : Response :=
  .json failure.status
    (.object [("status", .string word), ("message", .string failure.message)])

/-- The response that tells a failure. -/
def response (failure : Failure) : Response :=
  match failure with
  | .path _ => .plain failure.status failure.message
  | .queryString _ => .plain failure.status failure.message
  | .unsupportedSort _ => failure.envelope "fail"
  | .notFound => failure.envelope "fail"
  | .store _ => failure.envelope "error"

end Failure

end NewsService.Http
