import NewsService.Http.Message
import NewsService.Text.Utf8

/-!
# Cross-origin rules

Which origins may read answers from a browser: any, or those of a list, byte by byte. Entries that
can be no header value are ignored. The word for any origin must stand alone: in a list with other
entries it is an error.
-/

namespace NewsService.Http

/-- The origins that may read answers. -/
inductive Cors where
  /-- Any origin. -/
  | any
  /-- The origins of a list. -/
  | listed (origins : List String)
  deriving DecidableEq, Repr

namespace Cors

/-- The word for any origin. -/
def wildcard : String := "*"

/-- Whether an octet may stand in a header value: tab may, and all that are no control characters of
ASCII, so those of any other character may. -/
def isHeaderOctet (octet : UInt8) : Bool :=
  octet == 0x09 || (0x20 ≤ octet.toNat && octet.toNat != 0x7f)

/-- Whether a text can be a header value. -/
def isHeaderValue (s : String) : Bool :=
  (Utf8.ofString s).all isHeaderOctet

/-- The rules for a list of origins; `none` when the word for any origin has company. -/
def ofOrigins? (origins : List String) : Option Cors :=
  if origins = [wildcard] then some .any
  else if wildcard ∈ origins then none
  else some (.listed (origins.filter isHeaderValue))

/-- The origin that an answer allows, given the origin of the request. -/
def allowedOrigin? : Cors → Option String → Option String
  | .any, _ => some wildcard
  | .listed origins, origin => origin.filter origins.contains

/-- The headers on every answer. -/
def headers (cors : Cors) (request : Request) : List Header :=
  ("vary", "origin, access-control-request-method, access-control-request-headers") ::
    match cors.allowedOrigin? (request.header? "origin") with
    | some origin => [("access-control-allow-origin", origin)]
    | none => []

/-- The headers on the answer to a request that only asks what is allowed. -/
def preflightHeaders (cors : Cors) (request : Request) : List Header :=
  cors.headers request ++
    [("access-control-allow-methods", "GET,OPTIONS"), ("access-control-allow-headers", wildcard)]

end Cors

end NewsService.Http
