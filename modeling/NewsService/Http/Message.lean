import NewsService.Json

/-!
# Requests and responses

A request names a method, a target and headers; a response has a status, headers and a body. The
target is a path and a query string. In a reference, a scheme and an authority may precede them, and
a fragment may follow behind `#`; neither is part of the target.
-/

namespace NewsService.Http

/-- The methods that the service tells apart. -/
inductive Method where
  | get | head | options
  /-- Any other method. -/
  | other
  deriving DecidableEq, Repr

/-- The method of a name; names are in capitals. -/
def Method.ofName : String → Method
  | "GET" => .get
  | "HEAD" => .head
  | "OPTIONS" => .options
  | _ => .other

/-- What a request asks for. -/
structure Target where
  /-- The path, with its percent escapes. -/
  path : String
  /-- The query string, without the `?`; empty if there is none. -/
  query : String
  deriving DecidableEq, Repr

/-- Drops a scheme and an authority, which end before the first `/` or `?` behind `://`. A reference
that has neither these nor a `/` in front has no path. -/
def Target.relative (reference : List Char) : List Char :=
  match reference with
  | '/' :: _ => reference
  | _ =>
    match reference.dropWhile (· != ':') with
    | ':' :: '/' :: '/' :: rest => rest.dropWhile fun c => c != '/' && c != '?'
    | _ => []

/-- Cuts a target out of a reference: the fragment is dropped, and the query string starts behind
the first `?`. -/
def Target.ofReference (reference : String) : Target :=
  let kept := Target.relative (reference.toList.takeWhile (· != '#'))
  { path := String.ofList (kept.takeWhile (· != '?'))
    query := String.ofList ((kept.dropWhile (· != '?')).drop 1) }

/-- A header: its name and its value. -/
abbrev Header := String × String

/-- A request. -/
structure Request where
  /-- The method. -/
  method : Method := .get
  /-- The target. -/
  target : Target
  /-- The headers. -/
  headers : List Header := []
  deriving DecidableEq, Repr

/-- The value of the first header of a name, which is given in small letters. Header names are the
same in capitals. -/
def Request.header? (request : Request) (name : String) : Option String :=
  (request.headers.find? fun header => header.1.toLower == name).map Prod.snd

/-- The body of a response. -/
inductive Body where
  | empty
  | text (s : String)
  | json (value : Json)

/-- A response. -/
structure Response where
  /-- The status. -/
  status : Nat
  /-- The headers, with names in small letters. -/
  headers : List Header := []
  /-- The body. -/
  body : Body := .empty

namespace Response

/-- A response in plain text. -/
def plain (status : Nat) (s : String) : Response :=
  ⟨status, [("content-type", "text/plain; charset=utf-8")], .text s⟩

/-- A response in JSON. -/
def json (status : Nat) (value : Json) : Response :=
  ⟨status, [("content-type", "application/json")], .json value⟩

/-- The same response with more headers. -/
def withHeaders (response : Response) (headers : List Header) : Response :=
  { response with headers := response.headers ++ headers }

/-- The same response without its body. -/
def withoutBody (response : Response) : Response :=
  { response with body := .empty }

end Response

end NewsService.Http
