import NewsService.Http.Cors
import NewsService.Http.Failure
import NewsService.Http.Params
import NewsService.Http.Route
import NewsService.Store.Json

/-!
# The server

A server answers requests from a store. The request is read first, as a whole: a request that is
refused sends nothing to the store. Lists of records are pages; a single record is the first one
that its segment selects, with all references joined unless told otherwise. Endpoints answer to GET,
and to HEAD with the same answer less its body.
-/

namespace NewsService.Http

/-- A server. -/
structure Server where
  /-- The store. -/
  store : Store
  /-- Bounds on requests. -/
  limits : Limits := {}
  /-- The cross-origin rules, if there are any. -/
  cors : Option Cors := none

/-- The name of the free segment in the route to a single record. -/
def selectorName : Kind → String
  | .author => "id"
  | _ => "slug"

/-- The condition that selects a single record: authors by identifier, all others by slug. -/
def selector : Kind → String → Filter
  | .author, text => { ids := [text] }
  | _, text => { slug := text }

/-- The query that a request for a list denotes. -/
def listQuery (limits : Limits) (query : String) : Except Failure Query := do
  let params ← (ListParams.ofQueryString query).mapError .queryString
  (params.toQuery limits).mapError .unsupportedSort

/-- The query that a request for a single record denotes. -/
def recordQuery (kind : Kind) (segment query : String) : Except Failure Query := do
  let some text := Urlencoded.segmentText? segment | .error (.path (selectorName kind))
  let params ← (RecordParams.ofQueryString query).mapError .queryString
  return { filter := selector kind text, full := params.full.getD true }

/-- A success: what was asked for, in an envelope. -/
def success (data : Json) : Response :=
  .json 200 (.object [("status", .string "success"), ("data", data)])

/-- The response that tells a result. -/
def respond : Except Failure Json → Response
  | .ok data => success data
  | .error failure => failure.response

/-- The answer about health. -/
def healthResponse (healthy : Bool) : Response :=
  .json (if healthy then 200 else 503)
    (.object [("status", .string (if healthy then "healthy" else "unhealthy")),
      ("mongodb", .bool healthy)])

/-- The headers that name the methods of an endpoint. -/
def allowHeaders : List Header :=
  [("allow", "GET,HEAD")]

namespace Server

/-- Lists records. -/
def list (server : Server) (kind : Kind) (query : String) : Session (Except Failure Json) :=
  match listQuery server.limits query with
  | .error failure => return .error failure
  | .ok q => do
    match ← server.store.page kind q server.limits.queryTimeout with
    | .error cause => return .error (.store cause)
    | .ok page => return .ok page.toJson

/-- Looks up a single record. -/
def lookup (server : Server) (kind : Kind) (segment query : String) :
    Session (Except Failure Json) :=
  match recordQuery kind segment query with
  | .error failure => return .error failure
  | .ok q => do
    match ← server.store.findOne kind q server.limits.queryTimeout with
    | .error cause => return .error (.store cause)
    | .ok none => return .error .notFound
    | .ok (some record) => return .ok record.toJson

/-- The answer of an endpoint to GET. -/
def get (server : Server) (query : String) : Endpoint → Session Response
  | .health => return healthResponse (server.store.ping server.limits.queryTimeout)
  | .records kind => respond <$> server.list kind query
  | .record kind segment => respond <$> server.lookup kind segment query
  | .indexPage => do
    let page ← IndexPage.assemble server.store Section.standard server.limits.indexTimeout
    return success page.toJson

/-- The answer without cross-origin rules. -/
def route (server : Server) (request : Request) : Session Response :=
  match Endpoint.ofPath? request.target.path with
  | none => return { status := 404 }
  | some endpoint =>
    match request.method with
    | .get => server.get request.target.query endpoint
    | .head => Response.withoutBody <$> server.get request.target.query endpoint
    | _ => return { status := 405, headers := allowHeaders }

/-- The answer to a request that only asks what is allowed. -/
def preflight (cors : Cors) (request : Request) : Response where
  status := 200
  headers := cors.preflightHeaders request ++
    if (Endpoint.ofPath? request.target.path).isSome then allowHeaders else []

/-- The answer to a request. With cross-origin rules, OPTIONS only asks what is allowed. -/
def handle (server : Server) (request : Request) : Session Response :=
  match server.cors with
  | none => server.route request
  | some cors =>
    if request.method = .options then return preflight cors request
    else (·.withHeaders (cors.headers request)) <$> server.route request

end Server

end NewsService.Http
