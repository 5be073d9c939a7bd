import NewsService.Proofs.Config.Environment
import NewsService.Proofs.Http.Calls

/-!
# Origins that may read answers

The origins of a configuration become cross-origin rules unless the word for any origin has company
among them. An answer may be read from an origin if it allows exactly one thing, any origin or this
one. Main statement: under the rules of a configuration, the answers to all requests may be read
from any origin if the word for any origin stands alone, and else from the configured origins that
can be header values.
-/

namespace NewsService.Http

/-- The origins that headers allow to read. -/
def allowedOrigins (headers : List Header) : List String :=
  (headers.filter fun header => header.1 == "access-control-allow-origin").map Prod.snd

/-- Whether an answer may be read from an origin: it allows one thing, any origin or this one. -/
def Response.Admits (response : Response) (origin : String) : Prop :=
  ∃ value, allowedOrigins response.headers = [value] ∧ (value = "*" ∨ value = origin)

theorem allowedOrigins_append (headers more : List Header) :
    allowedOrigins (headers ++ more) = allowedOrigins headers ++ allowedOrigins more := by
  unfold allowedOrigins
  rw [List.filter_append, List.map_append]

/-! ## Rules -/

namespace Cors

variable {origins : List String} {cors : Cors} {origin : String}

/-- A list gives no rules exactly if the word for any origin has company in it. -/
theorem ofOrigins?_eq_none :
    ofOrigins? origins = none ↔ wildcard ∈ origins ∧ origins ≠ [wildcard] := by
  unfold ofOrigins?
  by_cases halone : origins = [wildcard]
  · rw [if_pos halone]
    simp [halone]
  · rw [if_neg halone]
    simp [halone]

theorem ofOrigins?_eq_some :
    ofOrigins? origins = some cors ↔
      origins = [wildcard] ∧ cors = .any ∨
        wildcard ∉ origins ∧ cors = .listed (origins.filter isHeaderValue) := by
  unfold ofOrigins?
  by_cases halone : origins = [wildcard]
  · have hmem : wildcard ∈ origins := halone ▸ List.mem_singleton_self wildcard
    rw [if_pos halone]
    constructor
    · intro h
      exact Or.inl ⟨halone, (Option.some.inj h).symm⟩
    · rintro (⟨-, rfl⟩ | ⟨hnot, -⟩)
      · rfl
      · exact absurd hmem hnot
  · rw [if_neg halone]
    by_cases hmem : wildcard ∈ origins
    · simp [halone, hmem]
    · rw [if_neg hmem]
      constructor
      · intro h
        exact Or.inr ⟨hmem, (Option.some.inj h).symm⟩
      · rintro (⟨hlist, -⟩ | ⟨-, rfl⟩)
        · exact absurd hlist halone
        · rfl

/-- Entries that can be no header values might as well be missing. -/
theorem ofOrigins?_filter (h : ofOrigins? origins = some cors) :
    ofOrigins? (origins.filter isHeaderValue) = some cors := by
  rw [ofOrigins?_eq_some] at h ⊢
  rcases h with ⟨rfl, rfl⟩ | ⟨hmem, rfl⟩
  · -- the word for any origin is a header value itself
    exact Or.inl ⟨rfl, rfl⟩
  · refine Or.inr ⟨fun hfound => hmem (List.mem_of_mem_filter hfound), ?_⟩
    rw [List.filter_filter]
    simp

/-- What rules for a list allow to an origin is any origin or this one exactly if the list is the
word for any origin, or has this origin as a header value. -/
theorem exists_allowedOrigin?_iff (h : ofOrigins? origins = some cors) :
    (∃ value, cors.allowedOrigin? (some origin) = some value ∧
      (value = wildcard ∨ value = origin)) ↔
      origins = [wildcard] ∨ ∃ entry ∈ origins, isHeaderValue entry = true ∧ entry = origin := by
  rcases ofOrigins?_eq_some.1 h with ⟨halone, rfl⟩ | ⟨hmem, rfl⟩
  · exact iff_of_true ⟨wildcard, rfl, Or.inl rfl⟩ (Or.inl halone)
  · have hcompany : origins ≠ [wildcard] := by
      intro halone
      exact hmem (halone ▸ List.mem_singleton_self wildcard)
    -- what a list allows is the origin of the request, so both sides say that it is listed
    simp [allowedOrigin?, Option.filter_eq_some_iff, hcompany]

/-- The rules add one header for origins at most. -/
theorem allowedOrigins_headers (cors : Cors) (request : Request) :
    allowedOrigins (cors.headers request) =
      (cors.allowedOrigin? (request.header? "origin")).toList := by
  rw [headers]
  cases cors.allowedOrigin? (request.header? "origin") with
  | none => rfl
  | some value => rfl

end Cors

/-! ## Answers -/

theorem headers_respond (result : Except Failure Json) :
    ∃ value, (respond result).headers = [("content-type", value)] := by
  cases result with
  | ok data => exact ⟨_, rfl⟩
  | error failure => cases failure <;> exact ⟨_, rfl⟩

namespace Server

variable {server : Server} {request : Request} {earlier : List Call} {cors : Cors}

theorem headers_get (server : Server) (query : String) (endpoint : Endpoint) (earlier : List Call) :
    ∃ value, (server.get query endpoint earlier).1.headers = [("content-type", value)] := by
  cases endpoint with
  | health => exact ⟨_, rfl⟩
  | records kind => exact headers_respond _
  | record kind segment => exact headers_respond _
  | indexPage => exact ⟨_, rfl⟩

/-- Endpoints say nothing about origins. -/
theorem allowedOrigins_route : allowedOrigins (server.route request earlier).1.headers = [] := by
  cases hroute : Endpoint.ofPath? request.target.path with
  | none =>
    rw [route, hroute]
    rfl
  | some endpoint =>
    have hget :
        allowedOrigins (server.get request.target.query endpoint earlier).1.headers = [] := by
      obtain ⟨value, hheaders⟩ := headers_get server request.target.query endpoint earlier
      rw [hheaders]
      rfl
    rw [route_eq hroute]
    cases request.method with
    | get => exact hget
    | head => exact hget
    | options => rfl
    | other => rfl

theorem allowedOrigins_preflight (cors : Cors) (request : Request) :
    allowedOrigins (preflight cors request).headers =
      (cors.allowedOrigin? (request.header? "origin")).toList := by
  have hmethods : allowedOrigins [("access-control-allow-methods", "GET,OPTIONS"),
      ("access-control-allow-headers", Cors.wildcard)] = [] := rfl
  have hendpoint : allowedOrigins
      (if (Endpoint.ofPath? request.target.path).isSome then allowHeaders else []) = [] := by
    split
    · rfl
    · rfl
  rw [preflight, Cors.preflightHeaders, allowedOrigins_append, allowedOrigins_append, hmethods,
    hendpoint, List.append_nil, List.append_nil, Cors.allowedOrigins_headers]

/-- What an answer allows is decided by the rules and the origin of the request alone. -/
theorem allowedOrigins_handle (hcors : server.cors = some cors) :
    allowedOrigins (server.handle request earlier).1.headers =
      (cors.allowedOrigin? (request.header? "origin")).toList := by
  rw [handle, hcors]
  dsimp only
  split
  · -- OPTIONS never reaches an endpoint
    exact allowedOrigins_preflight cors request
  · show allowedOrigins ((server.route request earlier).1.headers ++ cors.headers request) = _
    rw [allowedOrigins_append, allowedOrigins_route, List.nil_append, Cors.allowedOrigins_headers]

theorem admits_handle_iff {origin : String} (hcors : server.cors = some cors)
    (horigin : request.header? "origin" = some origin) :
    (server.handle request earlier).1.Admits origin ↔
      ∃ value, cors.allowedOrigin? (some origin) = some value ∧
        (value = Cors.wildcard ∨ value = origin) := by
  unfold Response.Admits
  rw [allowedOrigins_handle hcors, horigin]
  cases cors.allowedOrigin? (some origin) with
  | none => simp
  | some value => simp [Cors.wildcard]

/-- The origins of a configuration become rules unless the word for any origin has company among
them. Under these rules, whatever is asked of whichever server, the answer may be read from the
origin of the request exactly if the word for any origin stands alone or this origin is one of the
list that can be a header value; the other entries might as well be missing. -/
theorem configured_origins_admitted {env : Environment} {config : Config} {pieces : List String}
    (hconfig : Config.ofEnvironment env = .ok config)
    (hpieces : Text.ListsPieces ((env "CORS_ALLOWED_ORIGINS").getD "*") pieces) :
    (Cors.ofOrigins? config.origins = none ↔ "*" ∈ pieces ∧ pieces ≠ ["*"]) ∧
    ∀ cors, Cors.ofOrigins? config.origins = some cors →
      Cors.ofOrigins? (pieces.filter Cors.isHeaderValue) = some cors ∧
      ∀ (server : Server) (request : Request) (earlier : List Call) (origin : String),
        server.cors = some cors → request.header? "origin" = some origin →
        ((server.handle request earlier).1.Admits origin ↔
          pieces = ["*"] ∨
            ∃ piece ∈ pieces, Cors.isHeaderValue piece = true ∧ piece = origin) := by
  rw [Config.origins_eq hconfig hpieces]
  refine ⟨Cors.ofOrigins?_eq_none, fun cors hrules => ⟨Cors.ofOrigins?_filter hrules, ?_⟩⟩
  intro server request earlier origin hcors horigin
  rw [admits_handle_iff hcors horigin]
  exact Cors.exists_allowedOrigin?_iff hrules

/-- An environment with a list of origins. -/
def sharing (origins : String) : Environment := fun name =>
  [("MONGODB_URL", "mongodb://store:27017"), ("CORS_ALLOWED_ORIGINS", origins)].lookup name

/-- A server without documents, under the rules for two origins, one of them beyond ASCII, and an
empty one. -/
def sharedServer : Server where
  store := { source := { answer := fun _ _ => ⟨0, some []⟩, pingDelay := 0, isUp := true } }
  cors := some (.listed ["https://a.example", "", "https://é.example"])

/-- A request for all topics from an origin. -/
def topicsFrom (origin : String) : Request where
  target := ⟨"/v2/topics", "limit=5"⟩
  headers := [("Origin", origin)]

/-- Capitals in the name of a header do not matter. -/
theorem origin_topicsFrom (origin : String) :
    (topicsFrom origin).header? "origin" = some origin := by
  have hname : "Origin".toLower = "origin" := by
    rw [← String.toList_inj]
    exact String.toList_map
  simp only [Request.header?, topicsFrom, List.find?_cons, hname, BEq.rfl, Option.map_some]

theorem configured_origins_admitted_shared :
    ∃ config, Config.ofEnvironment (sharing "https://a.example,b\nc, ,\thttps://é.example ") =
        .ok config ∧
      Cors.ofOrigins? config.origins = sharedServer.cors ∧
      (sharedServer.handle (topicsFrom "https://é.example") []).1.Admits "https://é.example" ∧
      ¬ (sharedServer.handle (topicsFrom "https://É.example") []).1.Admits "https://É.example" := by
  have haccepted : Config.ofEnvironment
      (sharing "https://a.example,b\nc, ,\thttps://é.example ") = .ok
        { port := 3000
          storeUrl := "mongodb://store:27017"
          database := "plate"
          limits := {}
          relatedDepth := 1
          origins := ["https://a.example", "b\nc", "", "https://é.example"] } := rfl
  have hpieces : Text.ListsPieces "https://a.example,b\nc, ,\thttps://é.example "
      ["https://a.example", "b\nc", "", "https://é.example"] := Text.listsPieces_commaPieces _
  have hrules : Cors.ofOrigins? ["https://a.example", "b\nc", "", "https://é.example"] =
      sharedServer.cors := rfl
  obtain ⟨-, hadmitted⟩ := configured_origins_admitted haccepted hpieces
  obtain ⟨-, hiff⟩ := hadmitted _ hrules
  refine ⟨_, haccepted, hrules, ?_, ?_⟩
  · rw [hiff sharedServer (topicsFrom "https://é.example") [] _ rfl (origin_topicsFrom _)]
    exact Or.inr ⟨"https://é.example", by decide, by decide, rfl⟩
  · rw [hiff sharedServer (topicsFrom "https://É.example") [] _ rfl (origin_topicsFrom _)]
    decide

/-- A configuration may give no rules: the word for any origin stands next to another origin, or
next to the empty piece behind a trailing comma. -/
theorem configured_origins_refused :
    (∃ config, Config.ofEnvironment (sharing "*,https://a.example") = .ok config ∧
      Cors.ofOrigins? config.origins = none) ∧
    ∃ config, Config.ofEnvironment (sharing "*,") = .ok config ∧
      Cors.ofOrigins? config.origins = none := by
  exact ⟨⟨_, rfl, rfl⟩, _, rfl, rfl⟩

end Server

end NewsService.Http
