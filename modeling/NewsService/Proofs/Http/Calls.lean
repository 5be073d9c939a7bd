import NewsService.Http.Server
import NewsService.Proofs.Store.Calls

/-!
# Calls of the server

A request that is refused sends nothing to the store, and every other one has the calls of the store
operation that its query asks for. What the server adds to an answer for its method and its origin
leaves the status and the calls alone.
-/

namespace NewsService.Http

theorem status_response (failure : Failure) : failure.response.status = failure.status := by
  cases failure <;> rfl

/-- A failure never has the status of a success. -/
theorem status_failure_ne (failure : Failure) : failure.response.status ≠ 200 := by
  rw [status_response]
  cases failure with
  | store cause =>
    rw [Failure.status]
    split <;> decide
  | _ => simp [Failure.status]

namespace Server

variable {server : Server} {kind : Kind} {query segment : String} {q : Query} {earlier : List Call}

/-! ## Lists and single records -/

theorem list_of_refused {failure : Failure} (h : listQuery server.limits query = .error failure) :
    server.list kind query earlier = (.error failure, earlier) := by
  rw [list, h]
  rfl

/-- What a page of the store is told as. -/
def pageResult : Except StoreError Page → Except Failure Json
  | .error cause => .error (.store cause)
  | .ok page => .ok page.toJson

theorem list_of_query (h : listQuery server.limits query = .ok q) :
    server.list kind query earlier =
      (pageResult (server.store.page kind q server.limits.queryTimeout earlier).1,
        (server.store.page kind q server.limits.queryTimeout earlier).2) := by
  rw [list, h]
  simp only [bind, StateT.bind]
  generalize server.store.page kind q server.limits.queryTimeout earlier = answer
  obtain ⟨result, calls⟩ := answer
  cases result <;> rfl

/-- Whatever has been sent before it, the calls of a list that fails are the first ones of those
that it sends when it succeeds. -/
theorem list_calls (h : listQuery server.limits query = .ok q) (earlier : List Call) :
    ∃ sent, (server.list kind query earlier).2 = earlier ++ sent ∧ sent ≠ [] ∧
      sent <+: [server.store.findCall kind q, Store.countCall kind q] ∧
      ((respond (server.list kind query earlier).1).status = 200 →
        sent = [server.store.findCall kind q, Store.countCall kind q]) := by
  rw [list_of_query h]
  rcases Store.page_cases with ⟨e, hpage⟩ | ⟨result, hpage, -⟩
  · rw [hpage]
    exact ⟨[server.store.findCall kind q], rfl, List.cons_ne_nil _ _, ⟨_, rfl⟩,
      fun hsuccess => absurd hsuccess (status_failure_ne (.store e))⟩
  · rw [hpage]
    exact ⟨_, rfl, List.cons_ne_nil _ _, List.prefix_rfl, fun _ => rfl⟩

theorem lookup_of_refused {failure : Failure}
    (h : recordQuery kind segment query = .error failure) :
    server.lookup kind segment query earlier = (.error failure, earlier) := by
  rw [lookup, h]
  rfl

/-- What a record of the store is told as. -/
def recordResult : Except StoreError (Option Record) → Except Failure Json
  | .error cause => .error (.store cause)
  | .ok none => .error .notFound
  | .ok (some record) => .ok record.toJson

theorem lookup_of_query (h : recordQuery kind segment query = .ok q) :
    server.lookup kind segment query earlier =
      (recordResult (server.store.findOne kind q server.limits.queryTimeout earlier).1,
        (server.store.findOne kind q server.limits.queryTimeout earlier).2) := by
  rw [lookup, h]
  simp only [bind, StateT.bind]
  generalize server.store.findOne kind q server.limits.queryTimeout earlier = answer
  obtain ⟨result, calls⟩ := answer
  cases result with
  | error e => rfl
  | ok found => cases found <;> rfl

/-! ## Requests -/

variable {request : Request} {endpoint : Endpoint}

theorem route_eq (hroute : Endpoint.ofPath? request.target.path = some endpoint) :
    server.route request =
      match request.method with
      | .get => server.get request.target.query endpoint
      | .head => Response.withoutBody <$> server.get request.target.query endpoint
      | _ => pure { status := 405, headers := allowHeaders } := by
  cases hmethod : request.method <;> simp only [route, hroute, hmethod]

/-- Whatever its method and its origin, a request to an endpoint has the calls of the endpoint, or
none. -/
theorem handle_calls (hroute : Endpoint.ofPath? request.target.path = some endpoint) :
    (server.handle request earlier).2 = earlier ∨
      (server.handle request earlier).2 =
        (server.get request.target.query endpoint earlier).2 := by
  have hcalls : (server.route request earlier).2 = earlier ∨
      (server.route request earlier).2 =
        (server.get request.target.query endpoint earlier).2 := by
    rw [route_eq hroute]
    cases request.method with
    | get => exact Or.inr rfl
    | head => exact Or.inr rfl
    | options => exact Or.inl rfl
    | other => exact Or.inl rfl
  rw [handle]
  cases server.cors with
  | none => exact hcalls
  | some cors =>
    dsimp only
    split
    · exact Or.inl rfl
    · exact hcalls

/-- A GET request to an endpoint has the answer of the endpoint, but for headers. -/
theorem handle_get (server : Server) (earlier : List Call)
    (hroute : Endpoint.ofPath? request.target.path = some endpoint)
    (hget : request.method = .get) :
    (server.handle request earlier).2 = (server.get request.target.query endpoint earlier).2 ∧
    (server.handle request earlier).1.status =
      (server.get request.target.query endpoint earlier).1.status ∧
    (server.handle request earlier).1.body =
      (server.get request.target.query endpoint earlier).1.body := by
  have heq : server.route request = server.get request.target.query endpoint := by
    rw [route_eq hroute, hget]
  rw [handle, heq]
  cases server.cors with
  | none => exact ⟨rfl, rfl, rfl⟩
  | some cors =>
    dsimp only
    rw [hget, if_neg (by decide)]
    exact ⟨rfl, rfl, rfl⟩

/-- Requests for which an endpoint does the same are handled in the same way. -/
theorem handle_congr {other : Request} (hmethod : other.method = request.method)
    (hheaders : other.headers = request.headers) (hpath : other.target.path = request.target.path)
    (hget : ∀ endpoint, Endpoint.ofPath? request.target.path = some endpoint →
      server.get other.target.query endpoint = server.get request.target.query endpoint) :
    server.handle other = server.handle request := by
  have hroute : server.route other = server.route request := by
    rw [route, route, hpath, hmethod]
    cases hendpoint : Endpoint.ofPath? request.target.path with
    | none => rfl
    | some endpoint =>
      dsimp only
      rw [hget endpoint hendpoint]
  have hcors : ∀ cors : Cors, cors.headers other = cors.headers request := by
    intro cors
    rw [Cors.headers, Cors.headers, Request.header?, Request.header?, hheaders]
  rw [handle, handle, hroute, hmethod]
  simp only [preflight, Cors.preflightHeaders, hcors, hpath]

end Server

end NewsService.Http
