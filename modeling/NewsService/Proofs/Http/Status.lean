import NewsService.Proofs.Http.Calls
import NewsService.Proofs.Store.Script

/-!
# What a status tells

The status of a list or of a single record tells how the calls of the store ended, and nothing else
is told about a failure of the store. Main statement: over a script the status is decided by what
the script says of the collection, and all responses to GET with the status of a failed store have
the same body.
-/

namespace NewsService.Http

/-- Whether a status tells the first of these that is the case: time ran out, something broke,
nothing was found. -/
structure Tells (late broken missing : Prop) (status : Nat) : Prop where
  of_late : late → status = 504
  of_broken : ¬ late → broken → status = 500
  of_missing : ¬ late → ¬ broken → missing → status = 404
  of_found : ¬ late → ¬ broken → ¬ missing → status = 200

theorem Tells.iff {late broken missing : Prop} {status : Nat}
    (h : Tells late broken missing status) :
    (status = 504 ↔ late) ∧ (status = 500 ↔ ¬ late ∧ broken) ∧
      (status = 404 ↔ ¬ late ∧ ¬ broken ∧ missing) ∧
      (status = 200 ↔ ¬ late ∧ ¬ broken ∧ ¬ missing) := by
  by_cases hlate : late
  · simp [h.of_late hlate, hlate]
  by_cases hbroken : broken
  · simp [h.of_broken hlate hbroken, hlate, hbroken]
  by_cases hmissing : missing
  · simp [h.of_missing hlate hbroken hmissing, hlate, hbroken, hmissing]
  · simp [h.of_found hlate hbroken hmissing, hlate, hbroken, hmissing]

theorem status_store_failure (e : StoreError) :
    (respond (.error (.store e))).status = if e.isTimeout then 504 else 500 :=
  status_response _

section Told

variable {α : Type} {tell : Except StoreError α → Except Failure Json}
  (htell : ∀ e, tell (.error e) = .error (.store e)) {result : Except StoreError α}
include htell

theorem status_of_timesOut (h : TimesOut result) : (respond (tell result)).status = 504 := by
  obtain ⟨e, rfl, htimeout⟩ := h
  rw [htell, status_store_failure, if_pos htimeout]

theorem status_of_breaks (h : Breaks result) : (respond (tell result)).status = 500 := by
  obtain ⟨e, rfl, htimeout⟩ := h
  rw [htell, status_store_failure, htimeout]
  rfl

end Told

namespace Server

variable {server : Server} {script : Script} {request : Request} {kind : Kind}
  {query segment : String} {q : Query} {earlier : List Call}

/-! ## Lists and single records -/

section Scripted

variable (hsource : server.store.source = script.source)
include hsource

/-- A list is found, if only empty, when nothing has failed. -/
theorem tells_list (h : listQuery server.limits query = .ok q) :
    Tells (script.IsLate kind server.limits.queryTimeout)
      (script.Refuses kind ∨ script.HasUnreadable kind ∨ script.HasUnreadableCount kind) False
      (respond (server.list kind query earlier).1).status := by
  have hlate : TimesOut (server.store.page kind q server.limits.queryTimeout earlier).1 ↔ _ :=
    Script.page_timesOut_iff hsource
  have hbroken : Breaks (server.store.page kind q server.limits.queryTimeout earlier).1 ↔ _ :=
    Script.page_breaks_iff hsource
  rw [list_of_query h]
  dsimp only
  refine ⟨fun htime => status_of_timesOut (fun _ => rfl) (hlate.2 htime),
    fun htime hfailed => status_of_breaks (fun _ => rfl) (hbroken.2 ⟨htime, hfailed⟩),
    fun _ _ hmissing => hmissing.elim, fun htime hsound _ => ?_⟩
  obtain ⟨page, hpage⟩ := exists_ok_of_not_failed (mt hlate.1 htime)
    fun hfailed => hsound (hbroken.1 hfailed).2
  rw [hpage]
  rfl

theorem tells_lookup (h : recordQuery kind segment query = .ok q) :
    Tells (script.IsLate kind server.limits.queryTimeout)
      (script.Refuses kind ∨ script.HasUnreadable kind) (script.documentsOf kind = [])
      (respond (server.lookup kind segment query earlier).1).status := by
  have hlate : TimesOut (server.store.findOne kind q server.limits.queryTimeout earlier).1 ↔ _ :=
    Script.findOne_timesOut_iff hsource
  have hbroken : Breaks (server.store.findOne kind q server.limits.queryTimeout earlier).1 ↔ _ :=
    Script.findOne_breaks_iff hsource
  have hnone : ¬ script.IsLate kind server.limits.queryTimeout →
      ¬ (script.Refuses kind ∨ script.HasUnreadable kind) →
      ((server.store.findOne kind q server.limits.queryTimeout earlier).1 = .ok none ↔
        script.documentsOf kind = []) := by
    intro htime hsound
    exact Script.findOne_eq_none_iff hsource (mt hlate.1 htime)
      fun hfailed => hsound (hbroken.1 hfailed).2
  rw [lookup_of_query h]
  dsimp only
  refine ⟨fun htime => status_of_timesOut (fun _ => rfl) (hlate.2 htime),
    fun htime hfailed => status_of_breaks (fun _ => rfl) (hbroken.2 ⟨htime, hfailed⟩),
    fun htime hsound hmissing => ?_, fun htime hsound hfound => ?_⟩
  · rw [(hnone htime hsound).2 hmissing]
    rfl
  · obtain ⟨found, hresult⟩ := exists_ok_of_not_failed (mt hlate.1 htime)
      fun hfailed => hsound (hbroken.1 hfailed).2
    cases found with
    | none => exact absurd ((hnone htime hsound).1 hresult) hfound
    | some record =>
      rw [hresult]
      rfl

end Scripted

/-! ## Requests -/

/-- What a request asks for: a list of records, or a single record. -/
inductive Form where
  | list
  | single
  deriving DecidableEq

/-- Whether a request is a well-formed one for records of a kind. -/
inductive Asks (limits : Limits) (request : Request) : Kind → Form → Prop
  | list {kind : Kind} {q : Query}
      (hroute : Endpoint.ofPath? request.target.path = some (.records kind))
      (hquery : listQuery limits request.target.query = .ok q) : Asks limits request kind .list
  | single {kind : Kind} {segment : String} {q : Query}
      (hroute : Endpoint.ofPath? request.target.path = some (.record kind segment))
      (hquery : recordQuery kind segment request.target.query = .ok q) :
      Asks limits request kind .single

/-- HEAD has the status of GET. -/
theorem status_handle {endpoint : Endpoint}
    (hroute : Endpoint.ofPath? request.target.path = some endpoint)
    (hmethod : request.method = .get ∨ request.method = .head) :
    (server.handle request earlier).1.status =
      (server.get request.target.query endpoint earlier).1.status := by
  have hstatus : (server.route request earlier).1.status =
      (server.get request.target.query endpoint earlier).1.status := by
    rw [route_eq hroute]
    rcases hmethod with hget | hhead
    · rw [hget]
    · rw [hhead]
      rfl
  rw [handle]
  cases server.cors with
  | none => exact hstatus
  | some cors =>
    have hoptions : request.method ≠ .options := by
      rcases hmethod with hget | hhead
      · rw [hget]
        decide
      · rw [hhead]
        decide
    dsimp only
    rw [if_neg hoptions]
    exact hstatus

/-- The body that tells a failure of the store. -/
def failureBody (status : Nat) : Body :=
  .json (.object [("status", .string "error"),
    ("message", .string (if status = 504 then "query timed out" else "internal server error"))])

theorem body_store_failure (e : StoreError) :
    (respond (.error (.store e))).body = failureBody (if e.isTimeout then 504 else 500) := by
  have hbody : (respond (.error (.store e))).body = .json (.object [("status", .string "error"),
      ("message", .string (if e.isTimeout then "query timed out" else "internal server error"))]) :=
    rfl
  rw [hbody, failureBody]
  by_cases htimeout : e.isTimeout = true
  · rw [if_pos htimeout, if_pos htimeout, if_pos rfl]
  · rw [if_neg htimeout, if_neg htimeout, if_neg (by decide)]

theorem body_respond {result : Except Failure Json}
    (h : (respond result).status = 500 ∨ (respond result).status = 504) :
    (respond result).body = failureBody (respond result).status := by
  cases result with
  | ok data => simp [respond, success, Response.json] at h
  | error failure =>
    cases failure with
    | store e => rw [body_store_failure, status_store_failure]
    | _ => simp [respond, status_response, Failure.status] at h

theorem body_get {endpoint : Endpoint}
    (h : (server.get query endpoint earlier).1.status = 500 ∨
      (server.get query endpoint earlier).1.status = 504) :
    (server.get query endpoint earlier).1.body =
      failureBody (server.get query endpoint earlier).1.status := by
  cases endpoint with
  | health =>
    have hstatus : (server.get query .health earlier).1.status =
        if server.store.ping server.limits.queryTimeout then 200 else 503 := rfl
    rw [hstatus] at h
    split at h <;> simp at h
  | records kind => exact body_respond h
  | record kind segment => exact body_respond h
  | indexPage =>
    have hstatus : (server.get query .indexPage earlier).1.status = 200 := rfl
    simp [hstatus] at h

/-- Whatever is asked for, the body of a failure of the store is told by its status. -/
theorem body_handle (h : (server.handle request earlier).1.status = 500 ∨
    (server.handle request earlier).1.status = 504) :
    (server.handle request earlier).1.body =
      if request.method = .get then failureBody (server.handle request earlier).1.status
      else .empty := by
  have hroute : ((server.route request earlier).1.status = 500 ∨
      (server.route request earlier).1.status = 504) →
      (server.route request earlier).1.body =
        if request.method = .get then failureBody (server.route request earlier).1.status
        else .empty := by
    intro hfailed
    cases hendpoint : Endpoint.ofPath? request.target.path with
    | none =>
      have hstatus : (server.route request earlier).1.status = 404 := by
        rw [route, hendpoint]
        rfl
      simp [hstatus] at hfailed
    | some endpoint =>
      rw [route_eq hendpoint] at hfailed ⊢
      cases hmethod : request.method with
      | get =>
        rw [hmethod] at hfailed
        rw [if_pos rfl]
        exact body_get hfailed
      | head => rw [if_neg (by decide)]; rfl
      | options => rw [if_neg (by decide)]; rfl
      | other => rw [if_neg (by decide)]; rfl
  rw [handle] at h ⊢
  cases hcors : server.cors with
  | none =>
    rw [hcors] at h
    exact hroute h
  | some cors =>
    rw [hcors] at h
    dsimp only at h ⊢
    split at h
    · next hoptions =>
      rw [if_pos hoptions, hoptions, if_neg (by decide)]
      rfl
    · next hoptions =>
      rw [if_neg hoptions]
      exact hroute h

/-- Over a script, the status of a well-formed request for records tells the first thing that goes
wrong: time runs out, or a call is refused or a row cannot be read, or there is no record. Two
failures of the store with one status have the same body, whatever is asked of which server. -/
theorem status_classifies (hsource : server.store.source = script.source) {form : Form}
    (hmethod : request.method = .get ∨ request.method = .head)
    (hasks : Asks server.limits request kind form) (earlier : List Call) :
    ((server.handle request earlier).1.status = 504 ↔
      script.IsLate kind server.limits.queryTimeout) ∧
    ((server.handle request earlier).1.status = 500 ↔
      ¬ script.IsLate kind server.limits.queryTimeout ∧
        (script.Refuses kind ∨ script.HasUnreadable kind ∨
          form = .list ∧ script.HasUnreadableCount kind)) ∧
    ((server.handle request earlier).1.status = 404 ↔
      ¬ script.IsLate kind server.limits.queryTimeout ∧
        ¬ (script.Refuses kind ∨ script.HasUnreadable kind ∨
          form = .list ∧ script.HasUnreadableCount kind) ∧
        (form = .single ∧ script.documentsOf kind = [])) ∧
    ((server.handle request earlier).1.status = 200 ↔
      ¬ script.IsLate kind server.limits.queryTimeout ∧
        ¬ (script.Refuses kind ∨ script.HasUnreadable kind ∨
          form = .list ∧ script.HasUnreadableCount kind) ∧
        ¬ (form = .single ∧ script.documentsOf kind = [])) ∧
    ∀ (other : Server) (request' : Request) (earlier' : List Call),
      request'.method = request.method →
      (other.handle request' earlier').1.status = (server.handle request earlier).1.status →
      (server.handle request earlier).1.status = 500 ∨
        (server.handle request earlier).1.status = 504 →
      (other.handle request' earlier').1.body = (server.handle request earlier).1.body := by
  have htells : Tells (script.IsLate kind server.limits.queryTimeout)
      (script.Refuses kind ∨ script.HasUnreadable kind ∨
        form = .list ∧ script.HasUnreadableCount kind)
      (form = .single ∧ script.documentsOf kind = [])
      (server.handle request earlier).1.status := by
    cases hasks with
    | list hroute hquery =>
      have hlist : Tells _ _ _
          (server.get request.target.query (.records kind) earlier).1.status :=
        tells_list hsource hquery
      rw [status_handle hroute hmethod]
      simpa using hlist
    | @single segment q hroute hquery =>
      have hlookup : Tells _ _ _
          (server.get request.target.query (.record kind segment) earlier).1.status :=
        tells_lookup hsource hquery
      rw [status_handle hroute hmethod]
      simpa using hlookup
  obtain ⟨hlate, hbroken, hmissing, hfound⟩ := htells.iff
  refine ⟨hlate, hbroken, hmissing, hfound, fun other request' earlier' hsame hstatus hfailed => ?_⟩
  rw [body_handle hfailed, body_handle (hstatus ▸ hfailed), hsame, hstatus]

/-- A script in which posts cannot be read and topics come late, and there are no authors. -/
def strained : Script where
  documents := [("posts", [[("title", .string "Elections")]])]
  delays := [("topics", 900)]

/-- A server over this script. -/
def strainedServer : Server where
  store := { source := strained.source }
  limits := { queryTimeout := ⟨500⟩ }

/-- A request for all posts, one for a topic and one for an author. -/
def allPosts : Request where
  target := ⟨"/v2/posts", ""⟩

def oneTopic : Request where
  target := ⟨"/v2/topics/elections", "full=false"⟩

def oneAuthor : Request where
  method := .head
  target := ⟨"/v2/authors/5f0c2a7e9d3b4c1a2e8f6a04", ""⟩

theorem status_classifies_strained :
    (strainedServer.handle allPosts []).1.status = 500 ∧
    (strainedServer.handle oneTopic []).1.status = 504 ∧
    (strainedServer.handle oneAuthor []).1.status = 404 ∧
    ∀ (other : Server) (request : Request) (earlier : List Call), request.method = .get →
      (other.handle request earlier).1.status = 500 →
      (other.handle request earlier).1.body = (strainedServer.handle allPosts []).1.body := by
  have hsource : strainedServer.store.source = strained.source := rfl
  have hposts : Asks strainedServer.limits allPosts .post .list :=
    .list (q := { window := ⟨0, 10⟩ }) rfl rfl
  have htopic : Asks strainedServer.limits oneTopic .topic .single :=
    .single (q := { filter := { slug := "elections" }, full := false }) rfl rfl
  have hauthor : Asks strainedServer.limits oneAuthor .author .single :=
    .single (q := { filter := { ids := ["5f0c2a7e9d3b4c1a2e8f6a04"] }, full := true }) rfl rfl
  obtain ⟨-, hbroken, -, -, hsame⟩ := status_classifies hsource (Or.inl rfl) hposts []
  obtain ⟨hlate, -⟩ := status_classifies hsource (Or.inl rfl) htopic []
  obtain ⟨-, -, hmissing, -⟩ := status_classifies hsource (Or.inr rfl) hauthor []
  have hunread : strained.HasUnreadable .post :=
    ⟨_, List.mem_singleton_self _, .missingField idKey, rfl⟩
  have hauthors : strained.documentsOf .author = [] := rfl
  have hfailed : (strainedServer.handle allPosts []).1.status = 500 :=
    hbroken.2 ⟨by decide, Or.inr (Or.inl hunread)⟩
  refine ⟨hfailed, hlate.2 (by decide), hmissing.2 ⟨by decide, ?_, rfl, hauthors⟩,
    fun other request earlier hget hstatus => ?_⟩
  · rintro (hrefused | ⟨d, hd, -⟩ | ⟨hform, -⟩)
    · exact absurd hrefused (by decide)
    · rw [hauthors] at hd
      cases hd
    · cases hform
  · exact hsame other request earlier hget (hstatus.trans hfailed.symm) (Or.inl hfailed)

end Server

end NewsService.Http
