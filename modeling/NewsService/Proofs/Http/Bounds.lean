import NewsService.Proofs.Config.Bounds
import NewsService.Proofs.Http.Calls
import NewsService.Proofs.Pipeline.Bounds

/-!
# Bounded requests

Configured limits carry over to every pipeline that a list or a single record makes the server send.
Main statement: under every accepted configuration such a pipeline is bounded, a list tells the
window that it was served from, and asking for that window again sends the same calls.
-/

namespace NewsService

/-! ## Sizes of pages -/

namespace Limits

variable {limits : Limits}

/-- Sizes of pages that are positive and in order. -/
structure InOrder (limits : Limits) : Prop where
  default_pos : 0 < limits.defaultLimit
  default_le : limits.defaultLimit ≤ limits.maxLimit

theorem pageSize_pos (h : limits.InOrder) (requested : Option Int64) :
    0 < limits.pageSize requested := by
  have hmax : 0 < limits.maxLimit := Int64.lt_of_lt_of_le h.default_pos h.default_le
  cases requested with
  | none => exact h.default_pos
  | some n =>
    rw [pageSize]
    split
    · exact h.default_pos
    · next hpos =>
      split
      · exact hmax
      · exact Int64.not_le.1 hpos

theorem pageSize_le (h : limits.InOrder) (requested : Option Int64) :
    limits.pageSize requested ≤ limits.maxLimit := by
  cases requested with
  | none => exact h.default_le
  | some n =>
    rw [pageSize]
    split
    · exact h.default_le
    · split
      · exact Int64.le_refl _
      · next hle => exact Int64.not_lt.1 hle

theorem one_le_pageSize (h : limits.InOrder) (requested : Option Int64) :
    1 ≤ limits.pageSize requested := by
  have hpos := pageSize_pos h requested
  rw [Int64.lt_iff_toInt_lt, Int64.toInt_zero] at hpos
  rw [Int64.le_iff_toInt_le, Int64.toInt_one]
  omega

/-- A size that was granted is granted again. -/
theorem pageSize_pageSize (h : limits.InOrder) (requested : Option Int64) :
    limits.pageSize (some (limits.pageSize requested)) = limits.pageSize requested := by
  have hpos : ¬ limits.pageSize requested ≤ 0 := Int64.not_le.2 (pageSize_pos h requested)
  have hle : ¬ limits.maxLimit < limits.pageSize requested :=
    Int64.not_lt.2 (pageSize_le h requested)
  rw [pageSize.eq_def limits (some _)]
  dsimp only
  rw [if_neg hpos, if_neg hle]

end Limits

theorem Config.inOrder_of_ofEnvironment {env : Environment} {config : Config}
    (h : Config.ofEnvironment env = .ok config) : config.limits.InOrder :=
  have hbounds := Config.bounds_of_ofEnvironment h
  ⟨hbounds.1, hbounds.2.1⟩

namespace Http

/-! ## Queries of requests -/

namespace ListParams

variable {limits : Limits} {p : ListParams} {q : Query}

/-- The parameters that ask for a window, and for all else as before. -/
def asking (p : ListParams) (w : Window) : ListParams :=
  { p with limit := some w.limit, offset := some w.offset }

theorem offset_window_nonneg : 0 ≤ (p.window limits).offset := by
  have hmax : (p.window limits).offset = if p.offset.getD 0 ≤ 0 then 0 else p.offset.getD 0 := rfl
  rw [hmax]
  split
  · exact Int64.le_refl 0
  · next h => exact Int64.le_of_lt (Int64.not_le.1 h)

theorem window_asking (h : limits.InOrder) :
    (p.asking (p.window limits)).window limits = p.window limits := by
  have hmax : max (p.window limits).offset 0 =
      if (p.window limits).offset ≤ 0 then 0 else (p.window limits).offset := rfl
  have hoffset : max (p.window limits).offset 0 = (p.window limits).offset := by
    rw [hmax]
    split
    · next hle => exact Int64.le_antisymm offset_window_nonneg hle
    · rfl
  have hlimit : limits.pageSize (some (p.window limits).limit) = (p.window limits).limit :=
    Limits.pageSize_pageSize h p.limit
  rw [window.eq_def (p.asking _)]
  simp only [asking, Option.getD_some, hoffset, hlimit]

/-- Asking for the window that a request is granted is no other query. -/
theorem toQuery_asking (h : limits.InOrder) :
    (p.asking (p.window limits)).toQuery limits = p.toQuery limits := by
  rw [toQuery, toQuery, window_asking h]
  rfl

/-- Parameters denote a query unless their order cannot be read. -/
theorem toQuery_eq_ok :
    p.toQuery limits = .ok q ↔ ∃ order,
      (∀ text, p.sort = some text → SortOrder.parse text = .ok order) ∧
        (p.sort = none → order = {}) ∧
        q = { window := p.window limits, filter := p.filter, sort := order,
              full := p.full.getD false } := by
  unfold toQuery
  cases p.sort with
  | none =>
    constructor
    · intro h
      exact ⟨{}, nofun, fun _ => rfl, (Except.ok.inj h).symm⟩
    · rintro ⟨order, -, horder, rfl⟩
      rw [horder rfl]
      rfl
  | some text =>
    dsimp only
    cases horder : SortOrder.parse text with
    | error e =>
      constructor
      · intro h
        cases h
      · rintro ⟨order, hparse, -⟩
        rw [hparse text rfl] at horder
        cases horder
    | ok order =>
      constructor
      · intro h
        refine ⟨order, fun other hother => ?_, nofun, (Except.ok.inj h).symm⟩
        rw [← Option.some.inj hother, horder]
      · rintro ⟨order', hparse, -, rfl⟩
        rw [hparse text rfl] at horder
        rw [Except.ok.inj horder]
        rfl

theorem filter_of_toQuery (h : p.toQuery limits = .ok q) : q.filter = p.filter := by
  obtain ⟨order, -, -, rfl⟩ := toQuery_eq_ok.1 h
  rfl

theorem exists_toQuery_iff :
    (∃ q, p.toQuery limits = .ok q) ↔
      ∀ text, p.sort = some text → ∃ order, SortOrder.parse text = .ok order := by
  constructor
  · rintro ⟨q, hq⟩ text htext
    obtain ⟨order, horder, -⟩ := toQuery_eq_ok.1 hq
    exact ⟨order, horder text htext⟩
  · intro h
    cases hsort : p.sort with
    | none => exact ⟨_, toQuery_eq_ok.2 ⟨{}, by simp [hsort], fun _ => rfl, rfl⟩⟩
    | some text =>
      obtain ⟨order, horder⟩ := h text hsort
      exact ⟨_, toQuery_eq_ok.2 ⟨order, by simp [hsort, horder], by simp [hsort], rfl⟩⟩

theorem window_of_toQuery (h : p.toQuery limits = .ok q) : q.window = p.window limits := by
  obtain ⟨order, -, -, rfl⟩ := toQuery_eq_ok.1 h
  rfl

end ListParams

theorem listQuery_eq_ok {limits : Limits} {query : String} {q : Query} :
    listQuery limits query = .ok q ↔
      ∃ p, ListParams.ofQueryString query = .ok p ∧ p.toQuery limits = .ok q := by
  rw [listQuery]
  cases hparams : ListParams.ofQueryString query with
  | error e =>
    change Except.error (Failure.queryString e) = .ok q ↔ _
    simp
  | ok p =>
    change (p.toQuery limits).mapError Failure.unsupportedSort = .ok q ↔ _
    cases hquery : p.toQuery limits with
    | error e =>
      change Except.error (Failure.unsupportedSort e) = .ok q ↔ _
      simp [hquery]
    | ok q' =>
      change Except.ok q' = .ok q ↔ _
      simp [hquery]

theorem bounds_of_listQuery {limits : Limits} (h : limits.InOrder) {query : String} {q : Query}
    (hquery : listQuery limits query = .ok q) :
    0 ≤ q.window.offset ∧ 1 ≤ q.window.limit ∧ q.window.limit ≤ limits.maxLimit := by
  obtain ⟨p, -, hq⟩ := listQuery_eq_ok.1 hquery
  rw [ListParams.window_of_toQuery hq]
  exact ⟨ListParams.offset_window_nonneg, Limits.one_le_pageSize h p.limit,
    Limits.pageSize_le h p.limit⟩

/-! ## Calls of lists and single records -/

/-- Whether an endpoint is a list of records or a single record. -/
def Endpoint.showsRecords : Endpoint → Bool
  | .records _ => true
  | .record _ _ => true
  | _ => false

namespace Server

variable {server : Server} {kind : Kind} {segment query : String} {endpoint : Endpoint}

/-- The server that a configuration asks for. -/
def ofConfig (config : Config) (source : Source) (cors : Option Cors) : Server where
  store := ⟨source, config.relatedDepth⟩
  limits := config.limits
  cors := cors

/-- Whether all calls but those that count are bounded by the limits of a server. -/
def Bounds (server : Server) (sent : List Call) : Prop :=
  ∀ call ∈ sent, call.pipeline.counts = false →
    ∃ w, call.pipeline.Bounded server.limits.maxLimit server.store.relatedDepth w

theorem bounds_nil : server.Bounds [] := by
  intro call hcall
  cases hcall

theorem bounds_findCall {q : Query} (hoffset : 0 ≤ q.window.offset) (hlimit : 1 ≤ q.window.limit)
    (hmax : q.window.limit ≤ server.limits.maxLimit) :
    server.Bounds [server.store.findCall kind q] := by
  intro call hcall _
  rw [List.mem_singleton.1 hcall]
  exact ⟨q.window, Query.bounded_pipeline kind server.store.relatedDepth hoffset hlimit hmax⟩

theorem bounds_countCall {q : Query} : server.Bounds [Store.countCall kind q] := by
  intro call hcall hcounts
  rw [List.mem_singleton.1 hcall, Store.countCall, Query.counts_countPipeline] at hcounts
  cases hcounts

theorem Bounds.append {sent more : List Call} (h : server.Bounds sent) (h' : server.Bounds more) :
    server.Bounds (sent ++ more) := by
  intro call hcall
  rcases List.mem_append.1 hcall with hcall | hcall
  · exact h call hcall
  · exact h' call hcall

theorem Bounds.of_subset {sent more : List Call} (h : server.Bounds more) (hsub : sent ⊆ more) :
    server.Bounds sent := by
  intro call hcall
  exact h call (hsub hcall)

theorem list_bounded (h : server.limits.InOrder) (earlier : List Call) :
    ∃ sent, (server.list kind query earlier).2 = earlier ++ sent ∧ server.Bounds sent := by
  cases hquery : listQuery server.limits query with
  | error failure =>
    rw [list_of_refused hquery]
    exact ⟨[], (List.append_nil _).symm, bounds_nil⟩
  | ok q =>
    obtain ⟨hoffset, hlimit, hmax⟩ := bounds_of_listQuery h hquery
    have hfind : server.Bounds [server.store.findCall kind q] := bounds_findCall hoffset hlimit hmax
    obtain ⟨sent, hcalls, -, hsent, -⟩ := list_calls hquery earlier
    exact ⟨sent, hcalls, (hfind.append bounds_countCall).of_subset hsent.subset⟩

theorem lookup_bounded (h : server.limits.InOrder) (earlier : List Call) :
    ∃ sent, (server.lookup kind segment query earlier).2 = earlier ++ sent ∧
      server.Bounds sent := by
  cases hquery : recordQuery kind segment query with
  | error failure =>
    rw [lookup_of_refused hquery]
    exact ⟨[], (List.append_nil _).symm, bounds_nil⟩
  | ok q =>
    have hmax : (1 : Int64) ≤ server.limits.maxLimit :=
      Int64.le_trans (Limits.one_le_pageSize h none) (Limits.pageSize_le h none)
    rw [lookup_of_query hquery, Store.findOne_apply]
    exact ⟨_, rfl, bounds_findCall (Int64.le_refl 0) (Int64.le_refl 1) hmax⟩

theorem get_bounded (h : server.limits.InOrder) (hrecords : endpoint.showsRecords = true)
    (earlier : List Call) :
    ∃ sent, (server.get query endpoint earlier).2 = earlier ++ sent ∧ server.Bounds sent := by
  cases endpoint with
  | records kind => exact list_bounded h earlier
  | record kind segment => exact lookup_bounded h earlier
  | health => cases hrecords
  | indexPage => cases hrecords

/-- Whatever its method, a request for records sends calls that are bounded. -/
theorem handle_bounded {request : Request} (h : server.limits.InOrder)
    (hroute : Endpoint.ofPath? request.target.path = some endpoint)
    (hrecords : endpoint.showsRecords = true) (earlier : List Call) :
    ∃ sent, (server.handle request earlier).2 = earlier ++ sent ∧ server.Bounds sent := by
  rcases handle_calls hroute with hnone | hget
  · exact ⟨[], by rw [hnone, List.append_nil], bounds_nil⟩
  · rw [hget]
    exact get_bounded h hrecords earlier

end Server

/-! ## Windows that lists tell -/

/-- A number in the summary beside a list of records. -/
def Response.summary? (response : Response) (name : String) : Option Int :=
  match response.body with
  | .json (.object members) =>
    match members.lookup "data" with
    | some (.object parts) =>
      match parts.lookup "meta" with
      | some (.object numbers) =>
        match numbers.lookup name with
        | some (.integer n) => some n
        | _ => none
      | _ => none
    | _ => none
  | _ => none

theorem Response.summary?_congr {a b : Response} (h : a.body = b.body) :
    a.summary? = b.summary? := by
  funext name
  rw [summary?, summary?, h]

/-- Whether a request asks for the window `w` of a list, and for all else as another one did. -/
structure Request.Repeats (again request : Request) (w : Window) : Prop where
  method : again.method = request.method
  headers : again.headers = request.headers
  path : again.target.path = request.target.path
  params : ∃ p, ListParams.ofQueryString request.target.query = .ok p ∧
    ListParams.ofQueryString again.target.query = .ok (p.asking w)

namespace Server

variable {server : Server} {kind : Kind} {query : String} {request : Request}

theorem get_records (earlier : List Call) :
    server.get query (.records kind) earlier =
      (respond (server.list kind query earlier).1, (server.list kind query earlier).2) := rfl

/-- A list that succeeds tells the window of its query. -/
theorem summary?_of_success {earlier : List Call}
    (h : (respond (server.list kind query earlier).1).status = 200) :
    ∃ q, listQuery server.limits query = .ok q ∧
      (respond (server.list kind query earlier).1).summary? "offset" =
        some q.window.offset.toInt ∧
      (respond (server.list kind query earlier).1).summary? "limit" =
        some q.window.limit.toInt := by
  cases hquery : listQuery server.limits query with
  | error failure =>
    rw [list_of_refused hquery] at h
    exact absurd h (status_failure_ne failure)
  | ok q =>
    rw [list_of_query hquery] at h ⊢
    rcases Store.page_cases with ⟨e, hpage⟩ | ⟨result, hpage, hwindow⟩
    · rw [hpage] at h
      exact absurd h (status_failure_ne (.store e))
    · rw [hpage] at h ⊢
      cases result with
      | error e => exact absurd h (status_failure_ne (.store e))
      | ok page =>
        have hwindow : page.window = q.window := hwindow page rfl
        refine ⟨q, rfl, ?_, ?_⟩
        · rw [← hwindow]
          rfl
        · rw [← hwindow]
          rfl

/-- What a list has to do with the window `w` that it is served from: it sends one bounded call for
the records and one for their number, it tells the window, and a request for that window sends the
same calls again, whatever has been sent in between. -/
structure ServedFrom (server : Server) (request : Request) (response : Response)
    (sent : List Call) (w : Window) : Prop where
  calls : ∃ find count : Call, sent = [find, count] ∧
    find.pipeline.Bounded server.limits.maxLimit server.store.relatedDepth w ∧
    find.pipeline.counts = false ∧ count.pipeline.counts = true
  offset : response.summary? "offset" = some w.offset.toInt
  limit : response.summary? "limit" = some w.limit.toInt
  handle_repeat : ∀ again : Request, again.Repeats request w →
    server.handle again = server.handle request
  calls_repeat : ∀ again : Request, again.Repeats request w → ∀ later,
    ∃ resent, (server.handle again later).2 = later ++ resent ∧ resent ≠ [] ∧ resent <+: sent ∧
      ((server.handle again later).1.status = 200 → resent = sent)

theorem listQuery_of_repeats {limits : Limits} (h : limits.InOrder) {again : Request} {q : Query}
    (hquery : listQuery limits request.target.query = .ok q)
    (hrepeats : again.Repeats request q.window) :
    listQuery limits again.target.query = .ok q := by
  obtain ⟨p, hparams, hagain⟩ := hrepeats.params
  obtain ⟨_, hparams', hq⟩ := listQuery_eq_ok.1 hquery
  obtain rfl := Except.ok.inj (hparams.symm.trans hparams')
  refine listQuery_eq_ok.2 ⟨_, hagain, ?_⟩
  rw [ListParams.window_of_toQuery hq, ListParams.toQuery_asking h, hq]

theorem handle_of_repeats (h : server.limits.InOrder) {again : Request} {q : Query}
    (hroute : Endpoint.ofPath? request.target.path = some (.records kind))
    (hquery : listQuery server.limits request.target.query = .ok q)
    (hrepeats : again.Repeats request q.window) :
    server.handle again = server.handle request := by
  refine handle_congr hrepeats.method hrepeats.headers hrepeats.path fun endpoint hendpoint => ?_
  rw [hroute] at hendpoint
  obtain rfl := Option.some.inj hendpoint
  have hlist : server.list kind again.target.query = server.list kind request.target.query := by
    rw [list, list, hquery, listQuery_of_repeats h hquery hrepeats]
  rw [get, get, hlist]

theorem handle_of_query {q : Query}
    (hroute : Endpoint.ofPath? request.target.path = some (.records kind))
    (hget : request.method = .get) (hquery : listQuery server.limits request.target.query = .ok q)
    (earlier : List Call) :
    ∃ sent, (server.handle request earlier).2 = earlier ++ sent ∧ sent ≠ [] ∧
      sent <+: [server.store.findCall kind q, Store.countCall kind q] ∧
      ((server.handle request earlier).1.status = 200 →
        sent = [server.store.findCall kind q, Store.countCall kind q]) := by
  obtain ⟨hcalls, hstatus, -⟩ := server.handle_get earlier hroute hget
  rw [hcalls, hstatus, get_records]
  exact list_calls hquery earlier

theorem servedFrom_of_success (h : server.limits.InOrder) {earlier : List Call}
    (hroute : Endpoint.ofPath? request.target.path = some (.records kind))
    (hget : request.method = .get) (hsuccess : (server.handle request earlier).1.status = 200) :
    ∃ sent w, (server.handle request earlier).2 = earlier ++ sent ∧
      server.ServedFrom request (server.handle request earlier).1 sent w := by
  obtain ⟨-, hstatus, hbody⟩ := server.handle_get earlier hroute hget
  rw [get_records] at hstatus hbody
  obtain ⟨q, hquery, hoffset, hlimit⟩ := summary?_of_success (hstatus.symm.trans hsuccess)
  obtain ⟨_, hcalls, -, -, hsent⟩ := handle_of_query hroute hget hquery earlier
  rw [hsent hsuccess] at hcalls
  refine ⟨_, q.window, hcalls, ?_⟩
  rw [← Response.summary?_congr hbody] at hoffset hlimit
  exact
    { calls := by
        obtain ⟨hoffset, hlimit, hmax⟩ := bounds_of_listQuery h hquery
        exact ⟨_, _, rfl, Query.bounded_pipeline kind _ hoffset hlimit hmax,
          Query.counts_pipeline q kind _, Query.counts_countPipeline q⟩
      offset := hoffset
      limit := hlimit
      handle_repeat := fun again hrepeats => handle_of_repeats h hroute hquery hrepeats
      calls_repeat := fun again hrepeats later => by
        rw [handle_of_repeats h hroute hquery hrepeats]
        exact handle_of_query hroute hget hquery later }

/-- Under every configuration, a request for records sends calls that are bounded in the number of
documents and in the depth of joins. A list that succeeds tells the window that it is served
from. -/
theorem requests_bounded {env : Environment} {config : Config} {request : Request}
    {endpoint : Endpoint} (source : Source) (cors : Option Cors) (earlier : List Call)
    (hconfig : Config.ofEnvironment env = .ok config)
    (hroute : Endpoint.ofPath? request.target.path = some endpoint)
    (hrecords : endpoint.showsRecords = true) :
    config.relatedDepth ≤ 3 ∧
    ∃ sent, ((ofConfig config source cors).handle request earlier).2 = earlier ++ sent ∧
      (∀ call ∈ sent, call.pipeline.counts = false →
        ∃ w, call.pipeline.Bounded config.limits.maxLimit config.relatedDepth w) ∧
      ∀ kind, endpoint = .records kind → request.method = .get →
        ((ofConfig config source cors).handle request earlier).1.status = 200 →
        ∃ w, (ofConfig config source cors).ServedFrom request
          ((ofConfig config source cors).handle request earlier).1 sent w := by
  have horder : (ofConfig config source cors).limits.InOrder :=
    Config.inOrder_of_ofEnvironment hconfig
  obtain ⟨sent, hcalls, hbounds⟩ := handle_bounded horder hroute hrecords earlier
  refine ⟨(Config.bounds_of_ofEnvironment hconfig).2.2, sent, hcalls, hbounds, ?_⟩
  rintro kind rfl hget hsuccess
  obtain ⟨sent', w, hcalls', hserved⟩ := servedFrom_of_success horder hroute hget hsuccess
  obtain rfl : sent' = sent := List.append_cancel_left (hcalls'.symm.trans hcalls)
  exact ⟨w, hserved⟩

/-- An environment with bounds of its own. -/
def boundedEnvironment : Environment
  | "MONGODB_URL" => some "mongodb://localhost"
  | "NEWS_MAX_LIMIT" => some "20"
  | "NEWS_RELATED_DEPTH" => some "3"
  | _ => none

/-- A source that holds one record. -/
def singleSource : Source where
  answer _ call :=
    if call.pipeline.counts then ⟨1, some [[(Query.totalKey, .int32 1)]]⟩
    else ⟨2, some [[(idKey, .objectId ⟨List.replicate 12 5, rfl⟩)]]⟩
  pingDelay := 0
  isUp := true

/-- A request for more posts than there may be on a page, from a place that is none. -/
def greedyRequest : Request where
  target := ⟨"/v2/posts", "full=true&limit=500&offset=-3"⟩

/-- A request for the window that the greedy one is granted. -/
def grantedRequest : Request where
  target := ⟨"/v2/posts", "limit=20&full=true&offset=0"⟩

theorem requests_bounded_greedy :
    ∃ config, Config.ofEnvironment boundedEnvironment = .ok config ∧
    Endpoint.ofPath? greedyRequest.target.path = some (.records .post) ∧
    Endpoint.showsRecords (.records .post) = true ∧
    config.relatedDepth ≤ 3 ∧
    ∃ find count,
      ((ofConfig config singleSource none).handle greedyRequest []).2 = [find, count] ∧
      find.pipeline.Bounded 20 3 ⟨0, 20⟩ ∧
      (ofConfig config singleSource none).handle grantedRequest =
        (ofConfig config singleSource none).handle greedyRequest := by
  have hconfig : Config.ofEnvironment boundedEnvironment = .ok
      { port := 3000, storeUrl := "mongodb://localhost", database := "plate",
        limits := { maxLimit := 20 }, relatedDepth := 3, origins := ["*"] } := rfl
  have hroute : Endpoint.ofPath? greedyRequest.target.path = some (.records .post) := rfl
  refine ⟨_, hconfig, hroute, rfl, ?_⟩
  obtain ⟨hdepth, sent, hcalls, -, hlist⟩ :=
    requests_bounded singleSource none [] hconfig hroute rfl
  obtain ⟨w, hserved⟩ := hlist .post rfl rfl rfl
  obtain ⟨find, count, rfl, hbounded, -⟩ := hserved.calls
  have hoffset : some w.offset.toInt = some 0 := hserved.offset.symm.trans rfl
  have hlimit : some w.limit.toInt = some 20 := hserved.limit.symm.trans rfl
  obtain rfl : w = ⟨0, 20⟩ := by
    obtain ⟨offset, limit⟩ := w
    rw [Window.mk.injEq]
    exact ⟨Int64.toInt_inj.1 (Option.some.inj hoffset),
      Int64.toInt_inj.1 (Option.some.inj hlimit)⟩
  refine ⟨hdepth, find, count, hcalls, hbounded, hserved.handle_repeat _ ?_⟩
  exact
    { method := rfl
      headers := rfl
      path := rfl
      params := ⟨{ full := some true, limit := some 500, offset := some (-3) }, rfl, rfl⟩ }

end Server

end Http

end NewsService
