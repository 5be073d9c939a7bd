import NewsService.Proofs.Http.Calls
import NewsService.Proofs.Http.Requests
import NewsService.Proofs.Pipeline.Layout
import NewsService.Proofs.Pipeline.Selection
import NewsService.Store.Script

/-!
# Requests for a single record

A single record is looked up by the text in the last segment of the path, and by nothing else. Main
statement: a request for one is refused and sends nothing, or it sends one call, whose pipeline
selects by that text.
-/

namespace NewsService.Http

/-! ## The condition -/

/-- Whether a condition selects the record of a kind for which a text stands: by slug, and authors
by the identifier that the text denotes, if it denotes one. -/
inductive Selects (text : String) : Kind → String × Condition → Prop
  | slug {kind : Kind} (h : kind ≠ .author) : Selects text kind ("slug", .text text)
  | id {id : ObjectId} (h : ObjectId.Denotes text id) : Selects text .author ("_id", .oneOf [id])
  | nothing (h : ObjectId.isWellFormed text = false) : Selects text .author ("_id", .oneOf [])

variable {kind : Kind} {text segment query : String}

theorem exists_selects (hne : text ≠ "") (kind : Kind) :
    ∃ condition, Selects text kind condition ∧
      (selector kind text).stages = [.select [condition]] := by
  have hzero : (FilterValue.text text).condition? = some (.text text) := by
    unfold FilterValue.condition?
    rw [if_neg (mt FilterValue.isZero_text.1 hne)]
  have hconditions : ({ slug := text } : Filter).conditions = [("slug", .text text)] := by
    unfold Filter.conditions Filter.fields
    rw [List.filterMap_cons_some (by rw [hzero]; rfl)]
    rfl
  have hslug : ({ slug := text } : Filter).stages = [.select [("slug", .text text)]] := by
    unfold Filter.stages
    rw [hconditions]
    rfl
  cases kind with
  | post => exact ⟨_, .slug (by decide), hslug⟩
  | topic => exact ⟨_, .slug (by decide), hslug⟩
  | author =>
    have hid : (selector .author text).stages =
        [.select [("_id", .oneOf (ObjectId.ofTexts [text]))]] := rfl
    by_cases hform : ObjectId.isWellFormed text = true
    · obtain ⟨id, hdenotes⟩ := ObjectId.isWellFormed_iff.1 hform
      have hids : ObjectId.ofTexts [text] = [id] :=
        List.filterMap_cons_some (ObjectId.ofText?_eq_some.2 hdenotes)
      rw [hid, hids]
      exact ⟨_, .id hdenotes, rfl⟩
    · have hids : ObjectId.ofTexts [text] = [] := by
        refine List.eq_nil_iff_forall_not_mem.2 fun id hmem => hform ?_
        obtain ⟨other, hother, hdenotes⟩ := ObjectId.mem_ofTexts.1 hmem
        rw [← List.mem_singleton.1 hother]
        exact ObjectId.isWellFormed_iff.2 ⟨id, hdenotes⟩
      rw [hid, hids]
      exact ⟨_, .nothing (Bool.eq_false_iff.2 hform), rfl⟩

/-- A text that denotes no identifier lets no document pass, whatever the store takes to be
equal. -/
theorem passes?_of_ill_formed {condition : String × Condition} (h : Selects text .author condition)
    (hform : ObjectId.isWellFormed text = false) (same : Equality) (d : Document) :
    same.passes? d (Pipeline.toDocuments [.select [condition]]) = some false := by
  cases h with
  | slug hne => exact absurd rfl hne
  | id hdenotes =>
    have hgood := ObjectId.isWellFormed_iff.2 ⟨_, hdenotes⟩
    rw [hform] at hgood
    cases hgood
  | nothing =>
    have hnone : (d.lookup "_id").any (fun _ => false) = false := by
      cases d.lookup "_id" <;> rfl
    have hmeets : same.meets? d ("_id", .document [("$in", .array [])]) = some false := by
      rw [← hnone]
      rfl
    simp [Pipeline.toDocuments, Stage.toDocument, Stage.conditionValue, Equality.passes?,
      Equality.meetsAll?, hmeets]

/-! ## The extent of joins -/

/-- The values that a query string gives to a name, in order. -/
def valuesOf (name query : String) : List String :=
  ((Urlencoded.pairs query).filter fun pair => name == pair.1).map Prod.snd

/-- Whether the values given to `full` tell the extent of joins. All references are joined unless
told otherwise, and no more than one value may be given. -/
inductive TellsExtent : List String → Expansion → Prop
  | silent : TellsExtent [] .full
  | full : TellsExtent ["true"] .full
  | summary : TellsExtent ["false"] .summary

theorem recordParams_eq (query : String) :
    RecordParams.ofQueryString query =
      ((valuesOf "full" query).map fun value => ("full", value)).foldlM
        (takePair RecordParams.known) {} := by
  have hknown : isKnown RecordParams.known = fun name => "full" == name := by
    funext name
    exact Bool.or_false _
  have hname : ∀ pair ∈ (Urlencoded.pairs query).filter fun pair => "full" == pair.1,
      ("full", pair.2) = pair := by
    intro pair hpair
    rw [eq_of_beq (List.mem_filter.1 hpair).2]
  unfold RecordParams.ofQueryString takeQueryString valuesOf
  rw [takePairs_filter, hknown, List.map_map]
  exact congrArg _ ((List.map_congr_left hname).trans (List.map_id' _)).symm

theorem takePair_full (p : RecordParams) (value : String) :
    takePair RecordParams.known p ("full", value) =
      if p.full.isSome then .error (.duplicate "full")
      else ((readBool value).map fun b => { p with full := some b }).mapError (.invalid "full") :=
  rfl

theorem recordParams_of_tells {expansion : Expansion}
    (h : TellsExtent (valuesOf "full" query) expansion) :
    ∃ full : Option Bool, RecordParams.ofQueryString query = .ok ⟨full⟩ ∧
      (if full.getD true then .full else .summary) = expansion := by
  rw [recordParams_eq]
  generalize valuesOf "full" query = values at h
  cases h with
  | silent => exact ⟨none, rfl, rfl⟩
  | full => exact ⟨some true, rfl, rfl⟩
  | summary => exact ⟨some false, rfl, rfl⟩

theorem recordParams_refused (h : ∀ expansion, ¬ TellsExtent (valuesOf "full" query) expansion) :
    ∃ e, RecordParams.ofQueryString query = .error e := by
  rw [recordParams_eq]
  generalize valuesOf "full" query = values at h
  -- the second pair of a name is refused whatever its value is
  cases values with
  | nil => exact absurd .silent (h .full)
  | cons value rest =>
    rw [List.map_cons, List.foldlM_cons, takePair_full]
    cases hread : readBool value with
    | error cause => exact ⟨_, rfl⟩
    | ok b =>
      cases rest with
      | nil =>
        rw [readBool_eq_ok] at hread
        cases b
        · exact absurd (hread ▸ .summary) (h .summary)
        · exact absurd (hread ▸ .full) (h .full)
      | cons next more => exact ⟨_, rfl⟩

namespace Server

variable {server : Server} {request : Request} {earlier : List Call}

/-! ## The call -/

theorem recordQuery_eq_ok {full : Option Bool} (htext : Urlencoded.segmentText? segment = some text)
    (hfull : RecordParams.ofQueryString query = .ok ⟨full⟩) :
    recordQuery kind segment query =
      .ok { filter := selector kind text, full := full.getD true } := by
  unfold recordQuery
  rw [htext, hfull]
  rfl

theorem recordQuery_refused (h : Urlencoded.segmentText? segment = none ∨
    ∀ expansion, ¬ TellsExtent (valuesOf "full" query) expansion) :
    ∃ failure, recordQuery kind segment query = .error failure ∧ failure.status = 400 := by
  unfold recordQuery
  cases htext : Urlencoded.segmentText? segment with
  | none => exact ⟨_, rfl, rfl⟩
  | some text =>
    rcases h with h | h
    · rw [htext] at h
      cases h
    · obtain ⟨e, he⟩ := recordParams_refused h
      rw [he]
      exact ⟨_, rfl, rfl⟩

theorem not_isUnder_of_mem_joinStages {expansion : Expansion} {depth : Nat} {stage : Stage}
    (h : stage ∈ kind.joinStages expansion depth) :
    ∀ key ∈ ["$sort", "$skip"], Stage.isUnder key stage.toDocument = false := by
  have hplace := Kind.place_of_mem_joinStages stage h
  cases stage <;> simp [Stage.place] at hplace <;> simp [Stage.isUnder, Stage.toDocument]

theorem get_record : server.get query (.record kind segment) earlier =
    (respond (server.lookup kind segment query earlier).1,
      (server.lookup kind segment query earlier).2) := rfl

theorem get_record_refused (h : Urlencoded.segmentText? segment = none ∨
    ∀ expansion, ¬ TellsExtent (valuesOf "full" query) expansion) :
    (server.get query (.record kind segment) earlier).1.status = 400 ∧
      (server.get query (.record kind segment) earlier).2 = earlier := by
  obtain ⟨failure, hfailure, hstatus⟩ := recordQuery_refused h
  rw [get_record, lookup_of_refused hfailure]
  exact ⟨(status_response failure).trans hstatus, rfl⟩

/-- The call that looks up a single record. -/
theorem get_record_calls {full : Option Bool} {condition : String × Condition}
    (htext : Urlencoded.segmentText? segment = some text)
    (hfull : RecordParams.ofQueryString query = .ok ⟨full⟩)
    (hstages : (selector kind text).stages = [.select [condition]]) :
    (server.get query (.record kind segment) earlier).2 =
      earlier ++ [⟨kind.collection, .select [condition] :: .limit 1 ::
        kind.joinStages (if full.getD true then .full else .summary)
          server.store.relatedDepth⟩] := by
  rw [get_record, lookup_of_query (recordQuery_eq_ok htext hfull), Store.findOne_apply]
  unfold Store.findCall Query.pipeline Query.stages
  dsimp only
  rw [hstages]
  rfl

/-- A path that leads nowhere sends nothing. -/
theorem handle_unrouted (server : Server) (earlier : List Call)
    (hroute : Endpoint.ofPath? request.target.path = none) (hget : request.method = .get) :
    (server.handle request earlier).1.status = 404 ∧
      (server.handle request earlier).2 = earlier := by
  have hnone : server.route request = pure { status := 404 } := by
    unfold route
    rw [hroute]
  unfold handle
  rw [hnone]
  cases server.cors with
  | none => exact ⟨rfl, rfl⟩
  | some cors =>
    dsimp only
    rw [hget, if_neg (by decide)]
    exact ⟨rfl, rfl⟩

/-- A request for a single record is refused and sends nothing, or it sends one call over the
collection of the kind: the record is selected by the text of the segment alone, in no order, and
the first one is kept. An author is never selected by a text that is no identifier. -/
theorem single_record_selected (server : Server) (earlier : List Call)
    (hget : request.method = .get) (hpath : request.target.path = recordPath kind segment)
    (hslash : '/' ∉ segment.toList) :
    ((server.handle request earlier).1.status ∈ [400, 404] ∧
      (server.handle request earlier).2 = earlier ∧
      (segment = "" ∨ Urlencoded.segmentText? segment = none ∨
        ∀ expansion, ¬ TellsExtent (valuesOf "full" request.target.query) expansion)) ∨
    ∃ text condition expansion pipeline,
      segment ≠ "" ∧ Urlencoded.segmentText? segment = some text ∧ text ≠ "" ∧
      (∀ written, Urlencoded.Escaped (Utf8.ofString written) (Utf8.ofString segment) →
        written = text) ∧
      Selects text kind condition ∧
      TellsExtent (valuesOf "full" request.target.query) expansion ∧
      (server.handle request earlier).2 = earlier ++ [⟨kind.collection, pipeline⟩] ∧
      pipeline = .select [condition] :: .limit 1 ::
        kind.joinStages expansion server.store.relatedDepth ∧
      Pipeline.toDocuments pipeline =
        [("$match", .document [(condition.1, Stage.conditionValue condition.2)])] ::
        [("$limit", .int64 1)] ::
        Pipeline.toDocuments (kind.joinStages expansion server.store.relatedDepth) ∧
      (∀ stage ∈ pipeline, ∀ key ∈ ["$sort", "$skip"],
        Stage.isUnder key stage.toDocument = false) ∧
      (kind = .author → ObjectId.isWellFormed text = false → ∀ (same : Equality) (d : Document),
        same.passes? d (Pipeline.toDocuments [.select [condition]]) = some false) := by
  have hroute := ofPath?_recordPath hslash kind
  rw [← hpath] at hroute
  by_cases hempty : segment = ""
  · rw [if_pos hempty] at hroute
    obtain ⟨hstatus, hcalls⟩ := handle_unrouted server earlier hroute hget
    rw [hstatus, hcalls]
    exact Or.inl ⟨by decide, rfl, Or.inl hempty⟩
  rw [if_neg hempty] at hroute
  obtain ⟨hcalls, hstatus, -⟩ := handle_get server earlier hroute hget
  rw [hcalls, hstatus]
  by_cases hrefused : Urlencoded.segmentText? segment = none ∨
      ∀ expansion, ¬ TellsExtent (valuesOf "full" request.target.query) expansion
  · obtain ⟨hbad, hsame⟩ := get_record_refused hrefused
    rw [hbad, hsame]
    exact Or.inl ⟨by decide, rfl, Or.inr hrefused⟩
  · rw [not_or, not_forall_not] at hrefused
    obtain ⟨hsome, expansion, htells⟩ := hrefused
    obtain ⟨text, htext⟩ := Option.ne_none_iff_exists'.1 hsome
    have hne : text ≠ "" := Urlencoded.segmentText?_ne_empty htext hempty
    obtain ⟨condition, hselects, hstages⟩ := exists_selects hne kind
    obtain ⟨full, hfull, rfl⟩ := recordParams_of_tells htells
    refine Or.inr ⟨text, condition, _, _, hempty, htext, hne, fun written hwritten => ?_, hselects,
      htells, get_record_calls htext hfull hstages, rfl, rfl, ?_, ?_⟩
    · have hread := Urlencoded.segmentText?_of_escaped hwritten
      exact Option.some.inj (hread.symm.trans htext)
    · intro stage hstage
      rcases List.mem_cons.1 hstage with rfl | hstage
      · simp [Stage.isUnder, Stage.toDocument]
      rcases List.mem_cons.1 hstage with rfl | hstage
      · simp [Stage.isUnder, Stage.toDocument]
      · exact not_isUnder_of_mem_joinStages hstage
    · rintro rfl hform
      exact passes?_of_ill_formed hselects hform

/-- A server over an empty store. -/
def emptyServer : Server where
  store := { source := Script.source {} }

/-- A request for the author `zz` in summary. -/
def authorZz : Request where
  target := ⟨"/v2/authors/z%7A", "lang=de&full=false"⟩

theorem single_record_selected_nobody :
    (emptyServer.handle authorZz []).2 =
      [⟨.contacts, .select [("_id", .oneOf [])] :: .limit 1 ::
        Kind.author.joinStages .summary defaultRelatedDepth⟩] ∧
    ∀ (same : Equality) (d : Document),
      same.passes? d (Pipeline.toDocuments [.select [("_id", .oneOf [])]]) = some false := by
  have hpath : authorZz.target.path = recordPath .author "z%7A" := rfl
  have hslash : '/' ∉ "z%7A".toList := by decide
  have htext : Urlencoded.segmentText? "z%7A" = some "zz" := rfl
  have hextent : valuesOf "full" authorZz.target.query = ["false"] := rfl
  have hform : ObjectId.isWellFormed "zz" = false := by decide
  have hcases := single_record_selected emptyServer [] rfl hpath hslash
  rw [hextent, htext] at hcases
  rcases hcases with ⟨-, -, hrefused⟩ | ⟨text, condition, expansion, pipeline, hsent⟩
  · rcases hrefused with hempty | hnone | hextent
    · exact absurd hempty (by decide)
    · cases hnone
    · exact absurd .summary (hextent .summary)
  · obtain ⟨-, hread, -, -, hselects, htells, hcalls, rfl, -, -, hnobody⟩ := hsent
    obtain rfl := Option.some.inj hread
    have hsummary : expansion = .summary := by
      generalize hvalues : ["false"] = values at htells
      cases htells with
      | silent => cases hvalues
      | full => exact absurd hvalues (by decide)
      | summary => rfl
    subst hsummary
    cases hselects with
    | slug hauthor => exact absurd rfl hauthor
    | id hdenotes =>
      have hgood := ObjectId.isWellFormed_iff.2 ⟨_, hdenotes⟩
      rw [hform] at hgood
      cases hgood
    | nothing => exact ⟨hcalls, hnobody rfl hform⟩

end Server

end NewsService.Http
