import NewsService.Http.Params
import NewsService.Http.Route
import NewsService.Proofs.Text.Urlencoded

/-!
# Reading requests

Which paths lead to the records of a kind, and what the parameters of a query string come to: pairs
of names that are not known change nothing, and a pair that is refused refuses the whole.
-/

namespace NewsService.Http

/-! ## Paths -/

/-- The path of the records of a kind. -/
def recordsPath (kind : Kind) : String :=
  "/v2/" ++ pathSegment kind

/-- The path of a single record, by a segment with its escapes. -/
def recordPath (kind : Kind) (segment : String) : String :=
  recordsPath kind ++ "/" ++ segment

theorem segments_of_not_mem {segment : String} (h : '/' ∉ segment.toList) :
    segments segment = [segment] := by
  unfold segments
  rw [List.splitOn_eq_singleton h, List.map_singleton, String.ofList_toList]

theorem segments_append {segment : String} (h : '/' ∉ segment.toList) (rest : String) :
    segments (segment ++ "/" ++ rest) = segment :: segments rest := by
  have hlist : (segment ++ "/" ++ rest).toList = segment.toList ++ '/' :: rest.toList := by
    rw [String.toList_append, String.toList_append, List.append_assoc]
    rfl
  unfold segments
  rw [hlist, List.splitOn_append_cons_self_of_not_mem h, List.map_cons, String.ofList_toList]

theorem slash_not_mem_pathSegment (kind : Kind) : '/' ∉ (pathSegment kind).toList := by
  cases kind <;> decide

theorem segments_recordsPath (kind : Kind) :
    segments (recordsPath kind) = ["", "v2", pathSegment kind] := by
  have hpath : recordsPath kind = "" ++ "/" ++ ("v2" ++ "/" ++ pathSegment kind) := by
    cases kind <;> rfl
  rw [hpath, segments_append (by decide), segments_append (by decide),
    segments_of_not_mem (slash_not_mem_pathSegment kind)]

theorem segments_recordPath {segment : String} (h : '/' ∉ segment.toList) (kind : Kind) :
    segments (recordPath kind segment) = ["", "v2", pathSegment kind, segment] := by
  have hpath : recordPath kind segment =
      "" ++ "/" ++ ("v2" ++ "/" ++ (pathSegment kind ++ "/" ++ segment)) := by
    unfold recordPath recordsPath
    simp only [← String.append_assoc]
    rfl
  rw [hpath, segments_append (by decide), segments_append (by decide),
    segments_append (slash_not_mem_pathSegment kind), segments_of_not_mem h]

theorem kindOfSegment?_pathSegment (kind : Kind) :
    kindOfSegment? (pathSegment kind) = some kind := by
  cases kind <;> decide

theorem ofPath?_recordsPath (kind : Kind) :
    Endpoint.ofPath? (recordsPath kind) = some (.records kind) := by
  unfold Endpoint.ofPath?
  rw [segments_recordsPath]
  cases kind <;> rfl

theorem ofPath?_recordPath {segment : String} (h : '/' ∉ segment.toList) (kind : Kind) :
    Endpoint.ofPath? (recordPath kind segment) =
      if segment = "" then none else some (.record kind segment) := by
  have hpath : Endpoint.ofPath? (recordPath kind segment) =
      if segment.isEmpty then none
      else (kindOfSegment? (pathSegment kind)).map (.record · segment) := by
    unfold Endpoint.ofPath?
    rw [segments_recordPath h]
    cases kind <;> rfl
  rw [hpath, kindOfSegment?_pathSegment]
  simp only [String.isEmpty_iff, Option.map_some]

/-! ## Parameters -/

section Parameters

variable {P : Type} {known : List (Parameter P)} {p : P} {pair : String × String}
  {pairs : List (String × String)}

/-- Whether a name is one of a list of parameters. -/
def isKnown (known : List (Parameter P)) (name : String) : Bool :=
  known.any fun parameter => parameter.name == name

theorem takePair_of_unknown (h : isKnown known pair.1 = false) : takePair known p pair = .ok p := by
  have hnone : known.find? (fun parameter => parameter.name == pair.1) = none := by
    rw [List.find?_eq_none]
    exact List.any_eq_false.1 h
  unfold takePair
  rw [hnone]

/-- A parameter that was not given before takes up its value. -/
theorem takePair_optional {α : Type} {name text : String} {get : P → Option α} {set : P → α → P}
    {read : String → Except ValueError α} {a : α}
    (hfind : known.find? (fun parameter => parameter.name == name) =
      some (.optional name get set read))
    (hnew : get p = none) (hread : read text = .ok a) :
    takePair known p (name, text) = .ok (set p a) := by
  have hgiven : (Parameter.optional name get set read).isGiven p = false := by
    show (get p).isSome = false
    rw [hnew]
    rfl
  have htake : (Parameter.optional name get set read).take p text = .ok (set p a) := by
    show (read text).map (set p) = _
    rw [hread]
    rfl
  unfold takePair
  rw [hfind]
  dsimp only
  rw [hgiven, htake]
  rfl

/-- A value that cannot be read is refused, whatever was given before. -/
theorem takePair_refused {α : Type} {name text : String} {get : P → Option α} {set : P → α → P}
    {read : String → Except ValueError α} {cause : ValueError}
    (hfind : known.find? (fun parameter => parameter.name == name) =
      some (.optional name get set read))
    (hread : read text = .error cause) (p : P) : ∃ e, takePair known p (name, text) = .error e := by
  have htake : (Parameter.optional name get set read).take p text = .error cause := by
    show (read text).map (set p) = _
    rw [hread]
    rfl
  unfold takePair
  rw [hfind]
  dsimp only
  split
  · exact ⟨_, rfl⟩
  · rw [htake]
    exact ⟨_, rfl⟩

/-- Pairs of names that are not known change nothing. -/
theorem takePairs_filter (pairs : List (String × String)) (p : P) :
    pairs.foldlM (takePair known) p =
      (pairs.filter fun pair => isKnown known pair.1).foldlM (takePair known) p := by
  induction pairs generalizing p with
  | nil => rfl
  | cons pair rest ih =>
    by_cases hknown : isKnown known pair.1 = true
    · have hfilter : (pair :: rest).filter (fun pair => isKnown known pair.1) =
          pair :: rest.filter fun pair => isKnown known pair.1 := List.filter_cons_of_pos hknown
      rw [hfilter, List.foldlM_cons, List.foldlM_cons]
      exact congrArg _ (funext ih)
    · have hfilter : (pair :: rest).filter (fun pair => isKnown known pair.1) =
          rest.filter fun pair => isKnown known pair.1 := List.filter_cons_of_neg hknown
      rw [hfilter, List.foldlM_cons, takePair_of_unknown (Bool.eq_false_iff.2 hknown)]
      exact ih p

/-- A pair that is refused whatever came before it refuses the whole. -/
theorem takePairs_refused (hpair : pair ∈ pairs) (h : ∀ p, ∃ e, takePair known p pair = .error e)
    (p : P) : ∃ e, pairs.foldlM (takePair known) p = .error e := by
  induction pairs generalizing p with
  | nil => exact absurd hpair List.not_mem_nil
  | cons first rest ih =>
    rw [List.foldlM_cons]
    rcases List.mem_cons.1 hpair with rfl | hrest
    · obtain ⟨e, he⟩ := h p
      rw [he]
      exact ⟨e, rfl⟩
    · cases htake : takePair known p first with
      | error e => exact ⟨e, rfl⟩
      | ok p' => exact ih hrest p'

end Parameters

/-! ## Values -/

theorem readBool_eq_ok {text : String} {b : Bool} :
    readBool text = .ok b ↔ text = if b then "true" else "false" := by
  unfold readBool
  by_cases htrue : text = "true"
  · subst htrue
    cases b <;> simp
  · by_cases hfalse : text = "false"
    · subst hfalse
      cases b <;> simp
    · cases b <;> simp [htrue, hfalse]

end NewsService.Http
