import NewsService.Proofs.Text.CommaList
import NewsService.Proofs.Text.Integer

/-!
# Environments and configurations

The settings are checked in a fixed order: that a variable is set, that the text of a variable or
its default spells an integer of a type, and that integers stand in a relation. Main statement: an
environment is a configuration exactly if all checks are met, the configuration then has what the
environment says, and otherwise the message is about the first check that is not met.
-/

namespace NewsService

/-- Whether a variable gives an integer of a type; a variable that is not set has a default text. -/
def Environment.Gives (env : Environment) (type : IntegerType) (setting default : String)
    (n : Int) : Prop :=
  type.Spells ((env setting).getD default).toList n ∧ type.Contains n

namespace Config

/-! ## Checks -/

/-- What is checked of an environment. -/
inductive Check where
  /-- A variable gives an integer of a type. -/
  | integer (type : IntegerType) (setting default : String)
  /-- A variable is set. -/
  | present (setting : String)
  /-- The sizes of pages are positive and in order. -/
  | sizes
  /-- The depth of nested joins is within its bound. -/
  | depth

/-- The checks, in order. -/
def checks : List Check :=
  [.integer .u16 "PORT" "3000",
    .present "MONGODB_URL",
    .integer .u64 "NEWS_QUERY_TIMEOUT_MS" "5000",
    .integer .u64 "NEWS_INDEX_TIMEOUT_MS" "3000",
    .integer .i64 "NEWS_DEFAULT_LIMIT" "10",
    .integer .i64 "NEWS_MAX_LIMIT" "50",
    .sizes,
    .integer .u8 "NEWS_RELATED_DEPTH" "1",
    .depth]

/-- The variables that are looked at. -/
def variableNames : List String :=
  ["PORT", "MONGODB_URL", "MONGODB_DATABASE", "NEWS_QUERY_TIMEOUT_MS", "NEWS_INDEX_TIMEOUT_MS",
    "NEWS_DEFAULT_LIMIT", "NEWS_MAX_LIMIT", "NEWS_RELATED_DEPTH", "CORS_ALLOWED_ORIGINS"]

/-- Whether an environment meets a check. -/
def Check.IsMet (env : Environment) : Check → Prop
  | .integer type setting default => ∃ n, env.Gives type setting default n
  | .present setting => ∃ text, env setting = some text
  | .sizes => ∃ least greatest, env.Gives .i64 "NEWS_DEFAULT_LIMIT" "10" least ∧
      env.Gives .i64 "NEWS_MAX_LIMIT" "50" greatest ∧ 0 < least ∧ least ≤ greatest
  | .depth => ∃ n, env.Gives .u8 "NEWS_RELATED_DEPTH" "1" n ∧ n ≤ 3

/-- Whether a message is the one for an environment that does not meet a check. -/
def Check.IsMessage (env : Environment) : Check → String → Prop
  | .integer type setting _, message => message = setting ++ " must be a valid " ++ type.name
  | .present setting, message => message = setting ++ " environment variable is required"
  | .sizes, message => ∃ least greatest, env.Gives .i64 "NEWS_DEFAULT_LIMIT" "10" least ∧
      env.Gives .i64 "NEWS_MAX_LIMIT" "50" greatest ∧
      message = "NEWS_DEFAULT_LIMIT (" ++ toString least ++
        ") must be positive and not exceed NEWS_MAX_LIMIT (" ++ toString greatest ++ ")"
  | .depth, message => ∃ n, env.Gives .u8 "NEWS_RELATED_DEPTH" "1" n ∧
      message = "NEWS_RELATED_DEPTH (" ++ toString n ++ ") must not exceed 3"

/-- Whether a message is the one for the first of some checks that is not met. -/
inductive Blames (env : Environment) (message : String) : List Check → Prop
  | here {check : Check} {rest : List Check} (hunmet : ¬ check.IsMet env)
      (hmessage : check.IsMessage env message) : Blames env message (check :: rest)
  | later {check : Check} {rest : List Check} (hmet : check.IsMet env)
      (hrest : Blames env message rest) : Blames env message (check :: rest)

/-- Whether a configuration has what an environment says. -/
structure Describes (env : Environment) (config : Config) : Prop where
  port : env.Gives .u16 "PORT" "3000" config.port.toNat
  storeUrl : env "MONGODB_URL" = some config.storeUrl
  database : (env "MONGODB_DATABASE").getD "plate" = config.database
  queryTimeout : env.Gives .u64 "NEWS_QUERY_TIMEOUT_MS" "5000" config.limits.queryTimeout.millis
  indexTimeout : env.Gives .u64 "NEWS_INDEX_TIMEOUT_MS" "3000" config.limits.indexTimeout.millis
  defaultLimit : env.Gives .i64 "NEWS_DEFAULT_LIMIT" "10" config.limits.defaultLimit.toInt
  maxLimit : env.Gives .i64 "NEWS_MAX_LIMIT" "50" config.limits.maxLimit.toInt
  relatedDepth : env.Gives .u8 "NEWS_RELATED_DEPTH" "1" config.relatedDepth
  origins : Text.ListsPieces ((env "CORS_ALLOWED_ORIGINS").getD "*") config.origins

theorem Blames.not_met {env : Environment} {message : String} {checks : List Check}
    (h : Blames env message checks) : ¬ ∀ check ∈ checks, check.IsMet env := by
  induction h with
  | here hunmet _ =>
    intro hall
    exact hunmet (hall _ List.mem_cons_self)
  | later _ _ ih =>
    intro hall
    exact ih fun check hcheck => hall check (List.mem_cons_of_mem _ hcheck)

/-! ## Integers -/

variable {env : Environment} {type : IntegerType} {setting default : String} {m n : Int}

theorem integer_eq_ok (hzero : type.Contains 0) :
    integer env type setting default = .ok n ↔ env.Gives type setting default n := by
  rw [Environment.Gives, ← IntegerType.read_eq_ok hzero, integer]
  cases type.read ((env setting).getD default) with
  | ok found => simp
  | error cause => simp

theorem exists_of_integer_eq_error {e : ConfigError}
    (h : integer env type setting default = .error e) :
    ∃ cause, e = .notInteger setting type cause := by
  rw [integer] at h
  split at h
  · cases h
  · next cause _ =>
    obtain rfl := Except.error.inj h
    exact ⟨cause, rfl⟩

theorem gives_inj (hzero : type.Contains 0) (hm : env.Gives type setting default m)
    (hn : env.Gives type setting default n) : m = n := by
  rw [← integer_eq_ok hzero] at hm hn
  exact Except.ok.inj (hm.symm.trans hn)

theorem toNat_ofNat_of_contains (h : IntegerType.u16.Contains n) :
    ((UInt16.ofNat n.toNat).toNat : Int) = n := by
  obtain ⟨hleast, hgreatest⟩ := h
  have hlt : n.toNat < 2 ^ 16 := by
    have hbound : IntegerType.u16.greatest = 65535 := rfl
    omega
  rw [UInt16.toNat_ofNat_of_lt' hlt]
  exact Int.toNat_of_nonneg hleast

/-! ## Checks one after the other -/

/-- What the checks say about the result of reading an environment. -/
def Outcome (env : Environment) (checks : List Check) : Except ConfigError Config → Prop
  | .ok config => (∀ check ∈ checks, check.IsMet env) ∧ config.Describes env
  | .error e => Blames env e.message checks

namespace Outcome

variable {check : Check} {rest : List Check} {result : Except ConfigError Config}

theorem met (hmet : check.IsMet env) (h : Outcome env rest result) :
    Outcome env (check :: rest) result := by
  cases result with
  | ok config => exact ⟨List.forall_mem_cons.2 ⟨hmet, h.1⟩, h.2⟩
  | error e => exact .later hmet h

theorem unmet {e : ConfigError} (hunmet : ¬ check.IsMet env)
    (hmessage : check.IsMessage env e.message) : Outcome env (check :: rest) (.error e) :=
  .here hunmet hmessage

/-- An integer is read, or the message is about its variable. -/
theorem integer_bind (hzero : type.Contains 0) {next : Int → Except ConfigError Config}
    (h : ∀ n, env.Gives type setting default n → Outcome env rest (next n)) :
    Outcome env (.integer type setting default :: rest)
      (integer env type setting default >>= next) := by
  cases hread : integer env type setting default with
  | ok n =>
    have hgives := (integer_eq_ok hzero).1 hread
    exact met ⟨n, hgives⟩ (h n hgives)
  | error e =>
    obtain ⟨cause, rfl⟩ := exists_of_integer_eq_error hread
    refine unmet ?_ rfl
    rintro ⟨n, hgives⟩
    rw [(integer_eq_ok hzero).2 hgives] at hread
    cases hread

end Outcome

theorem message_depth (n : Int) :
    (ConfigError.depth n).message =
      "NEWS_RELATED_DEPTH (" ++ toString n ++ ") must not exceed 3" := by
  have hend : ") must not exceed " ++ toString maxRelatedDepth = ") must not exceed 3" := by decide
  show "NEWS_RELATED_DEPTH (" ++ toString n ++ ") must not exceed " ++ toString maxRelatedDepth = _
  rw [String.append_assoc, hend]

theorem outcome_ofEnvironment (env : Environment) : Outcome env checks (ofEnvironment env) := by
  have hu8 : IntegerType.u8.Contains 0 := ⟨by decide, by decide⟩
  have hu16 : IntegerType.u16.Contains 0 := ⟨by decide, by decide⟩
  have hu64 : IntegerType.u64.Contains 0 := ⟨by decide, by decide⟩
  have hi64 : IntegerType.i64.Contains 0 := ⟨by decide, by decide⟩
  unfold ofEnvironment
  -- one step for each check, in the order in which the settings are read
  refine .integer_bind hu16 fun port hport => ?_
  cases hurl : env "MONGODB_URL" with
  | none =>
    refine .unmet ?_ rfl
    rintro ⟨url, hset⟩
    rw [hurl] at hset
    cases hset
  | some url =>
    refine .met ⟨url, hurl⟩ ?_
    refine .integer_bind hu64 fun queryTimeout hquery => ?_
    refine .integer_bind hu64 fun indexTimeout hindex => ?_
    refine .integer_bind hi64 fun defaultLimit hdefault => ?_
    refine .integer_bind hi64 fun maxLimit hmax => ?_
    dsimp only
    by_cases hsizes : defaultLimit ≤ 0 ∨ maxLimit < defaultLimit
    · rw [if_pos hsizes]
      refine .unmet ?_ ⟨defaultLimit, maxLimit, hdefault, hmax, rfl⟩
      rintro ⟨m, n, hm, hn, hpos, hle⟩
      rw [gives_inj hi64 hm hdefault] at hpos hle
      rw [gives_inj hi64 hn hmax] at hle
      omega
    · rw [if_neg hsizes]
      refine .met ⟨defaultLimit, maxLimit, hdefault, hmax, by omega, by omega⟩ ?_
      refine .integer_bind hu8 fun depth hdepth => ?_
      by_cases hdeep : (maxRelatedDepth : Int) < depth
      · rw [if_pos hdeep]
        refine .unmet ?_ ⟨depth, hdepth, message_depth depth⟩
        rintro ⟨n, hn, hle⟩
        rw [gives_inj hu8 hn hdepth] at hle
        unfold maxRelatedDepth at hdeep
        omega
      · rw [if_neg hdeep]
        refine .met ⟨depth, hdepth, Int.not_lt.1 hdeep⟩ ⟨List.forall_mem_nil _, ?_⟩
        exact {
          port := by rwa [toNat_ofNat_of_contains hport.2]
          storeUrl := hurl
          database := rfl
          queryTimeout := by rwa [Int.toNat_of_nonneg hquery.2.1]
          indexTimeout := by rwa [Int.toNat_of_nonneg hindex.2.1]
          defaultLimit := by rwa [toInt_ofInt_of_contains hdefault.2]
          maxLimit := by rwa [toInt_ofInt_of_contains hmax.2]
          relatedDepth := by rwa [Int.toNat_of_nonneg hdepth.2.1]
          origins := Text.listsPieces_commaPieces _ }

/-- Variables of other names do not matter. -/
theorem ofEnvironment_congr {env' : Environment}
    (h : ∀ name ∈ variableNames, env' name = env name) :
    ofEnvironment env' = ofEnvironment env := by
  simp only [variableNames, List.forall_mem_cons] at h
  obtain ⟨hport, hurl, hdatabase, hquery, hindex, hdefault, hmax, hdepth, horigins, -⟩ := h
  unfold ofEnvironment integer
  rw [hport, hurl, hdatabase, hquery, hindex, hdefault, hmax, hdepth, horigins]

/-- The origins of a configuration are what stands between the commas of their variable. -/
theorem origins_eq {config : Config} {pieces : List String}
    (hconfig : ofEnvironment env = .ok config)
    (hpieces : Text.ListsPieces ((env "CORS_ALLOWED_ORIGINS").getD "*") pieces) :
    config.origins = pieces := by
  have houtcome := outcome_ofEnvironment env
  rw [hconfig] at houtcome
  obtain ⟨-, hdescribes⟩ := houtcome
  rw [← Text.commaPieces_eq_iff.2 hdescribes.origins, Text.commaPieces_eq_iff.2 hpieces]

/-- An environment is a configuration exactly if all checks are met. -/
theorem exists_ofEnvironment_iff :
    (∃ config, ofEnvironment env = .ok config) ↔ ∀ check ∈ checks, check.IsMet env := by
  have houtcome := outcome_ofEnvironment env
  cases hresult : ofEnvironment env with
  | ok config =>
    rw [hresult] at houtcome
    exact ⟨fun _ => houtcome.1, fun _ => ⟨config, rfl⟩⟩
  | error e =>
    rw [hresult] at houtcome
    constructor
    · rintro ⟨config, hconfig⟩
      cases hconfig
    · intro hall
      exact absurd hall houtcome.not_met

/-- An environment is a configuration exactly if all checks are met; the configuration has what the
environment says, the message is about the first check that is not met, and no other variables
matter. -/
theorem environments_read_exactly (env : Environment) :
    ((∃ config, ofEnvironment env = .ok config) ↔ ∀ check ∈ checks, check.IsMet env) ∧
    (∀ config, ofEnvironment env = .ok config → config.Describes env) ∧
    (∀ e, ofEnvironment env = .error e → Blames env e.message checks) ∧
    ∀ env' : Environment, (∀ name ∈ variableNames, env' name = env name) →
      ofEnvironment env' = ofEnvironment env := by
  have houtcome := outcome_ofEnvironment env
  refine ⟨exists_ofEnvironment_iff, fun config hconfig => ?_, fun e he => ?_,
    fun env' => ofEnvironment_congr⟩
  · rw [hconfig] at houtcome
    exact houtcome.2
  · rw [he] at houtcome
    exact houtcome

/-- An environment with a port in an unusual spelling, a page size and a depth. -/
def deployed (limit depth : String) : Environment := fun name =>
  [("PORT", "+0008080"), ("MONGODB_URL", "mongodb://store:27017"), ("NEWS_DEFAULT_LIMIT", limit),
    ("NEWS_RELATED_DEPTH", depth), ("CORS_ALLOWED_ORIGINS", "https://a.example, ,b")].lookup name

theorem environments_read_exactly_deployed :
    (∃ config, ofEnvironment (deployed "020" "3") = .ok config ∧
      config.Describes (deployed "020" "3") ∧ config.port = 8080) ∧
    ∃ e, ofEnvironment (deployed "60" "-1") = .error e ∧
      Blames (deployed "60" "-1") e.message checks ∧ e = .limits 60 50 := by
  obtain ⟨-, hdescribes, -, -⟩ := environments_read_exactly (deployed "020" "3")
  obtain ⟨-, -, hblames, -⟩ := environments_read_exactly (deployed "60" "-1")
  have haccepted : ofEnvironment (deployed "020" "3") = .ok
      { port := 8080
        storeUrl := "mongodb://store:27017"
        database := "plate"
        limits := { defaultLimit := 20 }
        relatedDepth := 3
        origins := ["https://a.example", "", "b"] } := rfl
  have hrefused : ofEnvironment (deployed "60" "-1") = .error (.limits 60 50) := rfl
  exact ⟨⟨_, haccepted, hdescribes _ haccepted, rfl⟩, _, hrefused, hblames _ hrefused, rfl⟩

end Config

end NewsService
