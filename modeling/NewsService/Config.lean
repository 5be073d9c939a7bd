import NewsService.Limits
import NewsService.Pipeline.Join
import NewsService.Text.Blank
import NewsService.Text.Integer

/-!
# Configuration

The service is configured by environment variables. All but the address of the document store have a
default text, which is read as if it had been set. Settings are read in a fixed order, and the first
one that is not valid is the error.
-/

namespace NewsService

/-- A configuration. -/
structure Config where
  /-- The port to listen on. -/
  port : UInt16
  /-- The address of the document store. -/
  storeUrl : String
  /-- The database with the collections. -/
  database : String
  /-- Bounds on requests. -/
  limits : Limits
  /-- The depth of nested joins. -/
  relatedDepth : Nat
  /-- The origins from which browsers may ask. -/
  origins : List String
  deriving DecidableEq, Repr

/-- An environment: the texts of the variables that are set. -/
abbrev Environment := String → Option String

/-- Why an environment is no configuration. -/
inductive ConfigError where
  /-- A setting is no integer of its type. -/
  | notInteger (setting : String) (type : IntegerType) (cause : IntegerError)
  /-- A setting without default is missing. -/
  | missing (setting : String)
  /-- The sizes of pages are not positive or not in order. -/
  | limits (default greatest : Int)
  /-- The depth of nested joins is too great. -/
  | depth (depth : Int)
  deriving DecidableEq, Repr

namespace ConfigError

/-- The wording of an error. -/
def message : ConfigError → String
  | .notInteger setting type _ => setting ++ " must be a valid " ++ type.name
  | .missing setting => setting ++ " environment variable is required"
  | .limits default greatest =>
    "NEWS_DEFAULT_LIMIT (" ++ toString default ++
      ") must be positive and not exceed NEWS_MAX_LIMIT (" ++ toString greatest ++ ")"
  | .depth n =>
    "NEWS_RELATED_DEPTH (" ++ toString n ++ ") must not exceed " ++ toString maxRelatedDepth

/-- The wording of what lies behind an error. -/
def causes : ConfigError → List String
  | .notInteger _ _ cause => [cause.message]
  | .missing _ => ["environment variable not found"]
  | .limits _ _ => []
  | .depth _ => []

end ConfigError

namespace Config

/-- Reads an integer setting. -/
def integer (env : Environment) (type : IntegerType) (setting default : String) :
    Except ConfigError Int :=
  match type.read ((env setting).getD default) with
  | .ok n => .ok n
  | .error cause => .error (.notInteger setting type cause)

/-- Reads a configuration. -/
def ofEnvironment (env : Environment) : Except ConfigError Config := do
  let port ← integer env .u16 "PORT" "3000"
  let some storeUrl := env "MONGODB_URL" | .error (.missing "MONGODB_URL")
  let database := (env "MONGODB_DATABASE").getD "plate"
  let queryTimeout ← integer env .u64 "NEWS_QUERY_TIMEOUT_MS" "5000"
  let indexTimeout ← integer env .u64 "NEWS_INDEX_TIMEOUT_MS" "3000"
  let defaultLimit ← integer env .i64 "NEWS_DEFAULT_LIMIT" "10"
  let maxLimit ← integer env .i64 "NEWS_MAX_LIMIT" "50"
  if defaultLimit ≤ 0 ∨ maxLimit < defaultLimit then .error (.limits defaultLimit maxLimit)
  let relatedDepth ← integer env .u8 "NEWS_RELATED_DEPTH" "1"
  if maxRelatedDepth < relatedDepth then .error (.depth relatedDepth)
  let limits : Limits :=
    { queryTimeout := ⟨queryTimeout.toNat⟩
      indexTimeout := ⟨indexTimeout.toNat⟩
      defaultLimit := Int64.ofInt defaultLimit
      maxLimit := Int64.ofInt maxLimit }
  return {
    port := UInt16.ofNat port.toNat
    storeUrl
    database
    limits
    relatedDepth := relatedDepth.toNat
    origins := Text.commaPieces ((env "CORS_ALLOWED_ORIGINS").getD "*") }

end Config

end NewsService
