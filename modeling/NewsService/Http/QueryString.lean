import NewsService.Text.Integer
import NewsService.Text.Urlencoded

/-!
# Query strings

An endpoint knows some parameters by name. The pairs of a query string are taken up from the left:
pairs of other names are passed over, a parameter that was given before is refused before its value
is looked at, and the first pair that is refused is the error.
-/

namespace NewsService.Http

/-- Why the value of a parameter is refused. -/
inductive ValueError where
  /-- It is no truth value. -/
  | notBool
  /-- It is no integer. -/
  | notInteger (cause : IntegerError)
  deriving DecidableEq, Repr

/-- The wording of a value error. -/
def ValueError.message : ValueError → String
  | .notBool => "provided string was not `true` or `false`"
  | .notInteger cause => cause.message

/-- Why a query string is refused. -/
inductive QueryStringError where
  /-- A parameter is given twice. -/
  | duplicate (name : String)
  /-- The value of a parameter is refused. -/
  | invalid (name : String) (cause : ValueError)
  deriving DecidableEq, Repr

/-- The wording of a query string error. -/
def QueryStringError.message : QueryStringError → String
  | .duplicate name => "duplicate field `" ++ name ++ "`"
  | .invalid name cause => name ++ ": " ++ cause.message

/-- Reads a value that is any text. -/
def readText (value : String) : Except ValueError String :=
  .ok value

/-- Reads a truth value. -/
def readBool (value : String) : Except ValueError Bool :=
  if value = "true" then .ok true
  else if value = "false" then .ok false
  else .error .notBool

/-- Reads an integer of 64 bits. -/
def readInt64 (value : String) : Except ValueError Int64 :=
  match IntegerType.i64.read value with
  | .ok n => .ok (Int64.ofInt n)
  | .error cause => .error (.notInteger cause)

/-- A parameter of an endpoint whose parameters are held in the type `P`. -/
structure Parameter (P : Type) where
  /-- Its name. -/
  name : String
  /-- Whether it was given. -/
  isGiven : P → Bool
  /-- Takes up its value. -/
  take : P → String → Except ValueError P

/-- A parameter that is held as an optional value. -/
def Parameter.optional {P α : Type} (name : String) (get : P → Option α) (set : P → α → P)
    (read : String → Except ValueError α) : Parameter P where
  name := name
  isGiven p := (get p).isSome
  take p value := (read value).map (set p)

/-- Takes up a pair. -/
def takePair {P : Type} (known : List (Parameter P)) (p : P) (pair : String × String) :
    Except QueryStringError P :=
  match known.find? fun parameter => parameter.name == pair.1 with
  | none => .ok p
  | some parameter =>
    if parameter.isGiven p then .error (.duplicate parameter.name)
    else (parameter.take p pair.2).mapError (.invalid parameter.name)

/-- Takes up all pairs of a query string. -/
def takeQueryString {P : Type} (known : List (Parameter P)) (p : P) (query : String) :
    Except QueryStringError P :=
  (Urlencoded.pairs query).foldlM (takePair known) p

end NewsService.Http
