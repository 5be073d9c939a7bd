import NewsService.Number.Binary64

/-!
# JSON values

Numbers are either integers, written without fraction and exponent, or doubles. Objects keep their
members in order. A record type can be read from an object or, by position, from an array of its
leading members; an array may be shorter than the record type if its members have defaults.
-/

namespace NewsService

/-- A JSON value. -/
inductive Json where
  | null
  | bool (b : Bool)
  /-- A number written without fraction and exponent. -/
  | integer (n : Int)
  /-- Any other number. -/
  | double (x : Binary64)
  | string (s : String)
  | array (items : List Json)
  | object (members : List (String × Json))
  deriving Inhabited

namespace Json

/-- The members of an object, or those that an array gives to a record with these names: one for
each position, in order, at least as many as are required and no more than there are names. -/
def members? (names : List String) (required : Nat) : Json → Option (List (String × Json))
  | .object members => some members
  | .array items =>
    if required ≤ items.length ∧ items.length ≤ names.length then some (names.zip items) else none
  | _ => none

/-- A member that may be missing: its reading, or the default. -/
def member? {α : Type} (members : List (String × Json)) (name : String) (default : α)
    (read : Json → Option α) : Option α :=
  match members.lookup name with
  | some value => read value
  | none => some default

/-- A string. -/
def asString? : Json → Option String
  | .string s => some s
  | _ => none

/-- A word of an enumeration: a string, or an object with the word as its only name and null under
it. -/
def asWord? : Json → Option String
  | .string s => some s
  | .object [(name, .null)] => some name
  | _ => none

/-- A truth value. -/
def asBool? : Json → Option Bool
  | .bool b => some b
  | _ => none

/-- An integer of 64 bits, written as one. -/
def asInt64? : Json → Option Int64
  | .integer n =>
    if Int64.minValue.toInt ≤ n ∧ n ≤ Int64.maxValue.toInt then some (Int64.ofInt n) else none
  | _ => none

/-- A list of strings. -/
def asStrings? : Json → Option (List String)
  | .array items => items.mapM asString?
  | _ => none

/-- A value that may be null. -/
def nullable? {α : Type} (read : Json → Option α) : Json → Option (Option α)
  | .null => some none
  | value => (read value).map some

/-- Null for nothing. -/
def ofOption {α : Type} (write : α → Json) : Option α → Json
  | none => .null
  | some a => write a

end Json

end NewsService
