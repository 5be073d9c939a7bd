/-!
# Integers in text

A setting or parameter of an integer type is an optional `+` (or `-`, for a signed type) followed by
one or more ASCII digits. The digits are read from the left, and the first thing that goes wrong is
reported: a character that is no digit, or a value that leaves the range of the type.
-/

namespace NewsService

/-- An integer type: its name and the range of its values. -/
structure IntegerType where
  /-- The name by which messages call it. -/
  name : String
  /-- Whether a leading minus sign is read. -/
  signed : Bool
  /-- The least value. -/
  least : Int
  /-- The greatest value. -/
  greatest : Int
  deriving DecidableEq, Repr

/-- Why a text is no integer of a type. -/
inductive IntegerError where
  /-- The text is empty. -/
  | empty
  /-- There is a character that is no digit, or no digit at all after a sign. -/
  | invalidDigit
  /-- The value is beyond the greatest one. -/
  | tooLarge
  /-- The value is below the least one. -/
  | tooSmall
  deriving DecidableEq, Repr

/-- The wording of an integer error. -/
def IntegerError.message : IntegerError → String
  | .empty => "cannot parse integer from empty string"
  | .invalidDigit => "invalid digit found in string"
  | .tooLarge => "number too large to fit in target type"
  | .tooSmall => "number too small to fit in target type"

namespace IntegerType

/-- Unsigned, 8 bits. -/
def u8 : IntegerType := ⟨"u8", false, 0, 255⟩
/-- Unsigned, 16 bits. -/
def u16 : IntegerType := ⟨"u16", false, 0, 65535⟩
/-- Unsigned, 64 bits. -/
def u64 : IntegerType := ⟨"u64", false, 0, 18446744073709551615⟩
/-- Unsigned, 128 bits. -/
def u128 : IntegerType := ⟨"u128", false, 0, 340282366920938463463374607431768211455⟩
/-- Signed, 16 bits. -/
def i16 : IntegerType := ⟨"i16", true, -32768, 32767⟩
/-- Signed, 32 bits. -/
def i32 : IntegerType := ⟨"i32", true, -2147483648, 2147483647⟩
/-- Signed, 64 bits. -/
def i64 : IntegerType := ⟨"i64", true, -9223372036854775808, 9223372036854775807⟩

/-- Reads digits after a value that has been read so far, going down when `negative`. -/
def readDigits (t : IntegerType) (negative : Bool) : Int → List Char → Except IntegerError Int
  | value, [] => .ok value
  | value, c :: rest =>
    if c.isDigit then
      let digit : Int := c.toNat - 48
      let next := if negative then value * 10 - digit else value * 10 + digit
      if next > t.greatest then .error .tooLarge
      else if next < t.least then .error .tooSmall
      else readDigits t negative next rest
    else .error .invalidDigit

/-- Reads one or more digits. -/
def readMagnitude (t : IntegerType) (negative : Bool) : List Char → Except IntegerError Int
  | [] => .error .invalidDigit
  | digits => t.readDigits negative 0 digits

/-- Reads a text as an integer of the type. -/
def read (t : IntegerType) (text : String) : Except IntegerError Int :=
  match text.toList with
  | [] => .error .empty
  | '+' :: digits => t.readMagnitude false digits
  | '-' :: digits => if t.signed then t.readMagnitude true digits else .error .invalidDigit
  | digits => t.readMagnitude false digits

end IntegerType

end NewsService
