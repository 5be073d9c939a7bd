import NewsService.Json
import NewsService.Number.Binary64.Decimal
import NewsService.Text.Hex

/-!
# JSON text

Values are written without spaces. Strings escape quotes, backslashes and control characters.
Doubles are written with the fewest digits that read back, always with a point or an exponent, so
that they are told from integers: positional when the point falls within the first sixteen places or
at most four zeros precede the digits, with an exponent otherwise.
-/

namespace NewsService.Json

/-- A character inside a quoted string. -/
def escapeChar (c : Char) : List Char :=
  let n := c.toNat
  if n = 0x22 ∨ n = 0x5c then ['\\', c]
  else if n = 0x8 then ['\\', 'b']
  else if n = 0x9 then ['\\', 't']
  else if n = 0xa then ['\\', 'n']
  else if n = 0xc then ['\\', 'f']
  else if n = 0xd then ['\\', 'r']
  else if n < 0x20 then ['\\', 'u', '0', '0', Hex.digit (n / 16), Hex.digit (n % 16)]
  else [c]

/-- A quoted string. -/
def quote (s : String) : String :=
  "\"" ++ String.ofList (s.toList.flatMap escapeChar) ++ "\""

/-- Digits with a point before the last `places` of them. -/
def withPoint (digits : List Char) (places : Nat) : List Char :=
  digits.take (digits.length - places) ++ '.' :: digits.drop (digits.length - places)

/-- The layout of a coefficient and a power of ten. -/
def decimalText (coefficient : Nat) (power : Int) : List Char :=
  let digits := Nat.toDigits 10 coefficient
  let point : Int := digits.length + power
  if 0 ≤ power ∧ point ≤ 16 then digits ++ List.replicate power.toNat '0' ++ ['.', '0']
  else if 0 < point ∧ point ≤ 16 then withPoint digits (-power).toNat
  else if -5 < point ∧ point ≤ 0 then '0' :: '.' :: List.replicate (-point).toNat '0' ++ digits
  else
    let mantissa := if digits.length ≤ 1 then digits else withPoint digits (digits.length - 1)
    mantissa ++ 'e' :: (toString (point - 1)).toList

/-- The text of a double; one that is not finite is null. -/
def doubleText (x : Binary64) : String :=
  if !x.isFinite then "null"
  else
    let magnitude := if x.mantissa = 0 then ['0', '.', '0'] else
      let (coefficient, power) := x.shortest
      decimalText coefficient power
    String.ofList (if x.negative then '-' :: magnitude else magnitude)

mutual

/-- The text of a value. -/
def text : Json → String
  | .null => "null"
  | .bool b => if b then "true" else "false"
  | .integer n => toString n
  | .double x => doubleText x
  | .string s => quote s
  | .array items => "[" ++ ",".intercalate (itemTexts items) ++ "]"
  | .object members => "\x7b" ++ ",".intercalate (memberTexts members) ++ "\x7d"

/-- The texts of the items of an array. -/
def itemTexts : List Json → List String
  | [] => []
  | item :: rest => text item :: itemTexts rest

/-- The texts of the members of an object. -/
def memberTexts : List (String × Json) → List String
  | [] => []
  | (name, value) :: rest => (quote name ++ ":" ++ text value) :: memberTexts rest

end

end NewsService.Json
