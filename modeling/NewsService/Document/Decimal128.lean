import NewsService.Text.Integer

/-!
# Decimal numbers of 128 bits

Such a number is infinite, no number at all, or a coefficient of at most thirty-four digits with an
exponent from -6176 to 6111. It is read off its word or from text. Text is cut down to what a number
can hold only where nothing is lost: digits beyond the last place, and digits below the least
exponent, have to be zeros, and an exponent above the greatest one is made up for by zeros that are
added to the coefficient.
-/

namespace NewsService

/-- A bound on coefficients: ten to the power of the greatest number of digits. -/
abbrev Decimal128.coefficientBound : Nat :=
  10000000000000000000000000000000000

/-- The size of a decimal number. -/
inductive Decimal128.Magnitude where
  /-- A number: its coefficient and its exponent, which is counted from -6176. -/
  | finite (coefficient : Fin Decimal128.coefficientBound) (exponent : Fin 12288)
  | infinity
  /-- No number, of the kind that is passed on or of the kind that signals. -/
  | nan (signalling : Bool)
  deriving DecidableEq, Repr

/-- A decimal number of 128 bits. -/
structure Decimal128 where
  /-- Whether it has a minus sign. -/
  negative : Bool
  /-- Its size. -/
  magnitude : Decimal128.Magnitude
  deriving DecidableEq, Repr

namespace Decimal128

/-! ## Words -/

/-- The number with a word of 128 bits. A word whose coefficient is too large is a zero. -/
def ofWord (word : Nat) : Decimal128 :=
  let negative := (word >>> 127) % 2 == 1
  let lead := (word >>> 122) % 32
  if lead = 31 then ⟨negative, .nan ((word >>> 121) % 2 == 1)⟩
  else if lead = 30 then ⟨negative, .infinity⟩
  else if 24 ≤ lead then ⟨negative, .finite 0 (Fin.ofNat _ ((word >>> 111) % 16384))⟩
  else
    let coefficient := word % (1 <<< 113)
    ⟨negative, .finite (if h : coefficient < coefficientBound then ⟨coefficient, h⟩ else 0)
      (Fin.ofNat _ ((word >>> 113) % 16384))⟩

/-- The number with sixteen octets, the least significant one first. -/
def ofOctets? (octets : List UInt8) : Option Decimal128 :=
  if octets.length = 16 then some (ofWord (octets.foldr (fun b n => b.toNat + 256 * n) 0))
  else none

/-! ## Text -/

/-- The greatest number of digits. -/
def maxDigits : Nat := 34
/-- The least exponent. -/
def leastExponent : Int := -6176
/-- The greatest exponent. -/
def greatestExponent : Int := 6111

/-- Cuts a text at the first mark. -/
def cut (mark : Char) (cs : List Char) : List Char × Option (List Char) :=
  match cs.dropWhile (· != mark) with
  | [] => (cs, none)
  | _ :: rest => (cs.takeWhile (· != mark), some rest)

/-- An exponent, if it has no more than sixteen bits. -/
def checkExponent? (exponent : Int) : Option Int :=
  if IntegerType.i16.least ≤ exponent ∧ exponent ≤ IntegerType.i16.greatest then some exponent
  else none

/-- The exponent behind its mark; without a mark it is zero. -/
def exponent? : Option (List Char) → Option Int
  | none => some 0
  | some cs => (IntegerType.i16.read (String.ofList cs)).toOption

/-- Drops `count` places at the end of a coefficient, if they are there and hold nothing but
zeros. -/
def dropZeros? (count : Nat) (digits : List Char) : Option (List Char) :=
  if count ≤ digits.length ∧ (digits.drop (digits.length - count)).all (· == '0') then
    some (digits.take (digits.length - count))
  else none

/-- Cuts a coefficient down to the greatest number of digits. -/
def fitDigits? (digits : List Char) (exponent : Int) : Option (List Char × Int) := do
  let surplus := digits.length - maxDigits
  let kept ← dropZeros? surplus digits
  return (kept, ← checkExponent? (exponent + (← checkExponent? surplus)))

/-- Brings an exponent into its range. The exponent of a zero is moved as it is. -/
def fitExponent? (digits : List Char) (exponent : Int) : Option (List Char × Int) :=
  if exponent < leastExponent then
    if digits = ['0'] then some (digits, leastExponent)
    else (dropZeros? (leastExponent - exponent).toNat digits).map (·, leastExponent)
  else if greatestExponent < exponent then
    let missing := (exponent - greatestExponent).toNat
    if digits = ['0'] then some (digits, greatestExponent)
    else if digits.length + missing ≤ maxDigits then
      some (digits ++ List.replicate missing '0', greatestExponent)
    else none
  else some (digits, exponent)

/-- The number with a coefficient and an exponent, if both are in range. -/
def ofParts? (coefficient : Nat) (exponent : Int) : Option Magnitude :=
  if h : coefficient < coefficientBound ∧ (exponent - leastExponent).toNat < 12288 then
    some (.finite ⟨coefficient, h.1⟩ ⟨(exponent - leastExponent).toNat, h.2⟩)
  else none

/-- Reads digits with an optional point and an optional exponent, in small letters. No digits at all
are a zero, and behind leading zeros there may be a plus sign. -/
def finiteOfText? (cs : List Char) : Option Magnitude := do
  let (mantissa, mark) := cut 'e' cs
  let (whole, fraction) := cut '.' mantissa
  let fraction := fraction.getD []
  let exponent ← checkExponent? ((← exponent? mark) - (← checkExponent? fraction.length))
  let significant := (whole ++ fraction).dropWhile (· == '0')
  let digits := if significant.isEmpty then ['0'] else significant
  let (digits, exponent) ← fitDigits? digits exponent
  let (digits, exponent) ← fitExponent? digits exponent
  let coefficient ← (IntegerType.u128.read (String.ofList digits)).toOption
  ofParts? coefficient.toNat exponent

/-- Reads a number: an optional sign, then a word for infinity or for no number, or digits. Letters
may be of either case. -/
def ofText? (text : String) : Option Decimal128 := do
  let (negative, unsigned) :=
    match text.toList with
    | '-' :: rest => (true, rest)
    | '+' :: rest => (false, rest)
    | rest => (false, rest)
  let lower := unsigned.map Char.toLower
  match String.ofList lower with
  | "nan" => return ⟨negative, .nan false⟩
  | "snan" => return ⟨negative, .nan true⟩
  | "inf" | "infinity" => return ⟨negative, .infinity⟩
  | _ => return ⟨negative, ← finiteOfText? lower⟩

end Decimal128

end NewsService
