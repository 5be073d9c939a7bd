import NewsService.Json
import NewsService.Number.Binary64.Decimal

/-!
# Numbers in JSON text

A number without fraction and exponent is an integer if it has 64 bits, with or without a sign. All
others, and `-0`, are doubles. A double is worked out from the leading digits that fit into 64 bits
and from one power of ten, so it may be off the nearest double by the rounding of each step. A
number beyond the greatest double is refused.
-/

namespace NewsService.Json

/-- The written parts of a number. -/
structure NumberText where
  /-- Whether it begins with a minus sign. -/
  negative : Bool
  /-- The digits before the point, at least one. -/
  whole : List Char
  /-- The digits behind the point; none without a point. -/
  fraction : List Char
  /-- The exponent. -/
  exponent : Int
  /-- Whether it has neither point nor exponent. -/
  isWhole : Bool
  deriving Repr

namespace NumberText

/-- The run of digits at the beginning and the rest, if the run is not empty. -/
def digits? (cs : List Char) : Option (List Char × List Char) :=
  let digits := cs.takeWhile Char.isDigit
  if digits.isEmpty then none else some (digits, cs.dropWhile Char.isDigit)

/-- Cuts off a fraction, if there is a point. -/
def readFraction? : List Char → Option (Option (List Char) × List Char)
  | '.' :: rest => (digits? rest).map fun (digits, rest) => (some digits, rest)
  | rest => some (none, rest)

/-- Cuts off an exponent, if there is its mark. -/
def readExponent? : List Char → Option (Option Int × List Char)
  | [] => some (none, [])
  | mark :: rest =>
    if mark = 'e' ∨ mark = 'E' then do
      let (negative, rest) :=
        match rest with
        | '-' :: more => (true, more)
        | '+' :: more => (false, more)
        | more => (false, more)
      let (digits, rest) ← digits? rest
      let n : Int := Binary64.digitsValue 0 digits
      return (some (if negative then -n else n), rest)
    else some (none, mark :: rest)

/-- Cuts off a number. Its whole part has no zero in front of other digits. -/
def read? (cs : List Char) : Option (NumberText × List Char) := do
  let (negative, rest) :=
    match cs with
    | '-' :: more => (true, more)
    | more => (false, more)
  let (whole, rest) ← digits? rest
  if whole.head? = some '0' ∧ 1 < whole.length then none
  let (fraction, rest) ← readFraction? rest
  let (exponent, rest) ← readExponent? rest
  return (⟨negative, whole, fraction.getD [], exponent.getD 0, fraction.isNone && exponent.isNone⟩,
    rest)

/-- Reads digits after a value while the value has 64 bits; the digits that are left over are
returned. -/
def significand : Nat → List Char → Nat × List Char
  | n, [] => (n, [])
  | n, c :: rest =>
    let next := 10 * n + (c.toNat - 48)
    if next < UInt64.size then significand next rest else (n, c :: rest)

/-- The greatest power of ten with a double of its own. -/
def greatestPower : Nat := 308

/-- The double nearest to a power of ten. -/
def powerOfTen (e : Nat) : Binary64 :=
  Binary64.ofRatio false (Binary64.tenTo e) 1

/-- A double below 2^64 times a power of ten. Powers far below one take two steps, and nothing is
left after two of the greatest ones. -/
def scale? (x : Binary64) (e : Int) : Option Binary64 :=
  let down := (-e).toNat
  if x.mantissa = 0 then some x
  else if (greatestPower : Int) < e then none
  else if 0 ≤ e then
    let y := x.mul (powerOfTen e.toNat)
    if y.isFinite then some y else none
  else if down ≤ greatestPower then some (x.div (powerOfTen down))
  else if down ≤ 2 * greatestPower then
    some ((x.div (powerOfTen greatestPower)).div (powerOfTen (down - greatestPower)))
  else some (Binary64.ofParts false 0)

/-- The double that a number stands for. -/
def double? (t : NumberText) : Option Binary64 := do
  let (n, uncounted) := significand 0 t.whole
  let (n, ignored) := significand n t.fraction
  let places : Int := t.fraction.length - ignored.length
  let size ← scale? (Binary64.ofRatio false n 1) (t.exponent + uncounted.length - places)
  return Binary64.ofParts t.negative size.word.toNat

/-- The value of a number. -/
def value? (t : NumberText) : Option Json :=
  let n := Binary64.digitsValue 0 t.whole
  if t.isWhole ∧ !t.negative ∧ n < UInt64.size then some (.integer n)
  else if t.isWhole ∧ t.negative ∧ 0 < n ∧ n ≤ 1 <<< 63 then some (.integer (-n))
  else t.double?.map .double

end NumberText

end NewsService.Json
