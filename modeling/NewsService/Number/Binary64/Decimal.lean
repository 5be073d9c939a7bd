import NewsService.Number.Binary64

/-!
# Doubles in decimal

Reading takes an optional sign, digits with an optional point, and an optional exponent, and gives
the nearest double. Writing gives the fewest digits that read back: for one digit, two digits and so
on, the two neighbours of the value on that decimal grid are tried, and the first grid with a
neighbour between the bounds of the rounding interval is taken, of two neighbours the nearer, and of
two as near the one with an even last digit.
-/

namespace NewsService.Binary64

/-! ## Reading -/

/-- The value of a run of decimal digits, after a value read so far. -/
def digitsValue (start : Nat) (digits : List Char) : Nat :=
  digits.foldl (fun n c => 10 * n + (c.toNat - 48)) start

/-- An exponent: an optional sign and at least one digit. -/
def readExponent? (cs : List Char) : Option Int :=
  let (negative, digits) :=
    match cs with
    | '-' :: rest => (true, rest)
    | '+' :: rest => (false, rest)
    | rest => (false, rest)
  if digits.isEmpty || !digits.all Char.isDigit then none
  else
    let n : Int := digitsValue 0 digits
    some (if negative then -n else n)

/-- Ten to a power; one for a negative power. -/
def tenTo (k : Int) : Nat :=
  Nat.pow 10 k.toNat

/-- The double nearest to a run of digits times `10 ^ e`. Numbers far outside the range of doubles
are told by the place of their first digit other than zero, before any power is formed. -/
def ofDecimal (negative : Bool) (digits : List Char) (e : Int) : Binary64 :=
  let significant := digits.dropWhile (· == '0')
  let place := significant.length + e
  if significant.isEmpty || place < -400 then ofParts negative 0
  else if 400 < place then infinity negative
  else ofRatio negative (digitsValue 0 significant * tenTo e) (tenTo (-e))

/-- Reads an unsigned number: digits with at most one point, at least one digit, and perhaps an
exponent. -/
def readUnsigned? (negative : Bool) (cs : List Char) : Option Binary64 :=
  let whole := cs.takeWhile Char.isDigit
  let rest := cs.dropWhile Char.isDigit
  let (fraction, tail) :=
    match rest with
    | '.' :: more => (more.takeWhile Char.isDigit, more.dropWhile Char.isDigit)
    | other => ([], other)
  if whole.isEmpty && fraction.isEmpty then none
  else
    let scale (e : Int) : Binary64 :=
      ofDecimal negative (whole ++ fraction) (e - fraction.length)
    match tail with
    | [] => some (scale 0)
    | mark :: exponent =>
      if mark = 'e' ∨ mark = 'E' then (readExponent? exponent).map scale else none

/-- Reads a number, or one of the words `inf`, `infinity` and `nan` in any case, after an optional
sign. -/
def ofText? (text : String) : Option Binary64 :=
  let (negative, rest) :=
    match text.toList with
    | '-' :: rest => (true, rest)
    | '+' :: rest => (false, rest)
    | rest => (false, rest)
  let word := String.ofList (rest.map Char.toLower)
  if word = "inf" || word = "infinity" then some (infinity negative)
  else if word = "nan" then some nan
  else readUnsigned? negative rest

/-! ## Writing -/

/-- A positive ratio and the ends of the interval of ratios that round to it, over one
denominator. -/
structure Interval where
  /-- The lower end. -/
  low : Nat
  /-- The value. -/
  value : Nat
  /-- The upper end. -/
  high : Nat
  /-- The denominator of all three. -/
  den : Nat
  /-- Whether the ends themselves round to the value. -/
  closed : Bool
  deriving Repr

/-- The rounding interval of a finite number other than zero. The lower gap is half as wide where
the mantissa is the least one of its power of two. -/
def interval (x : Binary64) : Interval :=
  let m := x.mantissa
  let scale := 1 <<< (x.exponent - 2).toNat
  { low := (4 * m - if x.fractionBits = 0 ∧ 1 < x.exponentBits then 1 else 2) * scale
    value := 4 * m * scale
    high := (4 * m + 2) * scale
    den := 1 <<< (2 - x.exponent).toNat
    closed := m % 2 == 0 }

/-- Whether `c * 10 ^ p` lies in the interval. -/
def Interval.contains (i : Interval) (c : Nat) (p : Int) : Bool :=
  let num := c * tenTo p * i.den
  let scale := tenTo (-p)
  if i.closed then i.low * scale ≤ num && num ≤ i.high * scale
  else i.low * scale < num && num < i.high * scale

/-- Whether `10 ^ k` is at most the value. -/
def Interval.reaches (i : Interval) (k : Int) : Bool :=
  tenTo k * i.den ≤ i.value * tenTo (-k)

/-- The power of ten of the leading digit of the value: an estimate from the power of two, put right
by one step either way. -/
def Interval.leadingPower (i : Interval) : Int :=
  let k := floorLog2 i.value i.den * 30103 / 100000
  if !i.reaches k then k - 1
  else if i.reaches (k + 1) then k + 1
  else k

/-- The neighbour of the value on the grid of multiples of `10 ^ p` that reads back, if any; of two
the nearer, and of two as near the even one. -/
def Interval.onGrid? (i : Interval) (p : Int) : Option Nat :=
  let num := i.value * tenTo (-p)
  let den := i.den * tenTo p
  let c := num / den
  match i.contains c p, i.contains (c + 1) p with
  | true, true => some (roundQuotient num den)
  | true, false => some c
  | false, true => some (c + 1)
  | false, false => none

/-- Drops zeros at the end, counting them in the power of ten. -/
def dropZeros : Nat → Nat → Int → Nat × Int
  | 0, c, p => (c, p)
  | fuel + 1, c, p => if c % 10 = 0 then dropZeros fuel (c / 10) (p + 1) else (c, p)

/-- The coefficient and the power of ten of the shortest decimal that reads back, for a finite
number other than zero. Seventeen digits always do. -/
def shortest (x : Binary64) : Nat × Int :=
  let i := x.interval
  let k := i.leadingPower
  let grids := (List.range 17).map fun (n : Nat) => k - n
  match grids.findSome? fun p => (i.onGrid? p).map fun c => (c, p) with
  | some (c, p) => dropZeros 17 c p
  | none => (0, 0)

end NewsService.Binary64
