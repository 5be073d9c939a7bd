/-!
# Double precision words

A double is its 64-bit word in the binary64 interchange format. Its value is read off the word in
exact integers: a sign, a mantissa and a power of two. Rounding a ratio of integers goes the other
way, to the nearest double with ties to the even mantissa.
-/

namespace NewsService

/-- A double precision number, as its word. -/
structure Binary64 where
  /-- Sign, eleven exponent bits and fifty-two fraction bits, from the most significant bit down. -/
  word : UInt64
  deriving DecidableEq, Repr

namespace Binary64

/-- Whether the sign bit is set. -/
def negative (x : Binary64) : Bool :=
  1 <<< 63 ≤ x.word.toNat

/-- The eleven exponent bits. -/
def exponentBits (x : Binary64) : Nat :=
  (x.word.toNat >>> 52) % 2048

/-- The fifty-two fraction bits. -/
def fractionBits (x : Binary64) : Nat :=
  x.word.toNat % (1 <<< 52)

/-- Whether the number is neither infinite nor NaN. -/
def isFinite (x : Binary64) : Bool :=
  x.exponentBits < 2047

/-- The mantissa of a finite number. -/
def mantissa (x : Binary64) : Nat :=
  if x.exponentBits = 0 then x.fractionBits else (1 <<< 52) + x.fractionBits

/-- The power of two that scales the mantissa of a finite number. -/
def exponent (x : Binary64) : Int :=
  if x.exponentBits = 0 then -1074 else (x.exponentBits : Int) - 1075

/-- The word with a given sign bit and the other bits as a number below 2^63. -/
def ofParts (negative : Bool) (magnitude : Nat) : Binary64 :=
  ⟨UInt64.ofNat ((if negative then 1 <<< 63 else 0) + magnitude)⟩

/-- Infinity of a sign. -/
def infinity (negative : Bool) : Binary64 :=
  ofParts negative (2047 <<< 52)

/-- The quiet NaN with the least fraction. -/
def nan : Binary64 :=
  ofParts false ((2047 <<< 52) + (1 <<< 51))

/-- The integer nearest to a finite number; a half goes away from zero. -/
def roundToInt (x : Binary64) : Int :=
  let magnitude : Nat :=
    match x.exponent with
    | .ofNat k => x.mantissa <<< k
    | .negSucc k => (2 * x.mantissa + (1 <<< (k + 1))) >>> (k + 2)
  if x.negative then -(magnitude : Int) else magnitude

/-- The quotient rounded to the nearest integer; a half goes to the even neighbour. -/
def roundQuotient (num den : Nat) : Nat :=
  let q := num / den
  let r := num % den
  if 2 * r < den then q
  else if den < 2 * r then q + 1
  else if q % 2 = 0 then q
  else q + 1

/-- The greatest `k` with `2 ^ k ≤ num / den`, for positive arguments. -/
def floorLog2 (num den : Nat) : Int :=
  let k : Int := (num.log2 : Int) - den.log2
  if den <<< k.toNat ≤ num <<< (-k).toNat then k else k - 1

/-- The double nearest to a ratio; ties go to the even mantissa. -/
def ofRatio (negative : Bool) (num den : Nat) : Binary64 :=
  if num = 0 then ofParts negative 0
  else
    let e : Int := max (floorLog2 num den - 52) (-1074)
    let m := roundQuotient (num <<< (-e).toNat) (den <<< e.toNat)
    let magnitude := ((e + 1074).toNat <<< 52) + m
    if 2047 <<< 52 ≤ magnitude then infinity negative else ofParts negative magnitude

/-- The numerator of the size of a finite number, over `denominator`. -/
def numerator (x : Binary64) : Nat :=
  x.mantissa <<< x.exponent.toNat

/-- The denominator of the size of a finite number, over which it is `numerator`. -/
def denominator (x : Binary64) : Nat :=
  1 <<< (-x.exponent).toNat

/-- The product of two finite numbers, rounded. -/
def mul (x y : Binary64) : Binary64 :=
  ofRatio (x.negative != y.negative) (x.numerator * y.numerator) (x.denominator * y.denominator)

/-- The quotient of a finite number by a finite number other than zero, rounded. -/
def div (x y : Binary64) : Binary64 :=
  ofRatio (x.negative != y.negative) (x.numerator * y.denominator) (x.denominator * y.numerator)

end Binary64

end NewsService
