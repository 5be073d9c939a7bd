/-!
# Hexadecimal text

Octets are written as two lowercase digits each, most significant first. Reading accepts digits of
either case and nothing else, so `decode?` is total on text and undoes `encode`.
-/

namespace NewsService.Hex

/-- The value of a hexadecimal digit, in either case. -/
def digitValue? (c : Char) : Option Nat :=
  if '0' ≤ c ∧ c ≤ '9' then some (c.toNat - 48)
  else if 'a' ≤ c ∧ c ≤ 'f' then some (c.toNat - 87)
  else if 'A' ≤ c ∧ c ≤ 'F' then some (c.toNat - 55)
  else none

/-- A character is a hexadecimal digit when it has a value. -/
def isDigit (c : Char) : Bool :=
  (digitValue? c).isSome

/-- The lowercase digit of a value below sixteen. -/
def digit (n : Nat) : Char :=
  if n < 10 then Char.ofNat (48 + n) else Char.ofNat (87 + n)

/-- Two digits for each octet. -/
def encode (octets : List UInt8) : List Char :=
  octets.flatMap fun b => [digit (b.toNat / 16), digit (b.toNat % 16)]

/-- The octets that pairs of digits stand for; an odd digit or any other character has none. -/
def decode? : List Char → Option (List UInt8)
  | [] => some []
  | [_] => none
  | high :: low :: rest => do
    let h ← digitValue? high
    let l ← digitValue? low
    let octets ← decode? rest
    return UInt8.ofNat (16 * h + l) :: octets

end NewsService.Hex
