import NewsService.Text.Hex
import NewsService.Text.Utf8

/-!
# Percent escapes and query strings

A `%` followed by two hexadecimal digits stands for an octet; any other `%` stands for itself. A
query string is a list of pairs between `&`, each cut at its first `=`; in it a `+` is a space, and
octets that are not UTF-8 are read leniently. Empty pieces are skipped, and a piece without `=` has
the empty value.
-/

namespace NewsService.Urlencoded

/-- The value of an octet that is a hexadecimal digit. -/
def digitValue? (octet : UInt8) : Option Nat :=
  Hex.digitValue? (Char.ofNat octet.toNat)

/-- Resolves percent escapes. -/
def percentDecode : List UInt8 → List UInt8
  | [] => []
  | [octet] => [octet]
  | [first, second] => [first, second]
  | first :: high :: low :: rest =>
    if first = 0x25 then
      match digitValue? high, digitValue? low with
      | some h, some l => UInt8.ofNat (16 * h + l) :: percentDecode rest
      | _, _ => first :: percentDecode (high :: low :: rest)
    else first :: percentDecode (high :: low :: rest)

/-- One name or value of a query string. -/
def formText (octets : List UInt8) : String :=
  Utf8.toStringLossy (percentDecode (octets.map fun b => if b = 0x2b then 0x20 else b))

/-- The part before the first `=` and the part after it; without `=` the second part is empty. -/
def cut (piece : List UInt8) : List UInt8 × List UInt8 :=
  (piece.takeWhile (· != 0x3d), (piece.dropWhile (· != 0x3d)).drop 1)

/-- The pairs of a query string, in order. -/
def pairs (query : String) : List (String × String) :=
  ((Utf8.ofString query).splitOn 0x26).filterMap fun piece =>
    if piece.isEmpty then none
    else
      let (name, value) := cut piece
      some (formText name, formText value)

/-- The text of one path segment, when its octets are UTF-8. -/
def segmentText? (segment : String) : Option String :=
  Utf8.toString? (percentDecode (Utf8.ofString segment))

end NewsService.Urlencoded
