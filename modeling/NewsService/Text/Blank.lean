/-!
# White space and comma lists

A character is blank when it has the Unicode property White_Space. List parameters are split at
commas, each piece is trimmed of blanks at both ends, and pieces that are then empty are dropped.
-/

namespace NewsService.Text

/-- The ranges of the Unicode property White_Space, in increasing order. -/
def blankRanges : List (Nat × Nat) :=
  [(0x9, 0xd), (0x20, 0x20), (0x85, 0x85), (0xa0, 0xa0), (0x1680, 0x1680), (0x2000, 0x200a),
    (0x2028, 0x2029), (0x202f, 0x202f), (0x205f, 0x205f), (0x3000, 0x3000)]

/-- Whether a character has the property White_Space. -/
def isBlank (c : Char) : Bool :=
  blankRanges.any fun (low, high) => low ≤ c.toNat && c.toNat ≤ high

/-- Drops blanks at the end. -/
def trimEnd (cs : List Char) : List Char :=
  (cs.reverse.dropWhile isBlank).reverse

/-- Drops blanks at both ends. -/
def trim (cs : List Char) : List Char :=
  trimEnd (cs.dropWhile isBlank)

/-- The trimmed pieces between commas, empty ones included. -/
def commaPieces (text : String) : List String :=
  (text.toList.splitOn ',').map fun piece => String.ofList (trim piece)

/-- The trimmed pieces between commas that are not empty. -/
def commaEntries (text : String) : List String :=
  (commaPieces text).filter fun piece => !piece.isEmpty

end NewsService.Text
