/-!
# UTF-8

`encode` writes characters as octets. `decode` reads octets as a sequence of characters and broken
spots: a broken spot is a longest run of octets that begins some character and is cut short, or a
single octet that begins none. Reading strictly asks that nothing is broken; reading leniently puts
the replacement character U+FFFD for every broken spot.
-/

namespace NewsService.Utf8

/-- The octets of one character. -/
def encodeChar (c : Char) : List UInt8 :=
  let n := c.toNat
  let tail (shift : Nat) : UInt8 := UInt8.ofNat (0x80 + n / shift % 64)
  if n < 0x80 then [UInt8.ofNat n]
  else if n < 0x800 then [UInt8.ofNat (0xc0 + n / 64), tail 1]
  else if n < 0x10000 then [UInt8.ofNat (0xe0 + n / 4096), tail 64, tail 1]
  else [UInt8.ofNat (0xf0 + n / 262144), tail 4096, tail 64, tail 1]

/-- The octets of a sequence of characters. -/
def encode (cs : List Char) : List UInt8 :=
  cs.flatMap encodeChar

/-- The octets of a text. -/
def ofString (text : String) : List UInt8 :=
  encode text.toList

/-- A character of which some octets have been read. -/
structure Pending where
  /-- How many octets are still to come, at least one. -/
  missing : Nat
  /-- The bits read so far. -/
  value : Nat
  /-- The least octet that may come next. -/
  low : Nat
  /-- The greatest octet that may come next. -/
  high : Nat
  deriving DecidableEq, Repr

/-- What an octet at the start of a character means. -/
inductive Lead where
  /-- It is a whole character. -/
  | whole (c : Char)
  /-- It begins a longer character. -/
  | first (p : Pending)
  /-- No character begins with it. -/
  | broken
  deriving DecidableEq, Repr

/-- The meaning of the first octet. The bounds on the second octet leave out overlong forms,
surrogates and values beyond U+10FFFF. -/
def lead (octet : UInt8) : Lead :=
  let b := octet.toNat
  if b < 0x80 then .whole (Char.ofNat b)
  else if b < 0xc2 then .broken
  else if b < 0xe0 then .first ⟨1, b - 0xc0, 0x80, 0xbf⟩
  else if b = 0xe0 then .first ⟨2, 0, 0xa0, 0xbf⟩
  else if b = 0xed then .first ⟨2, 0xd, 0x80, 0x9f⟩
  else if b < 0xf0 then .first ⟨2, b - 0xe0, 0x80, 0xbf⟩
  else if b = 0xf0 then .first ⟨3, 0, 0x90, 0xbf⟩
  else if b < 0xf4 then .first ⟨3, b - 0xf0, 0x80, 0xbf⟩
  else if b = 0xf4 then .first ⟨3, 4, 0x80, 0x8f⟩
  else .broken

/-- Reads on from a character begun earlier, or from none. A broken spot is `none`; the octet that
breaks a begun character is read again as a first one. -/
def decodeFrom : Option Pending → List UInt8 → List (Option Char)
  | none, [] => []
  | some _, [] => [none]
  | none, octet :: rest =>
    match lead octet with
    | .whole c => some c :: decodeFrom none rest
    | .first p => decodeFrom (some p) rest
    | .broken => none :: decodeFrom none rest
  | some p, octet :: rest =>
    if p.low ≤ octet.toNat ∧ octet.toNat ≤ p.high then
      let value := p.value * 64 + (octet.toNat - 0x80)
      if p.missing ≤ 1 then some (Char.ofNat value) :: decodeFrom none rest
      else decodeFrom (some ⟨p.missing - 1, value, 0x80, 0xbf⟩) rest
    else
      match lead octet with
      | .whole c => none :: some c :: decodeFrom none rest
      | .first q => none :: decodeFrom (some q) rest
      | .broken => none :: none :: decodeFrom none rest

/-- The characters and broken spots of a sequence of octets. -/
def decode (octets : List UInt8) : List (Option Char) :=
  decodeFrom none octets

/-- The text of octets in which nothing is broken. -/
def toString? (octets : List UInt8) : Option String :=
  ((decode octets).mapM id).map String.ofList

/-- The text of octets, with U+FFFD for every broken spot. -/
def toStringLossy (octets : List UInt8) : String :=
  String.ofList ((decode octets).map fun c => c.getD (Char.ofNat 0xfffd))

end NewsService.Utf8
