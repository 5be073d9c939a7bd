import NewsService.Text.Hex
import NewsService.Text.Utf8

/-!
# Document identifiers

An identifier is twelve octets. Its text is twenty-four hexadecimal digits, written in lowercase and
read in either case. Faults are looked for on the octets of the text: an odd number of them, then
the first one that is no digit, then a number other than twenty-four.
-/

namespace NewsService

/-- The identifier of a document. -/
structure ObjectId where
  /-- The octets, in order. -/
  octets : List UInt8
  /-- There are twelve of them. -/
  length_eq : octets.length = 12
  deriving DecidableEq

namespace ObjectId

/-- Why a text is no identifier. -/
inductive TextError where
  /-- An octet of the text, shown as the character with its number, is no digit. -/
  | badCharacter (c : Char) (index : Nat) (text : String)
  /-- The text does not have twenty-four octets. -/
  | badLength (length : Nat) (text : String)
  deriving DecidableEq, Repr

/-- The wording of a text error. -/
def TextError.message : TextError → String
  | .badCharacter c index text =>
    "invalid character '" ++ String.ofList [c] ++ "' was found at index " ++ toString index ++
      " in the provided hex string: \"" ++ text ++ "\""
  | .badLength length text =>
    "provided hex string representation must be exactly 12 bytes, instead got: \"" ++ text ++
      "\", length " ++ toString length

/-- The identifier with the given octets, if there are twelve. -/
def ofOctets? (octets : List UInt8) : Option ObjectId :=
  if h : octets.length = 12 then some ⟨octets, h⟩ else none

/-- The octets of a text, each as the character with its number. -/
def octetCharacters (text : String) : List Char :=
  (Utf8.ofString text).map fun b => Char.ofNat b.toNat

/-- Reads the text of an identifier. -/
def ofText (text : String) : Except TextError ObjectId :=
  let digits := octetCharacters text
  let badLength := Except.error (TextError.badLength digits.length text)
  if digits.length % 2 = 1 then badLength
  else
    match digits.zipIdx.find? fun (c, _) => !Hex.isDigit c with
    | some (c, index) => .error (.badCharacter c index text)
    | none =>
      match (Hex.decode? digits).bind ofOctets? with
      | some id => .ok id
      | none => badLength

/-- The identifier of a text, if it has one. -/
def ofText? (text : String) : Option ObjectId :=
  (ofText text).toOption

/-- The text of an identifier. -/
def text (id : ObjectId) : String :=
  String.ofList (Hex.encode id.octets)

/-- The identifiers of the texts that have one, in order. -/
def ofTexts (texts : List String) : List ObjectId :=
  texts.filterMap ofText?

end ObjectId

end NewsService
