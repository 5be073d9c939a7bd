import NewsService.Json.Number
import NewsService.Text.Hex

/-!
# Reading JSON text

A text is one value between blanks. The grammar is strict: no comma before a closing bracket, no
control character inside a string, no half of a surrogate pair, and no more than 127 brackets open
at a time. A name that repeats in an object keeps its first place and takes the last value. An
object may stand for the value of a JSON text that it holds, under one reserved name that has to be
its first and only one.
-/

namespace NewsService.Json

/-- The name under which an object holds the text of the value that it stands for. -/
def embeddedKey : String := "$serde_json::private::RawValue"

/-- How many brackets may be open at a time. -/
def maxDepth : Nat := 127

/-- Sets a member of an object: the first place and the last value count. -/
def setMember (name : String) (value : Json) : List (String × Json) → List (String × Json)
  | [] => [(name, value)]
  | member :: rest =>
    if member.1 = name then (name, value) :: rest else member :: setMember name value rest

/-- The object of a list of members in which names may repeat. -/
def ofMembers (members : List (String × Json)) : Json :=
  .object (members.foldl (fun done (name, value) => setMember name value done) [])

/-! ## Blanks and strings -/

/-- Drops the blanks at the beginning. -/
def skipBlanks (cs : List Char) : List Char :=
  cs.dropWhile fun c => c == ' ' || c == '\t' || c == '\n' || c == '\r'

/-- The number that four hexadecimal digits stand for. -/
def codeUnit? (digits : List Char) : Option Nat :=
  digits.foldlM (fun n c => (Hex.digitValue? c).map (16 * n + ·)) 0

/-- The character of an escape by a single letter. -/
def escaped? : Char → Option Char
  | '"' => some '"'
  | '\\' => some '\\'
  | '/' => some '/'
  | 'b' => some '\x08'
  | 'f' => some '\x0c'
  | 'n' => some '\n'
  | 'r' => some '\r'
  | 't' => some '\t'
  | _ => none

/-- Cuts off the rest of a string behind its opening quote. -/
def readChars? : List Char → Option (List Char × List Char)
  | [] => none
  | '"' :: rest => some ([], rest)
  | '\\' :: 'u' :: a :: b :: c :: d :: rest => do
    let high ← codeUnit? [a, b, c, d]
    if high < 0xd800 ∨ 0xdfff < high then
      let (chars, rest) ← readChars? rest
      return (Char.ofNat high :: chars, rest)
    else
      match rest with
      | '\\' :: 'u' :: a :: b :: c :: d :: rest =>
        let low ← codeUnit? [a, b, c, d]
        if high < 0xdc00 ∧ 0xdc00 ≤ low ∧ low ≤ 0xdfff then
          let (chars, rest) ← readChars? rest
          return (Char.ofNat (0x10000 + (high - 0xd800) * 0x400 + (low - 0xdc00)) :: chars, rest)
        else none
      | _ => none
  | '\\' :: letter :: rest => do
    let c ← escaped? letter
    let (chars, rest) ← readChars? rest
    return (c :: chars, rest)
  | c :: rest => do
    if c.toNat < 0x20 then none
    let (chars, rest) ← readChars? rest
    return (c :: chars, rest)

/-- Cuts off a string behind blanks. -/
def readString? (cs : List Char) : Option (String × List Char) :=
  match skipBlanks cs with
  | '"' :: rest => (readChars? rest).map fun (chars, rest) => (String.ofList chars, rest)
  | _ => none

/-- Cuts off one character behind blanks. -/
def expect? (c : Char) (cs : List Char) : Option (List Char) :=
  match skipBlanks cs with
  | [] => none
  | d :: rest => if d = c then some rest else none

/-! ## Values -/

mutual

/-- Cuts off a value behind blanks, with `depth` brackets left to be opened. The fuel bounds how
deep calls are nested; two for each character are enough. -/
def readValue? : Nat → Nat → List Char → Option (Json × List Char)
  | 0, _, _ => none
  | fuel + 1, depth, cs =>
    match skipBlanks cs with
    | 'n' :: 'u' :: 'l' :: 'l' :: rest => some (.null, rest)
    | 't' :: 'r' :: 'u' :: 'e' :: rest => some (.bool true, rest)
    | 'f' :: 'a' :: 'l' :: 's' :: 'e' :: rest => some (.bool false, rest)
    | '"' :: rest => do
      let (chars, rest) ← readChars? rest
      return (.string (String.ofList chars), rest)
    | '[' :: rest =>
      if depth = 0 then none
      else
        match skipBlanks rest with
        | ']' :: rest => some (.array [], rest)
        | _ => (readItems? fuel (depth - 1) rest).map fun (items, rest) => (.array items, rest)
    | '\x7b' :: rest =>
      if depth = 0 then none
      else
        match skipBlanks rest with
        | '\x7d' :: rest => some (.object [], rest)
        | _ => readObject? fuel (depth - 1) rest
    | rest => do
      let (number, rest) ← NumberText.read? rest
      return (← number.value?, rest)

/-- Cuts off the items of an array and its closing bracket; there is at least one item. -/
def readItems? : Nat → Nat → List Char → Option (List Json × List Char)
  | 0, _, _ => none
  | fuel + 1, depth, cs => do
    let (item, rest) ← readValue? fuel depth cs
    match skipBlanks rest with
    | ']' :: rest => return ([item], rest)
    | ',' :: rest =>
      let (items, rest) ← readItems? fuel depth rest
      return (item :: items, rest)
    | _ => none

/-- Cuts off an object behind its opening bracket; there is at least one member. -/
def readObject? : Nat → Nat → List Char → Option (Json × List Char)
  | 0, _, _ => none
  | fuel + 1, depth, cs => do
    let (name, rest) ← readString? cs
    if name = embeddedKey then
      let (text, rest) ← readString? (← expect? ':' rest)
      let (value, blanks) ← readValue? fuel maxDepth text.toList
      if (skipBlanks blanks).isEmpty then return (value, ← expect? '\x7d' rest) else none
    else
      let (members, rest) ← readMembers? fuel depth cs
      return (ofMembers members, rest)

/-- Cuts off the members of an object and its closing bracket; there is at least one member. -/
def readMembers? : Nat → Nat → List Char → Option (List (String × Json) × List Char)
  | 0, _, _ => none
  | fuel + 1, depth, cs => do
    let (name, rest) ← readString? cs
    let (value, rest) ← readValue? fuel depth (← expect? ':' rest)
    match skipBlanks rest with
    | '\x7d' :: rest => return ([(name, value)], rest)
    | ',' :: rest =>
      let (members, rest) ← readMembers? fuel depth rest
      return ((name, value) :: members, rest)
    | _ => none

end

/-- The value of a JSON text. -/
def ofText? (text : String) : Option Json := do
  let cs := text.toList
  let (value, rest) ← readValue? (2 * cs.length + 2) maxDepth cs
  if (skipBlanks rest).isEmpty then return value else none

end NewsService.Json
