import NewsService.Calendar.Timestamp
import NewsService.Document.Error
import NewsService.Number.Binary64.Decimal
import NewsService.Text.Base64
import NewsService.Text.Integer

/-!
# Extended spellings

A value of a type that JSON lacks can be spelled as a document under a reserved key, such as `$oid`
for an identifier. `Value.resolve` replaces every such document inside a value by the value it
spells. Fields are looked at in order: the fields before the first reserved key are resolved and
then given up, and those after it are not looked at. The value under some reserved keys is a body
with named parts; a part that is missing is told by its name.
-/

namespace NewsService

/-- The keys that begin a spelling. -/
inductive ReservedKey where
  | oid | symbol | numberInt | numberLong | numberDouble | numberDecimal | decimalOctets | binary
  | uuid | code | scope | timestamp | regularExpression | dbPointer | date | minKey | maxKey
  | undefined
  deriving DecidableEq, Repr

/-- The reserved key with a given name. -/
def ReservedKey.ofName? : String → Option ReservedKey
  | "$oid" => some .oid
  | "$symbol" => some .symbol
  | "$numberInt" => some .numberInt
  | "$numberLong" => some .numberLong
  | "$numberDouble" => some .numberDouble
  | "$numberDecimal" => some .numberDecimal
  | "$numberDecimalBytes" => some .decimalOctets
  | "$binary" => some .binary
  | "$uuid" => some .uuid
  | "$code" => some .code
  | "$scope" => some .scope
  | "$timestamp" => some .timestamp
  | "$regularExpression" => some .regularExpression
  | "$dbPointer" => some .dbPointer
  | "$date" => some .date
  | "$minKey" => some .minKey
  | "$maxKey" => some .maxKey
  | "$undefined" => some .undefined
  | _ => none

/-- A part of a body: its key and how its value is read. -/
structure BodyPart (α : Type) where
  /-- The key. -/
  key : String
  /-- Reads the value. -/
  read : Value → Except DecodeError α

/-- The value of a part that has to be there. -/
def BodyPart.require {α : Type} (part : BodyPart α) : Option α → Except DecodeError α
  | some a => .ok a
  | none => .error (.missingField part.key)

/-- Reads the fields of a body with two parts, in the order in which they stand. The first field
that cannot be read is the error, as is one that belongs to neither part. -/
def BodyPart.scan {α β : Type} (a : BodyPart α) (b : BodyPart β) :
    Document → Except DecodeError (Option α × Option β)
  | [] => .ok (none, none)
  | (key, v) :: rest =>
    if key = a.key then do
      let x ← a.read v
      let (_, y) ← scan a b rest
      return (some x, y)
    else if key = b.key then do
      let y ← b.read v
      let (x, _) ← scan a b rest
      return (x, some y)
    else .error .mismatch

namespace Value

/-- The value in another form, or a mismatch. -/
def expect {α : Type} (read : Value → Option α) (v : Value) : Except DecodeError α :=
  DecodeError.orMismatch (read v)

/-- Reads a body with two parts: a document that has both, or an array that begins with them. -/
def readBody {α β : Type} (a : BodyPart α) (b : BodyPart β) : Value → Except DecodeError (α × β)
  | .document fields => do
    let (x, y) ← a.scan b fields
    return (← a.require x, ← b.require y)
  | .array (v :: w :: _) => do return (← a.read v, ← b.read w)
  | _ => .error .mismatch

/-- A number of a given type in the text of a value. -/
def numberText? (type : IntegerType) (v : Value) : Option Int := do
  (type.read (← v.text?)).toOption

/-- A number that fits into 32 bits without a sign. -/
def word32? (v : Value) : Option UInt32 := do
  let n ← v.integer?
  if 0 ≤ n ∧ n < UInt32.size then some (UInt32.ofNat n.toNat) else none

/-- A number that fits into eight bits without a sign. -/
def octet? (v : Value) : Option UInt8 := do
  let n ← v.integer?
  if 0 ≤ n ∧ n < UInt8.size then some (UInt8.ofNat n.toNat) else none

/-- The octets of a value: generic ones, those of a text, or numbers. -/
def octets? : Value → Option (List UInt8)
  | .binary 0 octets => some octets
  | .string s => some (Utf8.ofString s)
  | .array items => items.mapM octet?
  | _ => none

/-- An identifier: its text, or its octets. -/
def spelledId? : Value → Option ObjectId
  | .string s => ObjectId.ofText? s
  | .binary 0 octets => ObjectId.ofOctets? octets
  | _ => none

/-- The number of a double: one of three words, or decimal text. -/
def spelledDouble? (v : Value) : Option Binary64 := do
  match ← v.text? with
  | "Infinity" => return Binary64.infinity false
  | "-Infinity" => return Binary64.infinity true
  | "NaN" => return Binary64.nan
  | text => Binary64.ofText? text

/-- Octets in base64 with a tag of two hexadecimal digits. -/
def spelledBinary (v : Value) : Except DecodeError Value := do
  let (base64, subtype) ← v.readBody ⟨"base64", expect text?⟩ ⟨"subType", expect text?⟩
  match Base64.decode? base64.toList, Hex.decode? subtype.toList with
  | some octets, some [tag] => return .binary tag octets
  | _, _ => .error .mismatch

/-- The digits of an identifier written in five groups joined by hyphens. -/
def hyphenated? (cs : List Char) : Option (List Char) :=
  match cs.splitOn '-' with
  | [a, b, c, d, e] =>
    if [a, b, c, d, e].map List.length = [8, 4, 4, 4, 12] then some (a ++ b ++ c ++ d ++ e)
    else none
  | _ => none

/-- Sixteen octets: thirty-two digits, or the hyphenated form, bare, in braces or as a name. -/
def spelledUuid? (v : Value) : Option Value := do
  let cs := (← v.text?).toList
  let digits ←
    if cs.length = 32 then some cs
    else if cs.length = 36 then hyphenated? cs
    else if cs.length = 38 ∧ cs.head? = some '\x7b' ∧ cs.getLast? = some '\x7d' then
      hyphenated? (cs.drop 1).dropLast
    else if cs.length = 45 ∧ (cs.take 9).map Char.toLower = "urn:uuid:".toList then
      hyphenated? (cs.drop 9)
    else none
  return .binary 4 (← Hex.decode? digits)

/-- The text under `$numberLong` in a document that has no other field, or the text that is the only
item of an array. -/
def longText? : Value → Option Value
  | .document [("$numberLong", v)] => some v
  | .array [v] => some v
  | _ => none

/-- A point in time: milliseconds, their text under `$numberLong`, or a timestamp. -/
def spelledDate? (v : Value) : Option Value :=
  let millis :=
    match v.longText?, v.text? with
    | some long, _ => long.numberText? .i64
    | none, some text => Timestamp.millis? text
    | none, none => v.integer?
  millis.map fun n => .dateTime (Int64.ofInt n)

/-- A time mark from its two parts. -/
def spelledTimestamp (v : Value) : Except DecodeError Value := do
  let (seconds, increment) ← v.readBody ⟨"t", expect word32?⟩ ⟨"i", expect word32?⟩
  return .timestamp seconds increment

/-- A regular expression from its two parts. -/
def spelledRegex (v : Value) : Except DecodeError Value := do
  let (pattern, options) ← v.readBody ⟨"pattern", expect text?⟩ ⟨"options", expect text?⟩
  return .regex pattern options

/-- The identifier in a reference: one that is stored, or a text under `$oid`, which may turn out to
be no identifier. -/
def pointedId : Value → Except DecodeError (Except ObjectId.TextError ObjectId)
  | .objectId id => .ok (.ok id)
  | .document [] => .error (.missingField "$oid")
  | .document [("$oid", v)] | .array (v :: _) => ObjectId.ofText <$> v.expect text?
  | _ => .error .mismatch

/-- A reference into a collection from its two parts. -/
def spelledPointer (v : Value) : Except DecodeError Value := do
  match ← v.readBody ⟨"$ref", expect text?⟩ ⟨"$id", pointedId⟩ with
  | (collection, .ok id) => return .pointer collection id
  | (_, .error e) => .error (.badId e)

/-- The value spelled by a reserved key other than `$code` and `$scope` and the value under it. -/
def spelled (key : ReservedKey) (v : Value) : Except DecodeError Value :=
  match key with
  | .oid => .objectId <$> v.expect spelledId?
  | .symbol => .symbol <$> v.expect text?
  | .numberInt => (fun n => .int32 (Int32.ofInt n)) <$> v.expect (numberText? .i32)
  | .numberLong => (fun n => .int64 (Int64.ofInt n)) <$> v.expect (numberText? .i64)
  | .numberDouble => .double <$> v.expect spelledDouble?
  | .numberDecimal => do
    .decimal128 <$> DecodeError.orMismatch (Decimal128.ofText? (← v.expect text?))
  | .decimalOctets => do
    .decimal128 <$> DecodeError.orMismatch (Decimal128.ofOctets? (← v.expect octets?))
  | .binary => v.spelledBinary
  | .uuid => v.expect spelledUuid?
  | .timestamp => v.spelledTimestamp
  | .regularExpression => v.spelledRegex
  | .dbPointer => v.spelledPointer
  | .date => v.expect spelledDate?
  | .minKey => if v.integer? = some 1 then .ok .minKey else .error .mismatch
  | .maxKey => if v.integer? = some 1 then .ok .maxKey else .error .mismatch
  | .undefined =>
    match v with
    | .boolean true => .ok .undefined
    | _ => .error .mismatch
  | .code | .scope => .error .mismatch

mutual

/-- Replaces every extended spelling inside a value. -/
def resolve : Value → Except DecodeError Value
  | .array items => do return .array (← resolveItems items)
  | .document fields => resolveFields fields
  | .scopedCode source scope => do
    match ← resolveFields scope with
    | .document fields => return .scopedCode source fields
    | _ => .error .mismatch
  | v => .ok v

/-- Resolves the items of an array in order. -/
def resolveItems : List Value → Except DecodeError (List Value)
  | [] => .ok []
  | v :: rest => do
    let w ← resolve v
    let items ← resolveItems rest
    return w :: items

/-- Resolves a document: the value it spells, or the document of its resolved fields. -/
def resolveFields : List (String × Value) → Except DecodeError Value
  | [] => .ok (.document [])
  | (key, v) :: rest =>
    match ReservedKey.ofName? key with
    | some .code =>
      match v.text?, rest with
      | some source, [] => .ok (.code source)
      | some source, ("$scope", scope) :: _ => do
        match ← resolve scope with
        | .document fields => return .scopedCode source fields
        | _ => .error .mismatch
      | _, _ => .error .mismatch
    | some .scope => do
      match ← resolve v, rest with
      | .document fields, ("$code", source) :: _ =>
        return .scopedCode (← source.expect text?) fields
      | .document _, [] => .error (.missingField "$code")
      | _, _ => .error .mismatch
    | some reserved => v.spelled reserved
    | none => do
      let w ← resolve v
      match ← resolveFields rest with
      | .document fields => return .document ((key, w) :: fields)
      | spelled => return spelled

end

end Value

end NewsService
