import NewsService.Document.Extended
import NewsService.Document.FreeContent
import NewsService.Record.Basic

/-!
# Decoding records

A document is walked in order. A field that the schema knows is read by its type, and the first one
that cannot be read decides the error; other fields are passed over. A document without identifier
is refused once all its fields have been read. Fields that are missing, or null, have the default
content.

A reference is resolved before it is read, so that an identifier, a string or a document can also be
spelled in the extended form. Inside a resolved value nothing is left to resolve:
`Related.ofResolved` reads references there by recursion on the value, and `Record.decode` is the
walk at the outside.
-/

namespace NewsService

open DecodeError

/-! ## Plain fields -/

/-- The 64-bit integer nearest to an integer. -/
def clampInt64 (n : Int) : Int64 :=
  Int64.ofInt (max Int64.minValue.toInt (min Int64.maxValue.toInt n))

/-- Reads a number: an integer of either width, or a finite double, which is rounded. -/
def readNumber (v : Value) : Except DecodeError (Option Int64) := do
  match ← v.resolve with
  | .null => return none
  | .int32 n => return some n.toInt64
  | .int64 n => return some n
  | .double x =>
    if x.isFinite then return some (clampInt64 x.roundToInt) else .error (.notNumber .double)
  | other => .error (.notNumber other.type)

/-- Reads a point in time. -/
def readDate (v : Value) : Except DecodeError (Option Instant) := do
  match ← v.resolve with
  | .null => return none
  | .dateTime millis => return some (Instant.ofMillis millis.toInt)
  | _ => .error .mismatch

/-- Reads a plain field. -/
def Scalar.read (type : ScalarType) (v : Value) : Except DecodeError Scalar :=
  match type, v with
  | type, .null => .ok type.default
  | .text, v => .text <$> orMismatch v.text?
  | .flag, .boolean b => .ok (.flag b)
  | .flag, _ => .error .mismatch
  | .number, v => .number <$> readNumber v
  | .date, v => .date <$> readDate v
  | .free, v => (fun j => .free (some j)) <$> orMismatch v.freeJson?

/-- Reads an identifier: the value itself, its text, its octets, or an extended spelling. -/
def readId : Value → Except DecodeError ObjectId
  | .objectId id => .ok id
  | .string s => orMismatch (ObjectId.ofText? s)
  | .binary 0 octets => orMismatch (ObjectId.ofOctets? octets)
  | .document fields => do
    match ← Value.resolveFields fields with
    | .objectId id => return id
    | _ => .error .mismatch
  | _ => .error .mismatch

/-! ## Stored files -/

namespace AssetType

/-- Reads the known fields of a document, in the order of the document. -/
def readFields (type : AssetType) : Document → Except DecodeError (List (String × Scalar))
  | [] => .ok []
  | (key, v) :: rest =>
    match type.field? key with
    | none => readFields type rest
    | some field => do
      let scalar ← Scalar.read field.type v
      let scalars ← readFields type rest
      return (key, scalar) :: scalars

/-- Reads fields by position; fields beyond the items have the default content. -/
def readItems : List (Field ScalarType) → List Value → Except DecodeError (List Scalar)
  | [], _ => .ok []
  | fields, [] => .ok (fields.map fun field => field.type.default)
  | field :: fields, v :: rest => do
    let scalar ← Scalar.read field.type v
    let scalars ← readItems fields rest
    return scalar :: scalars

/-- Reads a stored file. A value with an extended spelling is a document without known fields. -/
def read (type : AssetType) (v : Value) : Except DecodeError (Option (List Scalar)) :=
  match v with
  | .null => .ok none
  | .document fields => do
    let scalars ← type.readFields fields
    return some (type.fields.map fun field => (scalars.lookup field.key).getD field.type.default)
  | .array items => some <$> readItems type.fields items
  | other =>
    if other.isSpelled then .ok (some (type.fields.map fun field => field.type.default))
    else .error .mismatch

end AssetType

/-! ## Records -/

/-- What the known fields of a document give. -/
structure Record.Parts where
  /-- The identifier. -/
  id? : Option ObjectId
  /-- The contents, by key. -/
  contents : List (String × Content)

namespace Record.Parts

/-- The parts of a document without known fields. -/
def empty : Parts := ⟨none, []⟩

/-- The record that the parts make, with default contents for the fields they lack. -/
def toRecord (type : RecordType) (parts : Parts) : Except DecodeError Record :=
  match parts.id? with
  | none => .error (.missingField idKey)
  | some id =>
    .ok ⟨type, id, type.fields.map fun field =>
      (parts.contents.lookup field.key).getD field.type.default⟩

end Record.Parts

mutual

/-- Reads the known fields of a resolved document, in the order of the document. -/
def Record.partsOfResolved (type : RecordType) :
    List (String × Value) → Except DecodeError Record.Parts
  | [] => .ok .empty
  | (key, v) :: rest =>
    if key = idKey then do
      let id ← readId v
      let parts ← Record.partsOfResolved type rest
      return { parts with id? := some id }
    else
      match type.field? key with
      | none => Record.partsOfResolved type rest
      | some field => do
        let content ← Content.ofResolved field.type v
        let parts ← Record.partsOfResolved type rest
        return { parts with contents := (key, content) :: parts.contents }

/-- Reads a field of a resolved document. -/
def Content.ofResolved : FieldType → Value → Except DecodeError Content
  | type, .null => .ok type.default
  | .scalar type, v => .scalar <$> Scalar.read type v
  | .asset type, v => .asset <$> type.read v
  | .reference target, v => (fun r => .reference (some r)) <$> Related.ofResolved target v
  | .references target, .array items => .references <$> Related.listOfResolved target items
  | .references _, _ => .error .mismatch

/-- Reads a resolved reference: an identifier, its text, or the record in its place. -/
def Related.ofResolved (target : RecordType) : Value → Except DecodeError Related
  | .objectId id => .ok (.id id)
  | .string s =>
    match ObjectId.ofText s with
    | .ok id => .ok (.id id)
    | .error e => .error (.badId e)
  | .document fields => do
    let parts ← Record.partsOfResolved target fields
    return .expanded (← parts.toRecord target)
  | other => .error (.notReference other.type)

/-- Reads the items of a resolved list of references, in order. -/
def Related.listOfResolved (target : RecordType) : List Value → Except DecodeError (List Related)
  | [] => .ok []
  | v :: rest => do
    let r ← Related.ofResolved target v
    let rs ← Related.listOfResolved target rest
    return r :: rs

end

/-- Reads a reference. -/
def Related.decode (target : RecordType) (v : Value) : Except DecodeError Related := do
  Related.ofResolved target (← v.resolve)

/-- Reads the items of a list of references, in order. -/
def Related.decodeList (target : RecordType) : List Value → Except DecodeError (List Related)
  | [] => .ok []
  | v :: rest => do
    let r ← Related.decode target v
    let rs ← Related.decodeList target rest
    return r :: rs

/-- Reads a field of a document. -/
def Content.decode : FieldType → Value → Except DecodeError Content
  | type, .null => .ok type.default
  | .scalar type, v => .scalar <$> Scalar.read type v
  | .asset type, v => .asset <$> type.read v
  | .reference target, v => (fun r => .reference (some r)) <$> Related.decode target v
  | .references target, .array items => .references <$> Related.decodeList target items
  | .references _, _ => .error .mismatch

namespace Record

/-- Reads the known fields of a document, in the order of the document. -/
def partsOf (type : RecordType) : Document → Except DecodeError Parts
  | [] => .ok .empty
  | (key, v) :: rest =>
    if key = idKey then do
      let id ← readId v
      let parts ← partsOf type rest
      return { parts with id? := some id }
    else
      match type.field? key with
      | none => partsOf type rest
      | some field => do
        let content ← Content.decode field.type v
        let parts ← partsOf type rest
        return { parts with contents := (key, content) :: parts.contents }

/-- Reads a document as a record of a type. -/
def decode (type : RecordType) (document : Document) : Except DecodeError Record := do
  let parts ← partsOf type document
  parts.toRecord type

end Record

end NewsService
