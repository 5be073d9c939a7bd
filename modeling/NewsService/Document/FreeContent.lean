import NewsService.Calendar.Instant
import NewsService.Document.Value
import NewsService.Json.Reader
import NewsService.Text.Base64

/-!
# Free content as JSON

Fields without a schema are served as they are stored. Values of types that JSON lacks are written
under a reserved key. Numbers that are neither finite nor integers become null. Generic octets and
decimal numbers of 128 bits have no JSON form. A document whose first key is the one for embedded
JSON text has the form of that text.
-/

namespace NewsService.Value

/-- The last millisecond of the year 9999. -/
def lastFourDigitMillis : Int := 253402300799999

/-- A date: its timestamp from 1970 to 9999, and its milliseconds otherwise. -/
def dateJson (millis : Int) : Json :=
  if 0 ≤ millis ∧ millis ≤ lastFourDigitMillis then
    .object [("$date", .string ((Instant.ofMillis millis).text .trimmed))]
  else .object [("$date", .object [("$numberLong", .string (toString millis))])]

/-- The options of a regular expression in increasing order. -/
def sortedOptions (options : String) : String :=
  String.ofList (options.toList.mergeSort fun a b => a.toNat ≤ b.toNat)

/-- An identifier. -/
def idJson (id : ObjectId) : Json :=
  .object [("$oid", .string id.text)]

/-- The JSON form of a document whose fields have the given forms: that of the text which it holds
under its first key, or else an object. -/
def documentJson? (fields : Document) (members : Option (List (String × Json))) : Option Json :=
  match fields with
  | [] => members.map .object
  | (key, v) :: _ =>
    if key = Json.embeddedKey then
      match v with
      | .string text => Json.ofText? text
      | _ => none
    else members.map .object

mutual

/-- The JSON form of a value, if it has one. -/
def freeJson? : Value → Option Json
  | .null => some .null
  | .boolean b => some (.bool b)
  | .int32 n => some (.integer n.toInt)
  | .int64 n => some (.integer n.toInt)
  | .double x => some (if x.isFinite then .double x else .null)
  | .string s => some (.string s)
  | .array items => (freeItems? items).map .array
  | .document fields => documentJson? fields (freeMembers? fields)
  | .objectId id => some (idJson id)
  | .dateTime millis => some (dateJson millis.toInt)
  | .binary subtype octets =>
    if subtype = 0 then none
    else some <| .object [("$binary", .object [
      ("base64", .string (String.ofList (Base64.encode octets))),
      ("subType", .string (String.ofList (Hex.encode [subtype])))])]
  | .undefined => some (.object [("$undefined", .bool true)])
  | .minKey => some (.object [("$minKey", .integer 1)])
  | .maxKey => some (.object [("$maxKey", .integer 1)])
  | .symbol name => some (.object [("$symbol", .string name)])
  | .code source => some (.object [("$code", .string source)])
  | .scopedCode source scope =>
    (documentJson? scope (freeMembers? scope)).map fun bindings =>
      .object [("$code", .string source), ("$scope", bindings)]
  | .regex pattern options =>
    some <| .object [("$regularExpression", .object [
      ("pattern", .string pattern), ("options", .string (sortedOptions options))])]
  | .timestamp seconds increment =>
    some <| .object [("$timestamp", .object [
      ("t", .integer seconds.toNat), ("i", .integer increment.toNat)])]
  | .decimal128 _ => none
  | .pointer collection id =>
    some <| .object [("$dbPointer", .object [("$ref", .string collection), ("$id", idJson id)])]

/-- The JSON forms of the items of an array. -/
def freeItems? : List Value → Option (List Json)
  | [] => some []
  | v :: rest => do
    let item ← freeJson? v
    let items ← freeItems? rest
    return item :: items

/-- The JSON forms of the fields of a document. -/
def freeMembers? : List (String × Value) → Option (List (String × Json))
  | [] => some []
  | (key, v) :: rest => do
    let value ← freeJson? v
    let members ← freeMembers? rest
    return (key, value) :: members

end

end NewsService.Value
