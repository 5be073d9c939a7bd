import Mathlib.Data.List.Sort
import NewsService.Proofs.Engine.Join

/-!
# A store and a database

One engine that follows the rules open to an engine, so that statements about all engines speak of
at least one: conditions are met by a value or by an item of an array, and orders compare dates. A
small database stands by for it.
-/

namespace NewsService

namespace Condition

/-- Whether a single value meets a condition. -/
def isMetBy : Condition → Value → Bool
  | .text s, .string t => s == t
  | .flag b, .boolean c => b == c
  | .oneOf ids, .objectId id => ids.contains id
  | _, _ => false

/-- Whether the value of a field meets a condition, itself or with an item. -/
def holds (c : Condition) (v : Value) : Bool :=
  c.isMetBy v || v.items.any c.isMetBy

end Condition

namespace Engine

/-- The date of a field, in milliseconds; a missing date is the earliest. -/
def dateAt (key : String) (d : Document) : Int :=
  match d.valueAt key with
  | .dateTime millis => millis.toInt
  | _ => Int64.minValue.toInt

/-- Whether a document may stand before another in an order by dates. -/
def standsBefore : List (String × Direction) → Document → Document → Bool
  | [], _, _ => true
  | (key, direction) :: rest, a, b =>
    match direction, compare (dateAt key a) (dateAt key b) with
    | _, .eq => standsBefore rest a b
    | .ascending, .lt | .descending, .gt => true
    | _, _ => false

/-- Whether two identifiers, or two nulls, are the same. -/
def sameId : Value → Value → Bool
  | .objectId a, .objectId b => a == b
  | .null, .null => true
  | _, _ => false

/-- The engine that compares identifiers and sorts by dates. -/
def standard : Engine where
  same := sameId
  same_objectId := fun v id => by
    cases v <;> simp [sameId]
  select := fun conditions docs =>
    docs.filter fun d => conditions.all fun (key, c) => c.holds (d.valueAt key)
  select_sublist := fun _ _ => List.filter_sublist
  sort := fun keys docs => docs.insertionSort fun a b => standsBefore keys a b
  sort_perm := fun _ _ => List.perm_insertionSort _ _

end Engine

/-- The identifier with one octet twelve times. -/
def ObjectId.ofOctet (octet : UInt8) : ObjectId :=
  ⟨List.replicate 12 octet, List.length_replicate⟩

namespace Database

/-- A small database: of two posts one has an image, labels and related posts, and the other one
refers to an image that is gone. -/
def sample : Database
  | .posts =>
    [[(idKey, .objectId (.ofOctet 1)), ("slug", .string "flood"), ("state", .string "published"),
        ("publishedDate", .dateTime 1600000000000), ("heroImage", .objectId (.ofOctet 3)),
        ("categories", .array [.objectId (.ofOctet 5), .objectId (.ofOctet 5)]),
        ("relateds", .array [.objectId (.ofOctet 2), .objectId (.ofOctet 1)])],
      [(idKey, .objectId (.ofOctet 2)), ("state", .string "published"),
        ("publishedDate", .dateTime 1700000000000), ("heroImage", .objectId (.ofOctet 9)),
        ("relateds", .null)]]
  | .images => [[(idKey, .objectId (.ofOctet 3)), ("description", .string "cover")]]
  | .categories => [[(idKey, .objectId (.ofOctet 5)), ("name", .string "rivers")]]
  | _ => []

theorem sample_ids : ∀ collection, ∀ d ∈ sample collection, (Document.id? d).isSome = true := by
  intro collection
  cases collection <;> decide

theorem sample_decodes (collection : Collection) :
    ((sample collection).all fun d => (Record.decode collection.recordType d).isOk) = true := by
  cases collection <;>
    simp [sample, Collection.recordType, Record.decode, Record.partsOf, Record.Parts.toRecord,
      Record.Parts.empty, RecordType.field?, RecordType.fields, RecordType.postFields, idKey,
      readId, Content.decode, Scalar.read, Value.text?, readDate, DecodeError.orMismatch,
      Related.decode, Related.decodeList, Related.ofResolved, Value.resolve, Except.isOk,
      Except.toBool, bind, Except.bind, pure, Except.pure]

theorem sample_valid : sample.Valid where
  hasId := by
    intro collection d hd
    obtain ⟨id, hid⟩ := Option.isSome_iff_exists.1 (sample_ids collection d hd)
    obtain ⟨v, hlookup, hv⟩ := Option.bind_eq_some_iff.1 hid
    exact ⟨id, Value.objectId?_eq_some.1 hv ▸ hlookup⟩
  distinct := by
    intro collection
    cases collection <;> decide
  decodes := by
    intro collection d hd
    have hok := List.all_eq_true.1 (sample_decodes collection) d hd
    cases hdecode : Record.decode collection.recordType d with
    | ok r => exact ⟨r, rfl⟩
    | error e => simp [hdecode, Except.isOk, Except.toBool] at hok

end Database

end NewsService
