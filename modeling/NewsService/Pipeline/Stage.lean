import NewsService.Document.Value
import NewsService.Query.Basic

/-!
# Pipelines

A pipeline is a list of stages that the document store runs in order over a collection. Stages are
values of their own; `Stage.toDocument` spells them in the form in which the store takes them.
-/

namespace NewsService

/-- A condition on one field of a document. -/
inductive Condition where
  /-- The field is, or holds, this string. -/
  | text (s : String)
  /-- The field is, or holds, this truth value. -/
  | flag (b : Bool)
  /-- The field is, or holds, one of these identifiers. -/
  | oneOf (ids : List ObjectId)
  deriving DecidableEq

/-- The number by which a direction is spelled. -/
def Direction.number : Direction → Int32
  | .ascending => 1
  | .descending => -1

/-- A stage of a pipeline. -/
inductive Stage where
  /-- Keeps the documents that meet all conditions. -/
  | select (conditions : List (String × Condition))
  /-- Sorts by keys, the first one deciding first. -/
  | sort (keys : List (String × Direction))
  /-- Drops documents at the front. -/
  | skip (n : Int64)
  /-- Keeps documents at the front. -/
  | limit (n : Int64)
  /-- Puts one document with the number of documents under the given key; none for no document. -/
  | count (key : String)
  /-- Replaces the identifiers in a field by the list of the documents that have them. -/
  | join (collection : Collection) (field : String)
  /-- Replaces a list in a field by its elements, one document for each; a document with an empty
  list, or without the field, stays as it is without the field. -/
  | unwind (field : String)
  /-- Replaces the identifiers in a field by the list of what a pipeline gives over another
  collection; the pipeline can refer to the identifiers. -/
  | joinThrough (collection : Collection) (field : String) (pipeline : List Stage)
  /-- In the pipeline of `joinThrough`: keeps the documents whose identifier is referred to. -/
  | selectReferenced

/-- A pipeline. -/
abbrev Pipeline := List Stage

namespace Stage

/-- The name by which expressions refer to the value of a field. -/
def path (field : String) : String :=
  "$" ++ field

/-- The spelling of a condition. -/
def conditionValue : Condition → Value
  | .text s => .string s
  | .flag b => .boolean b
  | .oneOf ids => .document [("$in", .array (ids.map .objectId))]

mutual

/-- The spelling of a stage: a document with one field, whose key says what the stage does. -/
def toDocument : Stage → Document
  | .select conditions =>
    [("$match", .document (conditions.map fun (key, c) => (key, conditionValue c)))]
  | .sort keys => [("$sort", .document (keys.map fun (key, d) => (key, .int32 d.number)))]
  | .skip n => [("$skip", .int64 n)]
  | .limit n => [("$limit", .int64 n)]
  | .count key => [("$count", .string key)]
  | .join collection field =>
    [("$lookup", .document [
      ("from", .string collection.name),
      ("localField", .string field),
      ("foreignField", .string "_id"),
      ("as", .string field)])]
  | .unwind field =>
    [("$unwind", .document [
      ("path", .string (path field)),
      ("preserveNullAndEmptyArrays", .boolean true)])]
  | .joinThrough collection field pipeline =>
    [("$lookup", .document [
      ("from", .string collection.name),
      ("let", .document [
        ("ids", .document [("$ifNull", .array [.string (path field), .array []])])]),
      ("pipeline", .array (toValues pipeline)),
      ("as", .string field)])]
  | .selectReferenced =>
    [("$match", .document [
      ("$expr", .document [("$in", .array [.string "$_id", .string "$$ids"])])])]

/-- The spellings of a list of stages. -/
def toValues : List Stage → List Value
  | [] => []
  | stage :: rest => .document (toDocument stage) :: toValues rest

end

end Stage

/-- The spelling of a pipeline. -/
def Pipeline.toDocuments (pipeline : Pipeline) : List Document :=
  pipeline.map Stage.toDocument

end NewsService
