import NewsService.Proofs.Document.Fields
import NewsService.Proofs.Pipeline.Spelling
import NewsService.Record.Schema
import NewsService.Store.Source

/-!
# What a document store does with a pipeline

A database holds a list of documents in each collection. A document store takes the spelling of a
pipeline and runs its stages one after another over a collection. Conditions, orders and the
equality of values are rules of the store itself: an `Engine` leaves them open, up to what holds of
every store (a condition keeps a sublist, an order permutes, an identifier equals only itself). The
other stages are defined here, with the inputs on which they fail.
-/

namespace NewsService

/-- The documents of a store, by collection. -/
abbrev Database := Collection → List Document

/-- What a store decides by its own rules. -/
structure Engine where
  /-- Whether two values are the same. -/
  same : Value → Value → Bool
  /-- Only an identifier itself is the same as an identifier. -/
  same_objectId : ∀ (v : Value) (id : ObjectId), same v (.objectId id) = true ↔ v = .objectId id
  /-- The documents that meet conditions. -/
  select : List (String × Condition) → List Document → List Document
  /-- Conditions keep some of the documents, in their order. -/
  select_sublist : ∀ conditions docs, (select conditions docs).Sublist docs
  /-- The documents in the order of some keys. -/
  sort : List (String × Direction) → List Document → List Document
  /-- An order keeps every document. -/
  sort_perm : ∀ keys docs, (sort keys docs).Perm docs

namespace Engine

/-! ## Stages -/

/-- One document for each item of the array in a field. A document without items keeps its place and
loses the field. -/
def unwindDocument (field : String) (d : Document) : List Document :=
  match d.lookup field with
  | some (.array []) => [d.without [field]]
  | some (.array items) => items.map fun v => d.insert field v
  | _ => [d]

/-- What a field binds to `$$ids`: the items of its array, and no items when it holds nothing. -/
def boundIds? (field : String) (d : Document) : Option (List Value) :=
  match d.valueAt field with
  | .null | .undefined => some []
  | .array items => some items
  | _ => none

/-- The row of a count; there is none for no document. -/
def countRows (key : String) : Nat → List Document
  | 0 => []
  | n =>
    [[(key,
      if n ≤ Int32.maxValue.toNatClampNeg then .int32 (Int32.ofNat n) else .int64 (Int64.ofNat n))]]

/-- The document in which a list of documents has taken the place of a field. -/
def putAll (field : String) (found : List Document) (d : Document) : Document :=
  d.insert field (.array (found.map .document))

variable (e : Engine) (db : Database)

/-- Whether a stored value, or an item of a stored array, is the identifier of a document. -/
def refersTo (stored : Value) (d : Document) : Bool :=
  let id := d.valueAt idKey
  e.same stored id || stored.items.any fun v => e.same v id

/-- The documents of a collection whose identifier is that of a stored value. -/
def found (collection : Collection) (stored : Value) : List Document :=
  (db collection).filter (e.refersTo stored)

mutual

/-- Runs a stage; `none` when it fails. The list `ids` is what `$$ids` is bound to, inside the
pipeline of a join. -/
def runStage (ids : Option (List Value)) : Stage → List Document → Option (List Document)
  | .select conditions, docs => some (e.select conditions docs)
  | .sort keys, docs => if keys.isEmpty then none else some (e.sort keys docs)
  | .skip n, docs => if n < 0 then none else some (docs.drop n.toNatClampNeg)
  | .limit n, docs => if n ≤ 0 then none else some (docs.take n.toNatClampNeg)
  | .count key, docs => some (countRows key docs.length)
  | .join collection field, docs =>
    some (docs.map fun d => putAll field (e.found db collection (d.valueAt field)) d)
  | .unwind field, docs => some (docs.flatMap (unwindDocument field))
  | .joinThrough collection field pipeline, docs =>
    docs.mapM fun d => do
      let ids ← boundIds? field d
      let found ← run (some ids) pipeline (db collection)
      return putAll field found d
  | .selectReferenced, docs =>
    ids.map fun ids => docs.filter fun d => ids.any fun v => e.same v (d.valueAt idKey)

/-- Runs the stages of a pipeline in order. -/
def run (ids : Option (List Value)) : List Stage → List Document → Option (List Document)
  | [], docs => some docs
  | stage :: rest, docs => do
    let docs ← runStage ids stage docs
    run ids rest docs

end

/-- The answer to a spelled pipeline over a collection; `none` when the store refuses it. -/
def aggregate (collection : Collection) (spelled : List Document) : Option (List Document) := do
  let pipeline ← Pipeline.ofDocuments? spelled
  e.run db none pipeline (db collection)

/-- The store as a source that takes the same time for every call. -/
def source (delay : Nat) : Source where
  answer := fun _ call => ⟨delay, e.aggregate db call.collection call.pipeline.toDocuments⟩
  pingDelay := delay
  isUp := true

/-! ## Runs -/

variable {e db} {ids : Option (List Value)}

theorem aggregate_toDocuments (collection : Collection) (pipeline : Pipeline) :
    e.aggregate db collection pipeline.toDocuments = e.run db none pipeline (db collection) := by
  rw [aggregate, Pipeline.ofDocuments?_toDocuments]
  rfl

@[simp]
theorem run_nil (docs : List Document) : e.run db ids [] docs = some docs := rfl

theorem run_cons (stage : Stage) (rest : Pipeline) (docs : List Document) :
    e.run db ids (stage :: rest) docs =
      (e.runStage db ids stage docs).bind (e.run db ids rest) := rfl

/-- The second of two pipelines takes up what the first one gives. -/
theorem run_append (p q : Pipeline) (docs : List Document) :
    e.run db ids (p ++ q) docs = (e.run db ids p docs).bind (e.run db ids q) := by
  induction p generalizing docs with
  | nil => rfl
  | cons stage rest ih =>
    rw [List.cons_append, run_cons, run_cons, Option.bind_assoc]
    exact congrArg _ (funext ih)

end Engine

end NewsService
