import NewsService.Pipeline.Compile
import NewsService.Record.Decode
import NewsService.Store.Error
import NewsService.Store.Source

/-!
# The store

The store answers queries with records. A query is one call of the source, without retry, and it is
given a limited time: a reply that comes later counts as a timeout, whatever it holds. A page asks
for records and for their number with two calls that run at the same time; the first failure is the
failure of the page, and of two failures at one time that of the count. When the records fail before
any time has passed, the count is not sent.
-/

namespace NewsService

/-- The store: a source, and how deep joins back to records of the same kind are followed. -/
structure Store where
  /-- Where documents come from. -/
  source : Source
  /-- The depth of nested joins. -/
  relatedDepth : Nat := defaultRelatedDepth

/-- How a call ended. -/
structure Settled (α : Type) where
  /-- When the call ended, in milliseconds after it was sent. -/
  time : Nat
  /-- Its result. -/
  result : Except StoreError α

/-- Records with the window they were asked for and the number of all matches. -/
structure Page where
  /-- The number of all matches. -/
  total : Nat
  /-- The window. -/
  window : Window
  /-- The records. -/
  records : List Record

namespace Settled

/-- Goes on with the result of a call that succeeded. -/
def bind {α β : Type} (settled : Settled α) (f : α → Except StoreError β) : Settled β :=
  { time := settled.time, result := settled.result.bind f }

/-- Both results of two calls sent at the same time, or the error that came first; at the same time,
that of the second call. -/
def both {α β : Type} (a : Settled α) (b : Settled β) : Except StoreError (α × β) :=
  match a.result, b.result with
  | .ok x, .ok y => .ok (x, y)
  | .error e, .ok _ => .error e
  | .ok _, .error e => .error e
  | .error e, .error f => if a.time < b.time then .error e else .error f

end Settled

/-- How a call ends that is given a limited time. -/
def Reply.settle (reply : Reply) (collection : Collection) (limit : Duration) :
    Settled (List Document) :=
  if limit.millis < reply.delay then
    { time := limit.millis, result := .error (.timeout collection limit) }
  else
    { time := reply.delay
      result :=
        match reply.documents with
        | some documents => .ok documents
        | none => .error (.execute collection) }

/-- Reads documents as records of a kind; the first one that cannot be read is the error. -/
def decodeRecords (kind : Kind) (documents : List Document) : Except StoreError (List Record) :=
  match documents.mapM (Record.decode kind.recordType) with
  | .ok records => .ok records
  | .error e => .error (.decode kind.collection e)

/-- Reads the row of a count. -/
def readTotal (row : Document) : Except DecodeError Nat :=
  match row.lookup Query.totalKey with
  | none => .error (.missingField Query.totalKey)
  | some v => (fun n => n.toNat) <$> DecodeError.orMismatch v.integer?

/-- Reads the answer of a counting pipeline, which has no row when nothing matches. -/
def decodeTotal (kind : Kind) : List Document → Except StoreError Nat
  | [] => .ok 0
  | row :: _ =>
    match readTotal row with
    | .ok n => .ok n
    | .error e => .error (.decode kind.collection e)

namespace Store

/-- Runs a pipeline in a limited time. -/
def run (store : Store) (collection : Collection) (pipeline : Pipeline) (limit : Duration) :
    Session (Settled (List Document)) := do
  let reply ← store.source.send ⟨collection, pipeline⟩
  return reply.settle collection limit

/-- Runs a query. -/
def startFind (store : Store) (kind : Kind) (q : Query) (limit : Duration) :
    Session (Settled (List Record)) := do
  let settled ← store.run kind.collection (q.pipeline kind store.relatedDepth) limit
  return settled.bind (decodeRecords kind)

/-- Counts all matches of a query. -/
def startCount (store : Store) (kind : Kind) (q : Query) (limit : Duration) :
    Session (Settled Nat) := do
  let settled ← store.run kind.collection q.countPipeline limit
  return settled.bind (decodeTotal kind)

/-- The records that answer a query. -/
def find (store : Store) (kind : Kind) (q : Query) (limit : Duration) :
    Session (Except StoreError (List Record)) := do
  let settled ← store.startFind kind q limit
  return settled.result

/-- The first record that answers a query, whatever its window. -/
def findOne (store : Store) (kind : Kind) (q : Query) (limit : Duration) :
    Session (Except StoreError (Option Record)) := do
  let records ← store.find kind { q with window := ⟨0, 1⟩ } limit
  return records.map List.head?

/-- The number of all matches of a query. -/
def count (store : Store) (kind : Kind) (q : Query) (limit : Duration) :
    Session (Except StoreError Nat) := do
  let settled ← store.startCount kind q limit
  return settled.result

/-- The page that answers a query. -/
def page (store : Store) (kind : Kind) (q : Query) (limit : Duration) :
    Session (Except StoreError Page) := do
  let found ← store.startFind kind q limit
  match found.time, found.result with
  | 0, .error e => return .error e
  | _, _ =>
    let counted ← store.startCount kind q limit
    return (found.both counted).map fun (records, total) => ⟨total, q.window, records⟩

/-- Whether the source answers a ping in a limited time. -/
def ping (store : Store) (limit : Duration) : Bool :=
  store.source.isUp && decide (store.source.pingDelay ≤ limit.millis)

end Store

/-- The limit on a call unless told otherwise: five seconds. -/
def defaultQueryTimeout : Duration := ⟨5000⟩

end NewsService
