import NewsService.Pipeline.Compile
import NewsService.Store.Source

/-!
# Scripted sources

A script says what each collection answers, without running any pipeline: its documents, or, for a
counting pipeline, the rows given for it or else the number of its documents. Collections that are
listed as failing refuse every call. A change replaces the entries that it names.
-/

namespace NewsService

/-- What a source in memory answers, by the names of collections. -/
structure Script where
  /-- The documents of collections. -/
  documents : List (String × List Document) := []
  /-- The rows that answer counting pipelines. -/
  counts : List (String × List Document) := []
  /-- The collections that refuse calls. -/
  failing : List String := []
  /-- The delays of collections, in milliseconds. -/
  delays : List (String × Nat) := []
  /-- Whether pings are left without an answer. -/
  isDown : Bool := false
  /-- The delay of a ping, in milliseconds. -/
  pingDelay : Nat := 0

/-- A change of a script. -/
structure Script.Change where
  /-- New documents of collections. -/
  documents : List (String × List Document) := []
  /-- New counting rows; `none` takes them away. -/
  counts : List (String × Option (List Document)) := []
  /-- The new list of failing collections. -/
  failing : Option (List String) := none
  /-- New delays. -/
  delays : List (String × Nat) := []
  /-- Whether pings are left without an answer. -/
  isDown : Option Bool := none
  /-- The new delay of a ping. -/
  pingDelay : Option Nat := none

namespace Script

/-- Replaces the entry of a name, or takes it away. -/
def setEntry {α : Type} (entries : List (String × α)) (name : String) (value : Option α) :
    List (String × α) :=
  let others := entries.filter fun entry => entry.1 != name
  match value with
  | some a => (name, a) :: others
  | none => others

/-- Makes a change. -/
def change (script : Script) (c : Change) : Script where
  documents := c.documents.foldl (fun es (name, a) => setEntry es name (some a)) script.documents
  counts := c.counts.foldl (fun es (name, a) => setEntry es name a) script.counts
  failing := c.failing.getD script.failing
  delays := c.delays.foldl (fun es (name, a) => setEntry es name (some a)) script.delays
  isDown := c.isDown.getD script.isDown
  pingDelay := c.pingDelay.getD script.pingDelay

/-- Whether a pipeline ends by counting. -/
def isCounting (pipeline : Pipeline) : Bool :=
  match pipeline.getLast? with
  | some (.count _) => true
  | _ => false

/-- The rows that answer a counting pipeline. -/
def countRows (script : Script) (name : String) : List Document :=
  match script.counts.lookup name with
  | some rows => rows
  | none =>
    match ((script.documents.lookup name).getD []).length with
    | 0 => []
    | n => [[(Query.totalKey, .int64 (Int64.ofNat n))]]

/-- The reply to a call. -/
def reply (script : Script) (call : Call) : Reply :=
  let name := call.collection.name
  { delay := (script.delays.lookup name).getD 0
    documents :=
      if script.failing.contains name then none
      else if isCounting call.pipeline then some (script.countRows name)
      else some ((script.documents.lookup name).getD []) }

/-- The source that follows a script. -/
def source (script : Script) : Source where
  answer := fun _ call => script.reply call
  pingDelay := script.pingDelay
  isUp := !script.isDown

end Script

end NewsService
