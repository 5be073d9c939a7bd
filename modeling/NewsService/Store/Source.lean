import NewsService.Pipeline.Stage

/-!
# Document sources

A source is the document store as the service sees it: it runs a pipeline over a collection, after a
delay, or refuses to. What it answers may depend on the calls that came before. A session is a
computation that sends calls; its state is the list of all calls so far, in order.
-/

namespace NewsService

/-- A call of the document store. -/
structure Call where
  /-- The collection that the pipeline runs over. -/
  collection : Collection
  /-- The pipeline. -/
  pipeline : Pipeline

/-- What a source does with a call. -/
structure Reply where
  /-- How long it takes, in milliseconds. -/
  delay : Nat
  /-- The documents that it then answers with; `none` when it refuses the call. -/
  documents : Option (List Document)

/-- A document source. -/
structure Source where
  /-- The reply to a call after earlier calls. -/
  answer : List Call → Call → Reply
  /-- How long it takes to answer a ping, in milliseconds. -/
  pingDelay : Nat
  /-- Whether it answers a ping at all. -/
  isUp : Bool

/-- A computation that sends calls. -/
abbrev Session := StateM (List Call)

/-- Sends a call. -/
def Source.send (source : Source) (call : Call) : Session Reply :=
  fun earlier => (source.answer earlier call, earlier ++ [call])

end NewsService
