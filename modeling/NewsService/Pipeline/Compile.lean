import NewsService.Pipeline.Filter
import NewsService.Pipeline.Join
import NewsService.Pipeline.Sort

/-!
# Queries as pipelines

The stages come in a fixed order: filter, order, window, joins. Joining last means that only the
documents of the window are joined. The counting pipeline of a query keeps its filter only, so it
counts all matches whatever the window.
-/

namespace NewsService

/-- The stages of a window: what is skipped, then what is kept. -/
def Window.stages (w : Window) : Pipeline :=
  (if 0 < w.offset then [.skip w.offset] else []) ++ if 0 < w.limit then [.limit w.limit] else []

namespace Query

/-- The stages that choose the documents of a query. -/
def stages (q : Query) : Pipeline :=
  q.filter.stages ++ q.sort.stages ++ q.window.stages

/-- The pipeline that answers a query with records of a kind. -/
def pipeline (q : Query) (kind : Kind) (depth : Nat) : Pipeline :=
  q.stages ++ kind.joinStages q.expansion depth

/-- The key of the count. -/
def totalKey : String := "total"

/-- The pipeline that counts all matches of a query. -/
def countPipeline (q : Query) : Pipeline :=
  q.filter.stages ++ [.count totalKey]

end Query

end NewsService
