import NewsService.Text.Duration

/-!
# Limits on requests

Each request is bounded in the time of its queries and in the size of the page that it may ask for.
-/

namespace NewsService

/-- Bounds on requests. -/
structure Limits where
  /-- The time given to a query. -/
  queryTimeout : Duration := ⟨5000⟩
  /-- The time given to each section of the index page. -/
  indexTimeout : Duration := ⟨3000⟩
  /-- The size of a page for which the request gives none. -/
  defaultLimit : Int64 := 10
  /-- The greatest size of a page. -/
  maxLimit : Int64 := 50
  deriving DecidableEq, Repr

/-- The size of the page for a request: the default when it gives none or one that is not positive;
any other size is capped at the greatest one. -/
def Limits.pageSize (limits : Limits) : Option Int64 → Int64
  | none => limits.defaultLimit
  | some requested =>
    if requested ≤ 0 then limits.defaultLimit
    else if limits.maxLimit < requested then limits.maxLimit
    else requested

end NewsService
