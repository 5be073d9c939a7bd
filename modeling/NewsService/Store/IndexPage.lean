import NewsService.Store.Basic

/-!
# The index page

The index page shows the results of several queries, each under a name. All queries are sent at once
and taken up as they end; queries that end at the same time are taken up in the order of the
sections. A query that fails leaves its section empty and does not fail the page.
-/

namespace NewsService

/-- A section of the index page. -/
structure Section where
  /-- The name under which the section is shown. -/
  name : String
  /-- The kind of its records. -/
  kind : Kind
  /-- The query for its records. -/
  query : Query
  deriving DecidableEq, Repr

/-- What a section shows: records of one kind. -/
structure SectionRecords where
  /-- The kind. -/
  kind : Kind
  /-- The records. -/
  records : List Record

/-- The index page: what each section shows, by increasing name. -/
structure IndexPage where
  /-- Names and what they show. -/
  sections : List (String × SectionRecords) := []

namespace IndexPage

/-- Puts an entry at the place of its name; an entry of the same name is replaced. -/
def insertEntry (name : String) (shown : SectionRecords) :
    List (String × SectionRecords) → List (String × SectionRecords)
  | [] => [(name, shown)]
  | entry :: rest =>
    if name = entry.1 then (name, shown) :: rest
    else if name < entry.1 then (name, shown) :: entry :: rest
    else entry :: insertEntry name shown rest

/-- Shows records under a name. -/
def insert (page : IndexPage) (name : String) (shown : SectionRecords) : IndexPage :=
  ⟨insertEntry name shown page.sections⟩

end IndexPage

namespace Section

/-- What a section shows after its query: its records, or none when the query failed. -/
def shown (s : Section) : Except StoreError (List Record) → SectionRecords
  | .ok records => ⟨s.kind, records⟩
  | .error _ => ⟨s.kind, []⟩

/-- The state of publication that all sections ask for. -/
def published : String := "published"

/-- The query for the latest published records. -/
def latestPublished (limit : Int64) : Query :=
  { filter := { state := published }
    sort := { publishedDate := some .descending }
    window := ⟨0, limit⟩ }

/-- The query for the latest published records of a style. -/
def latestOfStyle (style : String) (limit : Int64) : Query :=
  { latestPublished limit with filter := { state := published, style } }

/-- The sections of the page that is served. -/
def standard : List Section :=
  [⟨"latest", .post, latestPublished 6⟩,
    ⟨"editor_picks", .post,
      { latestPublished 6 with filter := { state := published, isFeatured := some true } }⟩,
    ⟨"latest_topic", .topic, latestPublished 1⟩,
    ⟨"reviews", .post, latestOfStyle "review" 4⟩,
    ⟨"photos", .post, latestOfStyle "photography" 6⟩,
    ⟨"interactives", .post, latestOfStyle "interactive" 6⟩]

end Section

namespace IndexPage

/-- Takes up the end of a section's query. -/
def takeUp (page : IndexPage) (ended : Section × Settled (List Record)) : IndexPage :=
  page.insert ended.1.name (ended.1.shown ended.2.result)

/-- The page that takes up the ends of queries in the given order. -/
def collect (ended : List (Section × Settled (List Record))) : IndexPage :=
  ended.foldl takeUp {}

/-- Runs the queries of all sections, each in a limited time, and takes them up as they end. -/
def assemble (store : Store) (sections : List Section) (limit : Duration) : Session IndexPage := do
  let ended ← sections.mapM fun s => do return (s, ← store.startFind s.kind s.query limit)
  return collect (ended.mergeSort fun a b => a.2.time ≤ b.2.time)

end IndexPage

end NewsService
