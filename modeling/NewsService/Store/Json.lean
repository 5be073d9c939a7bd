import NewsService.Json
import NewsService.Record.Json
import NewsService.Store.IndexPage

/-!
# Answers of the store as JSON

A page is its records with a summary of the window beside them; the index page is an object with a
list of records under each name.
-/

namespace NewsService

/-- Writes a page. -/
def Page.toJson (page : Page) : Json :=
  .object [
    ("meta", .object [("total", .integer page.total), ("offset", .integer page.window.offset.toInt),
      ("limit", .integer page.window.limit.toInt)]),
    ("records", .array (page.records.map Record.toJson))]

/-- Writes what a section shows. -/
def SectionRecords.toJson (shown : SectionRecords) : Json :=
  .array (shown.records.map Record.toJson)

/-- Writes the index page. -/
def IndexPage.toJson (page : IndexPage) : Json :=
  .object (page.sections.map fun (name, shown) => (name, shown.toJson))

end NewsService
