import NewsService.Config
import NewsService.Document.FreeContent
import NewsService.Http.Server
import NewsService.Json.Text
import NewsService.Proofs.Engine.Query
import NewsService.Proofs.Engine.Standard
import NewsService.Proofs.Record.Embedded
import NewsService.Proofs.Pipeline.Graph
import NewsService.Proofs.Record.Decode
import NewsService.Query.Json
import NewsService.Store.Json
import NewsService.Store.Script
import NewsService.Proofs.ObjectId.Text
import NewsService.Proofs.Pipeline.Selection
import NewsService.Proofs.Pipeline.Faithful
import NewsService.Proofs.Engine.Join
import NewsService.Proofs.Engine.Expansion
import NewsService.Proofs.Engine.Answers
import NewsService.Proofs.Engine.Paging
import NewsService.Proofs.IndexPage.Entries
import NewsService.Proofs.IndexPage.FanIn
import NewsService.Proofs.Config.Bounds
import NewsService.Proofs.Pipeline.Bounds
import NewsService.Proofs.Http.Calls
import NewsService.Proofs.Http.Bounds
import NewsService.Proofs.Record.Precise
import NewsService.Proofs.Record.Chain
import NewsService.Proofs.Record.InPlace
import NewsService.Proofs.Record.FreeContent
import NewsService.Proofs.Store.Page
import NewsService.Proofs.Store.Script
import NewsService.Proofs.Http.Status
import NewsService.Proofs.Pipeline.Unfolding
import NewsService.Proofs.Text.Utf8
import NewsService.Proofs.Text.Integer
import NewsService.Proofs.Text.Urlencoded
import NewsService.Proofs.Http.Requests
import NewsService.Proofs.Http.Single
import NewsService.Proofs.Http.Lists
import NewsService.Proofs.Record.Replacement
import NewsService.Proofs.Record.Expansion
import NewsService.Proofs.Store.Outcome
import NewsService.Proofs.Text.CommaList
import NewsService.Proofs.Pipeline.SortText
import NewsService.Proofs.Http.IdLists
import NewsService.Proofs.Document.Around
import NewsService.Proofs.Record.Blank
import NewsService.Proofs.ObjectId.Places
import NewsService.Proofs.Calendar.Date
import NewsService.Proofs.Calendar.Text
import NewsService.Proofs.Json.Alike
import NewsService.Proofs.Record.Typed
import NewsService.Proofs.Record.Determined
import NewsService.Proofs.Json.Loosened
import NewsService.Proofs.Query.Json
import NewsService.Proofs.Config.Environment
import NewsService.Proofs.Http.Origins
