import ChatDoc.Foundation.Program
import ChatDoc.Foundation.ServiceLoop
import ChatDoc.Foundation.Transition
import ChatDoc.Foundation.SerialTable
import ChatDoc.Foundation.Ranking
import ChatDoc.Foundation.KeyedRows
import ChatDoc.Foundation.Raising
import ChatDoc.Foundation.HalfEven
import ChatDoc.Foundation.Numeral
import ChatDoc.Foundation.Search
import ChatDoc.Foundation.Regex
import ChatDoc.Foundation.Windows
import ChatDoc.Store.Schema
import ChatDoc.Store.Statements
import ChatDoc.Service.World
import ChatDoc.Ingest.Pipeline
import ChatDoc.Jobs.Worker
import ChatDoc.Service.Routes
import ChatDoc.Jobs.Survival
import ChatDoc.Service.Deployment
import ChatDoc.Service.Effects
import ChatDoc.Jobs.Attempts
import ChatDoc.Jobs.Wedging
import ChatDoc.Jobs.Backpressure
import ChatDoc.Jobs.Lease
import ChatDoc.Jobs.Exclusive
import ChatDoc.Jobs.Slice
import ChatDoc.Jobs.Outline
import ChatDoc.Jobs.Recovery
import ChatDoc.Service.Uploading
import ChatDoc.Jobs.Ownership
import ChatDoc.Jobs.Orderly
import ChatDoc.Jobs.Ready
import ChatDoc.Jobs.Outcome
import ChatDoc.Jobs.Deletion
import ChatDoc.Gate.Answer
import ChatDoc.Gate.Checks
import ChatDoc.Gate.Verdicts
import ChatDoc.Gate.Grounding
import ChatDoc.Gate.Provenance
import ChatDoc.Gate.Conventional
import ChatDoc.Gate.Layers
import ChatDoc.Service.Query
import ChatDoc.Service.Streaming
import ChatDoc.Foundation.Integer
import ChatDoc.Eval.Cache
import ChatDoc.Eval.Replay
import ChatDoc.Eval.Grading
import ChatDoc.Eval.Runner
import ChatDoc.Eval.Sweep
import ChatDoc.Eval.Monotone
import ChatDoc.Eval.Leaks
import ChatDoc.Eval.Contamination
import ChatDoc.Eval.Ingestion
import ChatDoc.Eval.Resuming
import ChatDoc.Eval.Baseline
import ChatDoc.Eval.Converging
import ChatDoc.Service.Generator
import ChatDoc.Service.Teardown
import ChatDoc.Foundation.Binary64
import ChatDoc.Foundation.NumberText
import ChatDoc.Foundation.Json
import ChatDoc.Foundation.JsonRoundTrip
import ChatDoc.Foundation.Utf8
import ChatDoc.Web.Events
import ChatDoc.Web.Fragments
import ChatDoc.Web.Chat
import ChatDoc.Web.Progress
import ChatDoc.Web.Honesty
import ChatDoc.Web.Watching
import ChatDoc.Service.Sessions
import ChatDoc.Service.Validity
import ChatDoc.Service.Outliving
import ChatDoc.Foundation.OrderBy
import ChatDoc.Foundation.Handler
import ChatDoc.Service.Retrieval
import ChatDoc.Service.Ranking
import ChatDoc.Eval.ZeroThresholds
import ChatDoc.Service.Endpoints
import ChatDoc.Service.Isolation
import ChatDoc.Service.Noninterference
import ChatDoc.Service.CrossUser
import ChatDoc.Service.Halves
import ChatDoc.Gate.Unicode
import ChatDoc.Ingest.Chunker
import ChatDoc.Ingest.Grouping
import ChatDoc.Ingest.Coverage
import ChatDoc.Ingest.Emptiness
import ChatDoc.Eval.Normalize
import ChatDoc.Eval.ScalePhrase
import ChatDoc.Eval.Signs
import ChatDoc.Foundation.Tally
import ChatDoc.Service.Fusion
import ChatDoc.Foundation.Credit
import ChatDoc.Foundation.Endless
import ChatDoc.Eval.TokenBucket
import ChatDoc.Eval.Starvation
import ChatDoc.Foundation.Separated
import ChatDoc.Eval.CacheMap
import ChatDoc.Service.Excerpts
import ChatDoc.Web.Citations
import ChatDoc.Eval.AblatedKeys
import ChatDoc.Eval.Temporal
import ChatDoc.Eval.QuotaGuard
import ChatDoc.Foundation.RegexLocal
import ChatDoc.Ingest.ScaleSearch
import ChatDoc.Ingest.CurrencySearch
import ChatDoc.Ingest.ScaleContext
import ChatDoc.Foundation.Comparators
import ChatDoc.Web.ReadingOrder
import ChatDoc.Service.AuthRoutes
import ChatDoc.Web.DoubleSubmit
import ChatDoc.Foundation.Whitespace
import ChatDoc.Foundation.Occurrence
import ChatDoc.Foundation.Pieces
import ChatDoc.Foundation.Breaks
import ChatDoc.Web.Normalizing
import ChatDoc.Web.TextLayer
import ChatDoc.Web.ReferenceText
import ChatDoc.Foundation.Margins
import ChatDoc.Web.Spotting
import ChatDoc.Web.MissedQuotes
import ChatDoc.Web.QuoteSearch
import ChatDoc.Foundation.Potential
import ChatDoc.Jobs.Waiting
import ChatDoc.Foundation.History
import ChatDoc.Jobs.Batches
import ChatDoc.Jobs.Throttle
import ChatDoc.Service.Accounts
import ChatDoc.Service.Origins
import ChatDoc.Foundation.Updates
import ChatDoc.Web.Turns
import ChatDoc.Foundation.Boxes
import ChatDoc.Web.Highlights
import ChatDoc.Foundation.Refinement
import ChatDoc.Service.Storage
import ChatDoc.Service.Backends
import ChatDoc.Service.Delivery
import ChatDoc.Eval.Negatives
