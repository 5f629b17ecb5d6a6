import ProxyMonitor.Answer
import ProxyMonitor.Command.Arguments
import ProxyMonitor.Command.Problem
import ProxyMonitor.Command.Program
import ProxyMonitor.Command.Run
import ProxyMonitor.Command.Settings
import ProxyMonitor.Command.Table
import ProxyMonitor.Config
import ProxyMonitor.Environment
import ProxyMonitor.Facet
import ProxyMonitor.Failure
import ProxyMonitor.Files
import ProxyMonitor.Http.Client
import ProxyMonitor.Http.Status
import ProxyMonitor.Json.Decode
import ProxyMonitor.Json.Doc
import ProxyMonitor.Json.Number
import ProxyMonitor.Json.Problem
import ProxyMonitor.Json.Token
import ProxyMonitor.Json.Value
import ProxyMonitor.Live.Session
import ProxyMonitor.Live.View
import ProxyMonitor.Location
import ProxyMonitor.Log
import ProxyMonitor.Log.Filter
import ProxyMonitor.Log.Rotation
import ProxyMonitor.Log.Setup
import ProxyMonitor.Main
import ProxyMonitor.Number.Binary64
import ProxyMonitor.Number.Decimal
import ProxyMonitor.Page
import ProxyMonitor.Poll.Scheduler
import ProxyMonitor.Poll.Timer
import ProxyMonitor.Readable
import ProxyMonitor.Record.Blacklist
import ProxyMonitor.Record.Collection
import ProxyMonitor.Record.History
import ProxyMonitor.Record.Listing
import ProxyMonitor.Record.Pool
import ProxyMonitor.Record.Reverify
import ProxyMonitor.Screen.App
import ProxyMonitor.Screen.Frame
import ProxyMonitor.Screen.Input
import ProxyMonitor.Screen.Layout
import ProxyMonitor.Screen.Panel
import ProxyMonitor.Screen.Picture
import ProxyMonitor.Screen.Terminal
import ProxyMonitor.Screen.Wrap
import ProxyMonitor.Text.Blank
import ProxyMonitor.Text.CharWidth
import ProxyMonitor.Text.Cluster
import ProxyMonitor.Text.Utf8
import ProxyMonitor.Time.Calendar
import ProxyMonitor.Time.Instant
import ProxyMonitor.Time.Rfc3339
import ProxyMonitor.Toml.Document
import ProxyMonitor.Toml.Quoted
import ProxyMonitor.Toml.Scalar
import ProxyMonitor.Toml.Table
import ProxyMonitor.Url.Address
import ProxyMonitor.Url.Basic
import ProxyMonitor.Url.Domain
import ProxyMonitor.Url.Form
import ProxyMonitor.Url.Host
import ProxyMonitor.Url.Percent
import ProxyMonitor.Url.Punycode
import ProxyMonitor.Url.Resolve
import ProxyMonitor.Proofs.Past
import ProxyMonitor.Proofs.Poll.Settled
import ProxyMonitor.Proofs.FilterPair
import ProxyMonitor.Proofs.Live.Reaction
import ProxyMonitor.Proofs.Live.Run
import ProxyMonitor.Proofs.Live.SingleFlight
import ProxyMonitor.Proofs.Live.PublishedState
import ProxyMonitor.Proofs.Live.Outcome
import ProxyMonitor.Proofs.Live.Results
import ProxyMonitor.Proofs.Live.FilterEdits
import ProxyMonitor.Proofs.Live.Causes
import ProxyMonitor.Proofs.Live.Pause
import ProxyMonitor.Proofs.Live.Resume
import ProxyMonitor.Proofs.Live.Clock
import ProxyMonitor.Proofs.Live.Burst
import ProxyMonitor.Proofs.Poll.Operations
import ProxyMonitor.Proofs.Live.Teardown
import ProxyMonitor.Proofs.Live.HandOver
import ProxyMonitor.Proofs.Live.FailureShown
import ProxyMonitor.Proofs.Live.Mount
import ProxyMonitor.Proofs.Live.Cadence
import ProxyMonitor.Proofs.Screen.Typing
import ProxyMonitor.Proofs.Text.Utf8
import ProxyMonitor.Proofs.Url.Percent
import ProxyMonitor.Proofs.Url.Form
import ProxyMonitor.Proofs.Url.Path
import ProxyMonitor.Proofs.Url.Join
import ProxyMonitor.Proofs.Url.Authority
import ProxyMonitor.Proofs.Url.Site
import ProxyMonitor.Proofs.Url.Pushed
import ProxyMonitor.Proofs.LocationText
import ProxyMonitor.Proofs.Opening
import ProxyMonitor.Proofs.Http.Target
import ProxyMonitor.Proofs.Http.Removal
import ProxyMonitor.Proofs.Http.Query
import ProxyMonitor.Proofs.Files
import ProxyMonitor.Proofs.Log.Slots
import ProxyMonitor.Proofs.Log.Rotation
import ProxyMonitor.Proofs.Json.Fields
import ProxyMonitor.Proofs.Json.Revised
import ProxyMonitor.Proofs.Record.EmptyLists
import ProxyMonitor.Proofs.Record.Reencoded
import ProxyMonitor.Proofs.Yields
import ProxyMonitor.Proofs.Text.Digits
import ProxyMonitor.Proofs.Json.Spelled
import ProxyMonitor.Proofs.Json.Parsed
import ProxyMonitor.Proofs.Json.Written
import ProxyMonitor.Proofs.Json.Codec
import ProxyMonitor.Proofs.Time.Calendar
import ProxyMonitor.Proofs.Time.Rfc3339
import ProxyMonitor.Proofs.Config.Resolution
import ProxyMonitor.Proofs.Poll.LastRequest
import ProxyMonitor.Proofs.Toml.Quoted
import ProxyMonitor.Proofs.Toml.Document
import ProxyMonitor.Proofs.Config.Saved
import ProxyMonitor.Proofs.Log.FailedRoll
import ProxyMonitor.Proofs.FilterHistory
import ProxyMonitor.Proofs.FacetLinks
import ProxyMonitor.Proofs.Poll.Waiting
import ProxyMonitor.Proofs.Live.Served
import ProxyMonitor.Proofs.Screen.LinkNumbers
import ProxyMonitor.Proofs.Live.FirstRequest
import ProxyMonitor.Proofs.Json.Restated
import ProxyMonitor.Proofs.Record.MemberOrder
import ProxyMonitor.Proofs.Log.Limit
import ProxyMonitor.Proofs.Record.Summaries
import ProxyMonitor.Proofs.Http.ErrorAnswers
import ProxyMonitor.Proofs.Live.Notice
import ProxyMonitor.Proofs.Screen.KeyLoop
import ProxyMonitor.Proofs.Screen.Arrangement
import ProxyMonitor.Proofs.Screen.Cells
import ProxyMonitor.Proofs.Screen.Containment
import ProxyMonitor.Proofs.Text.Search
import ProxyMonitor.Proofs.Record.PathColumn
import ProxyMonitor.Proofs.Screen.FacetPanel
