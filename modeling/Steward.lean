import Steward.App.Extension
import Steward.App.Running
import Steward.App.Services
import Steward.App.Stages
import Steward.Command.Delivery
import Steward.Command.Dispatch
import Steward.Command.Invocation
import Steward.Command.Node
import Steward.Command.Registry
import Steward.Command.Result
import Steward.Command.Traversal
import Steward.Config.Loading
import Steward.Config.Logging
import Steward.Config.Settings
import Steward.Config.Template
import Steward.Document.Json
import Steward.Document.Lenient
import Steward.Document.Storage
import Steward.Document.Yaml.Cursor
import Steward.Document.Yaml.Doc
import Steward.Document.Yaml.Meaning
import Steward.Document.Yaml.Node
import Steward.Document.Yaml.Pen
import Steward.Document.Yaml.Scalar
import Steward.Document.Yaml.Tag
import Steward.Document.Yaml.Time
import Steward.Document.Yaml.Token
import Steward.Document.Yaml.Token.Lexer
import Steward.Document.Yaml.Writer
import Steward.Event.Bus
import Steward.Event.Publishing
import Steward.Failure
import Steward.Journal
import Steward.Loop.Activity
import Steward.Loop.Basic
import Steward.Number.Binary64
import Steward.Number.Decimal
import Steward.Number.Spelling
import Steward.OrderedMap
import Steward.Parse.Chain
import Steward.Parse.Lookup
import Steward.Parse.Parser
import Steward.Parse.Primitive
import Steward.Parse.Scan
import Steward.Parse.Writing
import Steward.Permission.Forest
import Steward.Permission.Groups
import Steward.Permission.Holder
import Steward.Permission.Tree
import Steward.Platform
import Steward.Rule.Component
import Steward.Rule.Firing
import Steward.Rule.Listening
import Steward.Rule.Prompt
import Steward.Rule.Saved
import Steward.Rule.Standard
import Steward.Rule.Store
import Steward.Script.Basic
import Steward.Script.Callbacks
import Steward.Script.Chain
import Steward.Script.Command
import Steward.Script.Document
import Steward.Script.Listening
import Steward.Script.Outcome
import Steward.Script.Rule
import Steward.Script.Session.App
import Steward.Script.Session.Events
import Steward.Script.Session.Permissions
import Steward.Script.Session.Prompt
import Steward.Script.Session.Rules
import Steward.Script.Session.Services
import Steward.Script.Session.Storage
import Steward.Text.Blank
import Steward.Text.CaseTable
import Steward.Text.LowerCase
import Steward.Text.PrintTable
import Steward.Text.Quoted
import Steward.Text.Reader
import Steward.Text.Span
import Steward.Value
import Steward.World
import Steward.Proofs.Config.Fitting
import Steward.Proofs.Config.Boards
import Steward.Proofs.Config.InPlace
import Steward.Proofs.Config.LoadFailures
import Steward.Proofs.Permission.Caching
import Steward.Proofs.App.FailedLoads
import Steward.Proofs.Rule.RoundTrip
import Steward.Proofs.Rule.Attaching
import Steward.Proofs.Rule.Volleys
import Steward.Proofs.Rule.Ledger
import Steward.Proofs.Command.TokenAgreement
import Steward.Proofs.Command.Timing
import Steward.Proofs.Rule.Firings
import Steward.Proofs.Command.Regular
import Steward.Proofs.Command.Aborting
import Steward.Proofs.Command.Tracing
import Steward.Proofs.Rule.Furnishing
import Steward.Proofs.Rule.Hollow
import Steward.Proofs.Rule.Keeping
import Steward.Proofs.Rule.Matching
import Steward.Proofs.Rule.Reenacting
import Steward.Proofs.Rule.Sandbox
import Steward.Proofs.Rule.Scenes
import Steward.Proofs.Parse.Outlook
import Steward.Proofs.Parse.Conduct
import Steward.Proofs.Parse.Tending
import Steward.Proofs.Parse.Settling
import Steward.Proofs.Loop.Waiting
import Steward.Proofs.Parse.Forsaking
import Steward.Proofs.Parse.Lifetime
import Steward.Proofs.Parse.Uniformity
import Steward.Proofs.Prompt.Verdicts
import Steward.Proofs.Permission.Transparency
import Steward.Proofs.Permission.RoleIndex
import Steward.Proofs.Permission.Archive
import Steward.Proofs.Text.Scanning
import Steward.Proofs.Text.Checkpoints
import Steward.Proofs.Parse.Layouts
import Steward.Proofs.Permission.Edits
import Steward.Proofs.Permission.Ancestry
import Steward.Proofs.Command.Fallbacks
import Steward.Proofs.App.Starting
import Steward.Proofs.Number.Whole
import Steward.Proofs.Parse.Durations
import Steward.Proofs.Loop.Following
import Steward.Proofs.Parse.Scalars
import Steward.Proofs.Parse.Mentions
import Steward.Proofs.Parse.Faults
import Steward.Proofs.Parse.Fences
import Steward.Proofs.Parse.Onward
import Steward.Proofs.Command.FlagTokens
import Steward.Proofs.Command.FlagResolution
import Steward.Proofs.Parse.Breakdown
import Steward.Proofs.Parse.DurationLists
import Steward.Proofs.Number.Numerals
import Steward.Proofs.Parse.CodeBlocks
import Steward.Proofs.Event.Ranking
import Steward.Proofs.Event.Telling
import Steward.Proofs.Event.Snapshot
import Steward.Proofs.Command.Rendering
import Steward.Proofs.App.StageReports
import Steward.Proofs.Command.Answering
import Steward.Proofs.Command.Presence
