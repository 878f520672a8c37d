import Hearth.Bands
import Hearth.Command
import Hearth.Decimal.Binary
import Hearth.Decimal.Print
import Hearth.Decimal.Read
import Hearth.Decimal.Shortest
import Hearth.Decimal.Whole
import Hearth.Duration
import Hearth.Event
import Hearth.Failure
import Hearth.Files
import Hearth.Flow
import Hearth.House
import Hearth.House.Build
import Hearth.House.Check
import Hearth.House.Furnish
import Hearth.House.Install
import Hearth.House.Link
import Hearth.House.Listing
import Hearth.Journal
import Hearth.Json.Basic
import Hearth.Json.Bytes
import Hearth.Json.Decode
import Hearth.Json.Print
import Hearth.Json.Read
import Hearth.Level
import Hearth.Link.Backoff
import Hearth.Link.Channel
import Hearth.Link.Loop
import Hearth.Link.Message
import Hearth.Link.Pump
import Hearth.Link.Queue
import Hearth.Link.Spares
import Hearth.Link.State
import Hearth.Log
import Hearth.Main
import Hearth.Module
import Hearth.NameMap
import Hearth.Pattern
import Hearth.Proofs.Basic
import Hearth.Proofs.Decimal
import Hearth.Proofs.Failure
import Hearth.Proofs.Files.Growth
import Hearth.Proofs.Files.Paths
import Hearth.Proofs.Files.Places
import Hearth.Proofs.Files.Replacement
import Hearth.Proofs.Files.Views
import Hearth.Proofs.House.Calls
import Hearth.Proofs.House.Crowds
import Hearth.Proofs.House.Deeds
import Hearth.Proofs.House.Fixtures
import Hearth.Proofs.House.Handover
import Hearth.Proofs.House.Incidents
import Hearth.Proofs.House.Lineless
import Hearth.Proofs.House.Loads
import Hearth.Proofs.House.Matching
import Hearth.Proofs.House.Names
import Hearth.Proofs.House.Outfit
import Hearth.Proofs.House.Registries
import Hearth.Proofs.House.Roster
import Hearth.Proofs.House.Shutdown
import Hearth.Proofs.House.Start
import Hearth.Proofs.House.Steady
import Hearth.Proofs.House.Stock
import Hearth.Proofs.House.Waits
import Hearth.Proofs.House.Watches
import Hearth.Proofs.House.Work
import Hearth.Proofs.House.Worlds
import Hearth.Proofs.Json.Layout
import Hearth.Proofs.Json.Scalars
import Hearth.Proofs.Link.Attempts
import Hearth.Proofs.Link.Closings
import Hearth.Proofs.Link.Coherence
import Hearth.Proofs.Link.Completion
import Hearth.Proofs.Link.Course
import Hearth.Proofs.Link.Custody
import Hearth.Proofs.Link.Deadlines
import Hearth.Proofs.Link.Deeds
import Hearth.Proofs.Link.Deliveries
import Hearth.Proofs.Link.Demand
import Hearth.Proofs.Link.Endings
import Hearth.Proofs.Link.Failures
import Hearth.Proofs.Link.Intake
import Hearth.Proofs.Link.Line
import Hearth.Proofs.Link.Notices
import Hearth.Proofs.Link.Order
import Hearth.Proofs.Link.Quota
import Hearth.Proofs.Link.Replies
import Hearth.Proofs.Link.Settling
import Hearth.Proofs.Link.Station
import Hearth.Proofs.Link.Steady
import Hearth.Proofs.Link.Steering
import Hearth.Proofs.Link.Timeouts
import Hearth.Proofs.Link.Transport
import Hearth.Proofs.Link.Turns
import Hearth.Proofs.Link.Waiting
import Hearth.Proofs.Link.Window
import Hearth.Proofs.Link.Writings
import Hearth.Proofs.NameMap
import Hearth.Proofs.Pattern.Captures
import Hearth.Proofs.Pattern.Sameness
import Hearth.Proofs.Registry
import Hearth.Proofs.Registry.Bands
import Hearth.Proofs.Registry.Ledger
import Hearth.Proofs.Scopes.Ancestry
import Hearth.Proofs.Scopes.Isolation
import Hearth.Proofs.Script.Blocks
import Hearth.Proofs.Script.Forest
import Hearth.Proofs.Script.Quoting
import Hearth.Proofs.Script.Spelling
import Hearth.Proofs.Script.Written
import Hearth.Proofs.Session.Alternatives
import Hearth.Proofs.Session.Calls
import Hearth.Proofs.Session.Interpretation
import Hearth.Proofs.Session.Lines
import Hearth.Proofs.Session.Origins
import Hearth.Proofs.Session.Phrases
import Hearth.Proofs.Session.Recovery
import Hearth.Proofs.Session.Renumbering
import Hearth.Proofs.Session.Runs
import Hearth.Proofs.Session.Stacks
import Hearth.Proofs.Settings.Directories
import Hearth.Proofs.Settings.Includes
import Hearth.Proofs.Settings.Tags
import Hearth.Proofs.States.Announcements
import Hearth.Proofs.States.Changes
import Hearth.Proofs.States.Effects
import Hearth.Proofs.States.Unsaved
import Hearth.Proofs.Store.Document
import Hearth.Proofs.Store.Durable
import Hearth.Proofs.Store.Records
import Hearth.Proofs.Strand.Blame
import Hearth.Proofs.Strand.Choices
import Hearth.Proofs.Strand.Course
import Hearth.Proofs.Strand.Culprits
import Hearth.Proofs.Strand.Decline
import Hearth.Proofs.Strand.Dispatch
import Hearth.Proofs.Strand.Lineless
import Hearth.Proofs.Strand.Performance
import Hearth.Proofs.Strand.Texts
import Hearth.Proofs.Strand.Traceback
import Hearth.Proofs.Strand.Walk
import Hearth.Proofs.Text.Codes
import Hearth.Proofs.Text.Quoted
import Hearth.Proofs.Text.Utf8
import Hearth.Proofs.Timestamp
import Hearth.Proofs.Vocabulary
import Hearth.Registry
import Hearth.Rehearsal.Form
import Hearth.Rehearsal.Probe
import Hearth.Rehearsal.Traffic
import Hearth.Scope
import Hearth.Script.Encode
import Hearth.Script.Fault
import Hearth.Script.Layout
import Hearth.Script.Lexeme
import Hearth.Script.Outline
import Hearth.Sequence
import Hearth.Server
import Hearth.Session
import Hearth.Settings
import Hearth.Settings.Decode
import Hearth.Settings.Encode
import Hearth.Settings.Include
import Hearth.Settings.Load
import Hearth.Settings.Secrets
import Hearth.Span
import Hearth.Statement
import Hearth.Store
import Hearth.Strand
import Hearth.Strand.Modules
import Hearth.Strand.Run
import Hearth.Strand.Step
import Hearth.Strand.Work
import Hearth.Text.Blank
import Hearth.Text.Hex
import Hearth.Text.Letter
import Hearth.Text.Quoted
import Hearth.Text.Utf8
import Hearth.Timestamp
import Hearth.Timestamp.Read
import Hearth.Token
import Hearth.Vocabulary
import Hearth.Worker
import Hearth.World
import Hearth.World.Live
import Hearth.World.Start
import Hearth.Yaml.Basic
import Hearth.Yaml.Cursor
import Hearth.Yaml.Json
import Hearth.Yaml.Node
import Hearth.Yaml.Read
import Hearth.Yaml.Scalar
import Hearth.Yaml.Token
import Hearth.Yaml.Token.Layout
import Hearth.Yaml.Token.Property
import Hearth.Yaml.Token.Scalar
