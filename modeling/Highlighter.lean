import Highlighter.Command.Arguments
import Highlighter.Command.Console
import Highlighter.Command.Execution
import Highlighter.Config.Loading
import Highlighter.Config.Model
import Highlighter.Decimal.Binary64
import Highlighter.Decimal.Shortest
import Highlighter.Files.Path
import Highlighter.Files.Tree
import Highlighter.Grammar.Basic
import Highlighter.Grammar.Compiler
import Highlighter.Grammar.Engine
import Highlighter.Grammar.Loading
import Highlighter.Grammar.Reader
import Highlighter.Grammar.Region
import Highlighter.Grammar.Stack
import Highlighter.Grammar.Tokenizer
import Highlighter.Json.Basic
import Highlighter.Json.Display
import Highlighter.Json.Printer
import Highlighter.Json.Reader
import Highlighter.Main
import Highlighter.Markup.Charset
import Highlighter.Markup.DocumentType
import Highlighter.Markup.Event
import Highlighter.Markup.Name
import Highlighter.Markup.Reference
import Highlighter.Markup.Source
import Highlighter.Markup.Token
import Highlighter.Page.Comparison
import Highlighter.Page.Html
import Highlighter.Page.View
import Highlighter.Pattern.Absent
import Highlighter.Pattern.Basic
import Highlighter.Pattern.Bracket
import Highlighter.Pattern.Callout
import Highlighter.Pattern.CalloutText
import Highlighter.Pattern.Course
import Highlighter.Pattern.Escape
import Highlighter.Pattern.Fault
import Highlighter.Pattern.Folding
import Highlighter.Pattern.Foresight
import Highlighter.Pattern.Landmark
import Highlighter.Pattern.LookBehind
import Highlighter.Pattern.Machine
import Highlighter.Pattern.Name
import Highlighter.Pattern.NamedClass
import Highlighter.Pattern.Outline
import Highlighter.Pattern.Parser
import Highlighter.Pattern.Program
import Highlighter.Pattern.Quantifier
import Highlighter.Pattern.Reading
import Highlighter.Pattern.Recursion
import Highlighter.Pattern.Reference
import Highlighter.Pattern.Reread
import Highlighter.Pattern.Search
import Highlighter.Pattern.Token
import Highlighter.Pattern.Trail
import Highlighter.Pattern.Tuning
import Highlighter.Pattern.Width
import Highlighter.Proofs.Command.Repetition
import Highlighter.Proofs.Command.Turns
import Highlighter.Proofs.Command.Updating
import Highlighter.Proofs.Config.Trips
import Highlighter.Proofs.Decimal.ReadingBack
import Highlighter.Proofs.Files.Links
import Highlighter.Proofs.Files.Paths
import Highlighter.Proofs.Files.Unlinked
import Highlighter.Proofs.Files.Writing
import Highlighter.Proofs.Grammar.BackReference
import Highlighter.Proofs.Grammar.Blame
import Highlighter.Proofs.Grammar.Census
import Highlighter.Proofs.Grammar.ContentName
import Highlighter.Proofs.Grammar.Coverage
import Highlighter.Proofs.Grammar.Document
import Highlighter.Proofs.Grammar.EngineContract
import Highlighter.Proofs.Grammar.Fitting
import Highlighter.Proofs.Grammar.GroupScopes
import Highlighter.Proofs.Grammar.History
import Highlighter.Proofs.Grammar.Homes
import Highlighter.Proofs.Grammar.Includes
import Highlighter.Proofs.Grammar.Layers
import Highlighter.Proofs.Grammar.Lockstep
import Highlighter.Proofs.Grammar.Looping
import Highlighter.Proofs.Grammar.Memory
import Highlighter.Proofs.Grammar.Nesting
import Highlighter.Proofs.Grammar.OpenRules
import Highlighter.Proofs.Grammar.Outcome
import Highlighter.Proofs.Grammar.Overlap
import Highlighter.Proofs.Grammar.Priority
import Highlighter.Proofs.Grammar.Reachability
import Highlighter.Proofs.Grammar.Readable
import Highlighter.Proofs.Grammar.Readiness
import Highlighter.Proofs.Grammar.Record
import Highlighter.Proofs.Grammar.Replay
import Highlighter.Proofs.Grammar.RuleIds
import Highlighter.Proofs.Grammar.Scopes
import Highlighter.Proofs.Grammar.Script
import Highlighter.Proofs.Grammar.Selection
import Highlighter.Proofs.Grammar.Standing
import Highlighter.Proofs.Grammar.Starting
import Highlighter.Proofs.Grammar.Stopping
import Highlighter.Proofs.Grammar.Termination
import Highlighter.Proofs.Grammar.Tiling
import Highlighter.Proofs.Grammar.Trips
import Highlighter.Proofs.Json.Agreement
import Highlighter.Proofs.Json.Compact
import Highlighter.Proofs.Json.Derivation
import Highlighter.Proofs.Json.Numbers
import Highlighter.Proofs.Json.Pieces
import Highlighter.Proofs.Json.Printing
import Highlighter.Proofs.Json.Reading
import Highlighter.Proofs.Json.Spacing
import Highlighter.Proofs.Page.Gaps
import Highlighter.Proofs.Page.Marks
import Highlighter.Proofs.Page.Reading
import Highlighter.Proofs.Page.Showing
import Highlighter.Proofs.Pattern.PlainText
import Highlighter.Proofs.Protocol.Answering
import Highlighter.Proofs.Protocol.Asking
import Highlighter.Proofs.Protocol.Calling
import Highlighter.Proofs.Protocol.Consumption
import Highlighter.Proofs.Protocol.Correlation
import Highlighter.Proofs.Protocol.Framing
import Highlighter.Proofs.Protocol.Interleaving
import Highlighter.Proofs.Protocol.Parting
import Highlighter.Proofs.Protocol.Receiving
import Highlighter.Proofs.Protocol.StreamEnd
import Highlighter.Proofs.Run.Damage
import Highlighter.Proofs.Run.Degrading
import Highlighter.Proofs.Run.Delivery
import Highlighter.Proofs.Run.Highlighting
import Highlighter.Proofs.Run.Likeness
import Highlighter.Proofs.Run.Repetition
import Highlighter.Proofs.Run.Startup
import Highlighter.Proofs.Run.Verification
import Highlighter.Proofs.Semantic.Columns
import Highlighter.Proofs.Semantic.Encoding
import Highlighter.Proofs.Slips
import Highlighter.Proofs.Snapshot.Conversion
import Highlighter.Proofs.Snapshot.RoundTrip
import Highlighter.Proofs.Snapshot.Validation
import Highlighter.Proofs.Styling.Boundaries
import Highlighter.Proofs.Styling.Coloring
import Highlighter.Proofs.Styling.EntryColors
import Highlighter.Proofs.Styling.Pairing
import Highlighter.Proofs.Styling.Partition
import Highlighter.Proofs.Styling.Precedence
import Highlighter.Proofs.Styling.Runs
import Highlighter.Proofs.Text.Encoding
import Highlighter.Proofs.Text.Numerals
import Highlighter.Proofs.Theme.Inclusion
import Highlighter.Proofs.Theme.Matching
import Highlighter.Proofs.Theme.Relaxed
import Highlighter.Proofs.Theme.Trips
import Highlighter.PropertyList.Binary
import Highlighter.PropertyList.Fault
import Highlighter.PropertyList.Reader
import Highlighter.PropertyList.Scalar
import Highlighter.Protocol.Client
import Highlighter.Protocol.Conversation
import Highlighter.Protocol.Frame
import Highlighter.Protocol.Script
import Highlighter.Protocol.Tokens
import Highlighter.Run.Delivery
import Highlighter.Run.Session
import Highlighter.Semantic.Span
import Highlighter.Snapshot.Entry
import Highlighter.Snapshot.File
import Highlighter.Styling.Bracket
import Highlighter.Styling.Overlay
import Highlighter.Styling.Resolution
import Highlighter.Styling.Run
import Highlighter.Text.Blank
import Highlighter.Text.Encoding
import Highlighter.Text.Lines
import Highlighter.Text.Number
import Highlighter.Text.Quoted
import Highlighter.Theme.Basic
import Highlighter.Theme.Loading
import Highlighter.Theme.Location
import Highlighter.Theme.Matching
import Highlighter.Toml.Number
import Highlighter.Toml.Reader
import Highlighter.Toml.Text
import Highlighter.Toml.Value
import Highlighter.Unicode.Block
import Highlighter.Unicode.CaseFolding
import Highlighter.Unicode.Category
import Highlighter.Unicode.CodeSet
import Highlighter.Unicode.Property
import Highlighter.Unicode.Script
import Highlighter.Unicode.Segment
import Highlighter.Validation.Issue
import Highlighter.Validation.Number
