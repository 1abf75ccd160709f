import MailMarkup.Attribute
import MailMarkup.Duration
import MailMarkup.Batch.Rendering
import MailMarkup.Batch.Result
import MailMarkup.Batch.Run
import MailMarkup.Cache.Basic
import MailMarkup.Cache.Policy
import MailMarkup.Client
import MailMarkup.CommandLine.Arguments
import MailMarkup.CommandLine.Reader
import MailMarkup.Compatibility
import MailMarkup.Configuration.Basic
import MailMarkup.Configuration.Data
import MailMarkup.Configuration.Environment
import MailMarkup.Configuration.Load
import MailMarkup.Data.Datum
import MailMarkup.Data.Decode
import MailMarkup.Data.Json
import MailMarkup.Data.Toml.Document
import MailMarkup.Data.Toml.Quoted
import MailMarkup.Data.Toml.Scalar
import MailMarkup.Data.Toml.Table
import MailMarkup.Decimal.Binary
import MailMarkup.Decimal.Fixed
import MailMarkup.Decimal.Read
import MailMarkup.Decimal.Shortest
import MailMarkup.Document.Index
import MailMarkup.Document.Limits
import MailMarkup.Document.Node
import MailMarkup.Document.Reader
import MailMarkup.Engine.Basic
import MailMarkup.Error
import MailMarkup.Files.Discovery
import MailMarkup.Files.Glob
import MailMarkup.Files.Path
import MailMarkup.Files.Tree
import MailMarkup.Finding
import MailMarkup.Pattern.Automaton
import MailMarkup.Pattern.Basic
import MailMarkup.Pattern.Expr
import MailMarkup.Pattern.Fault
import MailMarkup.Pattern.Graph
import MailMarkup.Pattern.Search
import MailMarkup.Pattern.Source.Bracket
import MailMarkup.Pattern.Source.Escape
import MailMarkup.Pattern.Source.Reader
import MailMarkup.Pattern.Source.State
import MailMarkup.Program
import MailMarkup.Repair.History
import MailMarkup.Repair.Run
import MailMarkup.Repair.Sequence
import MailMarkup.Repair.Soundness
import MailMarkup.Report
import MailMarkup.Rule.Basic
import MailMarkup.Rule.Custom
import MailMarkup.Rule.DuplicateStyle
import MailMarkup.Rule.Forbidden
import MailMarkup.Rule.LinkText
import MailMarkup.Rule.Malformed
import MailMarkup.Rule.Missing
import MailMarkup.Rule.Registry
import MailMarkup.Rule.Script
import MailMarkup.Rule.Support
import MailMarkup.Rule.TableNesting
import MailMarkup.Rule.TagFormat
import MailMarkup.Rule.Tags
import MailMarkup.Rule.Task
import MailMarkup.Rule.Tidy
import MailMarkup.Rule.Weight
import MailMarkup.Scoring
import MailMarkup.Settings.Basic
import MailMarkup.Settings.Data
import MailMarkup.Severity
import MailMarkup.Style
import MailMarkup.Text.Age
import MailMarkup.Text.Basic
import MailMarkup.Text.Boundary
import MailMarkup.Text.Category
import MailMarkup.Text.CharSet
import MailMarkup.Text.Cursor
import MailMarkup.Text.Fold
import MailMarkup.Text.Property
import MailMarkup.Text.Script
import MailMarkup.Text.Word
import MailMarkup.Main
import MailMarkup.Proofs.Cache.Contents
import MailMarkup.Proofs.Rule.Evaluation
import MailMarkup.Proofs.Engine.HistoryIndependence
import MailMarkup.Proofs.Engine.Sections
import MailMarkup.Proofs.Text.Search
import MailMarkup.Proofs.Repair.Judgement
import MailMarkup.Proofs.Decimal.Truncation
import MailMarkup.Proofs.Repair.Safety
import MailMarkup.Proofs.Repair.FixedPoint
import MailMarkup.Proofs.Document.Queries
import MailMarkup.Proofs.Document.Canonical
import MailMarkup.Proofs.Document.RoundTrip
import MailMarkup.Proofs.Document.Round
import MailMarkup.Proofs.Document.Work
import MailMarkup.Proofs.Document.Nesting
import MailMarkup.Proofs.Document.Positions
import MailMarkup.Proofs.Pattern.Path
import MailMarkup.Proofs.Pattern.Ways
import MailMarkup.Proofs.Pattern.Leads
import MailMarkup.Proofs.Pattern.Leftmost
import MailMarkup.Proofs.Pattern.Replace
import MailMarkup.Proofs.Pattern.Written
import MailMarkup.Proofs.Rule.Sanitizing
import MailMarkup.Proofs.Pattern.Spelling
import MailMarkup.Proofs.Batch.Interleaving
import MailMarkup.Proofs.Engine.Consistency
import MailMarkup.Proofs.Files.Places
import MailMarkup.Proofs.Batch.Scheduling
import MailMarkup.Proofs.Document.Attributes
import MailMarkup.Proofs.Document.Ceilings
import MailMarkup.Proofs.Pattern.Alternatives
import MailMarkup.Proofs.Pattern.Rewriting
import MailMarkup.Proofs.Rule.TagPatterns
import MailMarkup.Proofs.Document.Styles
import MailMarkup.Proofs.Document.Plain
import MailMarkup.Proofs.Rule.Spans
import MailMarkup.Proofs.Rule.Registration
import MailMarkup.Proofs.Decimal.Order
import MailMarkup.Proofs.Cache.Bound
import MailMarkup.Proofs.Cache.Accounting
import MailMarkup.Proofs.Document.Twins
import MailMarkup.Proofs.Document.Shape
import MailMarkup.Proofs.Document.Siblings
import MailMarkup.Proofs.Document.StyleAlgebra
import MailMarkup.Proofs.Document.Transplant
import MailMarkup.Proofs.Rule.WrapperTables
import MailMarkup.Proofs.Pattern.Preference
import MailMarkup.Proofs.Rule.AddressPattern
import MailMarkup.Proofs.Rule.ScriptAddresses
import MailMarkup.Proofs.Document.AttributeText
import MailMarkup.Proofs.Rule.OpeningTags
import MailMarkup.Proofs.Rule.AnyOpening
import MailMarkup.Proofs.Rule.MalformedAttributes
import MailMarkup.Proofs.Document.AttributeTable
import MailMarkup.Proofs.Document.EditedReading
import MailMarkup.Proofs.Rule.FilledAttributes
import MailMarkup.Proofs.Rule.QuotedAttributes
import MailMarkup.Proofs.Document.Declarations
import MailMarkup.Proofs.Rule.ConvertedTags
import MailMarkup.Proofs.Rule.EventHandlers
import MailMarkup.Proofs.Rule.MergedStyles
import MailMarkup.Proofs.Rule.SplicedTables
import MailMarkup.Proofs.Repair.Sequence
import MailMarkup.Proofs.Document.Headings
import MailMarkup.Proofs.Document.Endings
import MailMarkup.Proofs.Rule.NestedTables
import MailMarkup.Proofs.Decimal.Exact
import MailMarkup.Proofs.Decimal.Special
import MailMarkup.Proofs.Report.Scores
import MailMarkup.Proofs.Rule.WideWidths
import MailMarkup.Proofs.Rule.UnsafeTags
import MailMarkup.Proofs.Files.Ordering
import MailMarkup.Proofs.Files.Steps
import MailMarkup.Proofs.Files.Discovered
import MailMarkup.Proofs.Files.Growth
import MailMarkup.Proofs.Batch.Copies
