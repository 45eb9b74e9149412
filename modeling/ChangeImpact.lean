import ChangeImpact.Analysis.Failure
import ChangeImpact.Analysis.Run
import ChangeImpact.Change.ChangeSet
import ChangeImpact.Change.Diff
import ChangeImpact.Change.Git
import ChangeImpact.CommandLine.Arguments
import ChangeImpact.CommandLine.Command
import ChangeImpact.CommandLine.Run
import ChangeImpact.Console.Block
import ChangeImpact.Console.Control
import ChangeImpact.Console.Literal
import ChangeImpact.Console.Markup
import ChangeImpact.Console.Pictograph
import ChangeImpact.Console.Show
import ChangeImpact.Console.Style
import ChangeImpact.Decimal.Binary64
import ChangeImpact.Decimal.Digits
import ChangeImpact.Decimal.Shortest
import ChangeImpact.Evidence.Coverage
import ChangeImpact.Evidence.TestName
import ChangeImpact.Graph.Basic
import ChangeImpact.Graph.Build
import ChangeImpact.Graph.Impact
import ChangeImpact.Imports.EcmaScript
import ChangeImpact.Imports.Extractor
import ChangeImpact.Imports.Go
import ChangeImpact.Imports.Python
import ChangeImpact.Imports.Resolver
import ChangeImpact.Imports.Scan
import ChangeImpact.Imports.Specifier
import ChangeImpact.Json.Basic
import ChangeImpact.Json.Checked
import ChangeImpact.Json.Encoded
import ChangeImpact.Json.Reader
import ChangeImpact.Json.Shown
import ChangeImpact.Json.Spelling
import ChangeImpact.Json.Writer
import ChangeImpact.Main
import ChangeImpact.Path.Basic
import ChangeImpact.Path.Loose
import ChangeImpact.Proofs.Analysis.Answers
import ChangeImpact.Proofs.Analysis.Consistent
import ChangeImpact.Proofs.Analysis.Refusal
import ChangeImpact.Proofs.Change.Added
import ChangeImpact.Proofs.Change.Faithful
import ChangeImpact.Proofs.Change.Headed
import ChangeImpact.Proofs.Change.Joined
import ChangeImpact.Proofs.Change.Kept
import ChangeImpact.Proofs.Change.Listed
import ChangeImpact.Proofs.Change.Modified
import ChangeImpact.Proofs.Change.Output
import ChangeImpact.Proofs.Change.Readable
import ChangeImpact.Proofs.Change.Reading
import ChangeImpact.Proofs.Change.Sections
import ChangeImpact.Proofs.Change.Sources
import ChangeImpact.Proofs.Change.Written
import ChangeImpact.Proofs.Console.Labels
import ChangeImpact.Proofs.Console.Names
import ChangeImpact.Proofs.Console.Pieces
import ChangeImpact.Proofs.Console.Printed
import ChangeImpact.Proofs.Console.Shown
import ChangeImpact.Proofs.Data.Entries
import ChangeImpact.Proofs.Data.Results
import ChangeImpact.Proofs.Data.Spans
import ChangeImpact.Proofs.Decimal.Binary64
import ChangeImpact.Proofs.Evidence.Agreement
import ChangeImpact.Proofs.Evidence.Consistent
import ChangeImpact.Proofs.Evidence.Convention
import ChangeImpact.Proofs.Evidence.Extended
import ChangeImpact.Proofs.Evidence.Listed
import ChangeImpact.Proofs.Evidence.Percent
import ChangeImpact.Proofs.Evidence.Placed
import ChangeImpact.Proofs.Evidence.Recognised
import ChangeImpact.Proofs.Evidence.Relation
import ChangeImpact.Proofs.Graph.Affected
import ChangeImpact.Proofs.Graph.Built
import ChangeImpact.Proofs.Graph.Counted
import ChangeImpact.Proofs.Graph.Distance
import ChangeImpact.Proofs.Graph.Edges
import ChangeImpact.Proofs.Graph.Lists
import ChangeImpact.Proofs.Graph.Observed
import ChangeImpact.Proofs.Graph.Package
import ChangeImpact.Proofs.Graph.Search
import ChangeImpact.Proofs.Graph.Workers
import ChangeImpact.Proofs.Imports.Candidates
import ChangeImpact.Proofs.Imports.Dotted
import ChangeImpact.Proofs.Imports.Forms
import ChangeImpact.Proofs.Imports.Go.Entries
import ChangeImpact.Proofs.Imports.Go.Grammar
import ChangeImpact.Proofs.Imports.Go.Program
import ChangeImpact.Proofs.Imports.Inside
import ChangeImpact.Proofs.Imports.LineEnds
import ChangeImpact.Proofs.Imports.Located
import ChangeImpact.Proofs.Imports.Program
import ChangeImpact.Proofs.Imports.Python.Grammar
import ChangeImpact.Proofs.Imports.Python.Lines
import ChangeImpact.Proofs.Imports.Python.Members
import ChangeImpact.Proofs.Imports.Python.Modules
import ChangeImpact.Proofs.Imports.Python.Ordered
import ChangeImpact.Proofs.Imports.Python.Program
import ChangeImpact.Proofs.Imports.Relative
import ChangeImpact.Proofs.Imports.Scanning
import ChangeImpact.Proofs.Imports.Segments
import ChangeImpact.Proofs.Imports.Shifted
import ChangeImpact.Proofs.Imports.Statement
import ChangeImpact.Proofs.Json.Checking
import ChangeImpact.Proofs.Json.Grammar
import ChangeImpact.Proofs.Json.Payload
import ChangeImpact.Proofs.Json.Reading
import ChangeImpact.Proofs.Json.Spellable
import ChangeImpact.Proofs.Json.Tokens
import ChangeImpact.Proofs.Json.Writing
import ChangeImpact.Proofs.Path.Climbing
import ChangeImpact.Proofs.Path.Destination
import ChangeImpact.Proofs.Path.Named
import ChangeImpact.Proofs.Path.Order
import ChangeImpact.Proofs.Path.Parts
import ChangeImpact.Proofs.Report.Grown
import ChangeImpact.Proofs.Report.ReadBack
import ChangeImpact.Proofs.Repository.Stored
import ChangeImpact.Proofs.Risk.Accounted
import ChangeImpact.Proofs.Risk.Assessed
import ChangeImpact.Proofs.Risk.Brackets
import ChangeImpact.Proofs.Risk.Calls
import ChangeImpact.Proofs.Risk.DroppedAwaits
import ChangeImpact.Proofs.Risk.Fallback
import ChangeImpact.Proofs.Risk.Fragments
import ChangeImpact.Proofs.Risk.Joined
import ChangeImpact.Proofs.Risk.Levels
import ChangeImpact.Proofs.Risk.PlainTexts
import ChangeImpact.Proofs.Risk.Pointed
import ChangeImpact.Proofs.Risk.Reindented
import ChangeImpact.Proofs.Risk.Rendered
import ChangeImpact.Proofs.Risk.Reordered
import ChangeImpact.Proofs.Risk.Standard
import ChangeImpact.Proofs.Risk.Subscripts
import ChangeImpact.Proofs.Risk.TableFile
import ChangeImpact.Proofs.Server.Correspondence
import ChangeImpact.Proofs.Server.Framing
import ChangeImpact.Proofs.Server.Headers
import ChangeImpact.Proofs.Server.Survival
import ChangeImpact.Proofs.Server.Untold
import ChangeImpact.Proofs.Settings.Checked
import ChangeImpact.Proofs.Settings.Fields
import ChangeImpact.Proofs.Settings.Runs
import ChangeImpact.Proofs.Source.Listing
import ChangeImpact.Proofs.Source.Tree
import ChangeImpact.Proofs.Source.Truncated
import ChangeImpact.Proofs.Source.Walk
import ChangeImpact.Proofs.Template.Fields
import ChangeImpact.Proofs.Template.Grammar
import ChangeImpact.Proofs.Template.Mentions
import ChangeImpact.Proofs.Template.Verbatim
import ChangeImpact.Proofs.Text.Integer
import ChangeImpact.Proofs.Text.Lines
import ChangeImpact.Proofs.Text.Loose
import ChangeImpact.Proofs.Text.Returns
import ChangeImpact.Proofs.Text.Strip
import ChangeImpact.Proofs.Text.Subparts
import ChangeImpact.Proofs.Text.Utf8
import ChangeImpact.Proofs.Text.Words
import ChangeImpact.Report.Basic
import ChangeImpact.Report.Fields
import ChangeImpact.Report.FileTree
import ChangeImpact.Report.Markdown
import ChangeImpact.Report.Plain
import ChangeImpact.Repository.Basic
import ChangeImpact.Repository.Stored
import ChangeImpact.Risk.Assess
import ChangeImpact.Risk.Rules
import ChangeImpact.Risk.StandardRules
import ChangeImpact.Risk.TableFile
import ChangeImpact.Risk.Warning
import ChangeImpact.Server.Frame
import ChangeImpact.Server.Session
import ChangeImpact.Server.Tools
import ChangeImpact.Settings
import ChangeImpact.Source.Language
import ChangeImpact.Source.Limits
import ChangeImpact.Source.Listing
import ChangeImpact.Source.Tree
import ChangeImpact.Template.Kind
import ChangeImpact.Template.Layout
import ChangeImpact.Template.Member
import ChangeImpact.Template.Render
import ChangeImpact.Text.Alphanumeric
import ChangeImpact.Text.CaseTables
import ChangeImpact.Text.CellWidth
import ChangeImpact.Text.Character
import ChangeImpact.Text.Integer
import ChangeImpact.Text.LooseText
import ChangeImpact.Text.LowerCase
import ChangeImpact.Text.Quoted
import ChangeImpact.Text.Ranges
import ChangeImpact.Text.Split
import ChangeImpact.Text.Unprintable
import ChangeImpact.Text.Utf8
