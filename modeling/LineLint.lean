import LineLint.Code.Block
import LineLint.Code.Block.Batches
import LineLint.Code.Block.Braces
import LineLint.Code.Block.Keywords
import LineLint.Code.Comment
import LineLint.Code.Header
import LineLint.Code.Header.CSharp
import LineLint.Code.Header.TransactSql
import LineLint.Code.Header.VisualBasic
import LineLint.Code.Nesting
import LineLint.CommandLine.Argument
import LineLint.CommandLine.ConfigFile
import LineLint.CommandLine.Display
import LineLint.CommandLine.Failure
import LineLint.CommandLine.FileTree
import LineLint.CommandLine.Invocation
import LineLint.CommandLine.Listing
import LineLint.CommandLine.Run
import LineLint.CommandLine.Starter
import LineLint.CommandLine.World
import LineLint.Config
import LineLint.Data.Binary
import LineLint.Data.Decimal
import LineLint.Data.Numeral
import LineLint.Data.Table
import LineLint.Data.Value
import LineLint.Detection
import LineLint.Dialect
import LineLint.Intent
import LineLint.Issue
import LineLint.Json.Number
import LineLint.Json.Reader
import LineLint.Json.Writer
import LineLint.Main
import LineLint.Pattern.Basic
import LineLint.Pattern.Find
import LineLint.Pattern.Vocabulary
import LineLint.Preset
import LineLint.Proofs.Alias.Links
import LineLint.Proofs.Alias.References
import LineLint.Proofs.Block.Batches
import LineLint.Proofs.Block.Boundary
import LineLint.Proofs.Block.BraceDeltas
import LineLint.Proofs.Block.BraceGroups
import LineLint.Proofs.Block.Braces
import LineLint.Proofs.Block.Composition
import LineLint.Proofs.Block.Depth
import LineLint.Proofs.Block.Keywords
import LineLint.Proofs.Block.Kind
import LineLint.Proofs.Block.Layout
import LineLint.Proofs.Block.Procedures
import LineLint.Proofs.Block.Reading
import LineLint.Proofs.Block.Transactions
import LineLint.Proofs.Checked.Blocks
import LineLint.Proofs.Checked.Headers
import LineLint.Proofs.Checked.Matches
import LineLint.Proofs.Checked.Names
import LineLint.Proofs.Checked.Reads
import LineLint.Proofs.Checked.Review
import LineLint.Proofs.Checked.Rules
import LineLint.Proofs.Checked.Texts
import LineLint.Proofs.CommandLine.Check
import LineLint.Proofs.CommandLine.Display
import LineLint.Proofs.CommandLine.Loading
import LineLint.Proofs.Json.RoundTrip
import LineLint.Proofs.Json.Scalars
import LineLint.Proofs.Layout.Blocks
import LineLint.Proofs.Layout.Gaps
import LineLint.Proofs.Layout.Headers
import LineLint.Proofs.Layout.LineTable
import LineLint.Proofs.Layout.Lines
import LineLint.Proofs.Layout.Literals
import LineLint.Proofs.Layout.Names
import LineLint.Proofs.Layout.Patterns
import LineLint.Proofs.Layout.Review
import LineLint.Proofs.Layout.Rules
import LineLint.Proofs.Layout.Spaces
import LineLint.Proofs.Layout.Summary
import LineLint.Proofs.LetterCase.Blocks
import LineLint.Proofs.LetterCase.Headers
import LineLint.Proofs.LetterCase.Letters
import LineLint.Proofs.LetterCase.Literals
import LineLint.Proofs.LetterCase.Names
import LineLint.Proofs.LetterCase.Patterns
import LineLint.Proofs.LetterCase.Review
import LineLint.Proofs.LetterCase.Rules
import LineLint.Proofs.LetterCase.Sigmas
import LineLint.Proofs.LetterCase.Texts
import LineLint.Proofs.Literal.Comments
import LineLint.Proofs.Literal.Numbers
import LineLint.Proofs.Literal.Places
import LineLint.Proofs.Literal.Strings
import LineLint.Proofs.Pattern.Beginnings
import LineLint.Proofs.Pattern.Choices
import LineLint.Proofs.Pattern.Keywords
import LineLint.Proofs.Pattern.Marks
import LineLint.Proofs.Pattern.Progress
import LineLint.Proofs.Pattern.Runs
import LineLint.Proofs.Pattern.Stretches
import LineLint.Proofs.Pattern.Sweep
import LineLint.Proofs.Pattern.Trailers
import LineLint.Proofs.Pattern.Transport
import LineLint.Proofs.Pattern.WholeWords
import LineLint.Proofs.Pattern.Words
import LineLint.Proofs.Report.Aliases
import LineLint.Proofs.Report.Anchors
import LineLint.Proofs.Report.CommentedHeaders
import LineLint.Proofs.Report.CutOff
import LineLint.Proofs.Report.Declarations
import LineLint.Proofs.Report.Kinds
import LineLint.Proofs.Report.Literals
import LineLint.Proofs.Report.LoopCounters
import LineLint.Proofs.Report.Modifiers
import LineLint.Proofs.Report.Mutations
import LineLint.Proofs.Report.NameFindings
import LineLint.Proofs.Report.NameParts
import LineLint.Proofs.Report.Order
import LineLint.Proofs.Report.Parameters
import LineLint.Proofs.Report.Routines
import LineLint.Proofs.Report.Surroundings
import LineLint.Proofs.Report.Terminators
import LineLint.Proofs.Report.TrailingComments
import LineLint.Proofs.Review.Locality
import LineLint.Proofs.Review.Registration
import LineLint.Proofs.Review.Schedule
import LineLint.Proofs.Review.Seams
import LineLint.Proofs.Review.Views
import LineLint.Proofs.Sentence.Capitals
import LineLint.Proofs.Sentence.Form
import LineLint.Proofs.Text.NameRuns
import LineLint.Proofs.Unbroken.Names
import LineLint.Proofs.Unbroken.Parts
import LineLint.Proofs.Unbroken.Review
import LineLint.Proofs.Unbroken.Rules
import LineLint.Proofs.Wire.Report
import LineLint.Review
import LineLint.Rule.Basic
import LineLint.Rule.Branching
import LineLint.Rule.Catalog
import LineLint.Rule.Line
import LineLint.Rule.LoanTerms
import LineLint.Rule.MissingEnd
import LineLint.Rule.Naming
import LineLint.Rule.RepeatedLiteral
import LineLint.Rule.Structure
import LineLint.Sentence
import LineLint.Severity
import LineLint.Snippet
import LineLint.Text.Case
import LineLint.Text.CaseTable
import LineLint.Text.Digit
import LineLint.Text.Lines
import LineLint.Text.Ranges
import LineLint.Text.Search
import LineLint.Text.Space
import LineLint.Text.WordChar
import LineLint.Toml.Reader
import LineLint.Toml.Scalar
import LineLint.Toml.Text
import LineLint.Toml.Tree
import LineLint.Wire.Choice
import LineLint.Wire.Config
import LineLint.Wire.Fault
import LineLint.Wire.Report
import LineLint.Proofs.CommandLine.Loading
