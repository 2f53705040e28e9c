import PseudocodeLexer.CommandLine.Arguments
import PseudocodeLexer.CommandLine.Run
import PseudocodeLexer.Comment
import PseudocodeLexer.Config
import PseudocodeLexer.Fault
import PseudocodeLexer.Json.Failure
import PseudocodeLexer.Json.Number
import PseudocodeLexer.Json.Reader
import PseudocodeLexer.Json.Record
import PseudocodeLexer.Json.Skip
import PseudocodeLexer.Json.String
import PseudocodeLexer.Json.Symbol
import PseudocodeLexer.Json.Value
import PseudocodeLexer.Json.Writer
import PseudocodeLexer.Keyword.Control
import PseudocodeLexer.Keyword.DataType
import PseudocodeLexer.Keyword.InputOutput
import PseudocodeLexer.Keyword.Vocabulary
import PseudocodeLexer.Main
import PseudocodeLexer.Metadata
import PseudocodeLexer.Number.Binary64
import PseudocodeLexer.Number.Numeral
import PseudocodeLexer.Number.Scale
import PseudocodeLexer.Number.Shortest
import PseudocodeLexer.NumericLiteral
import PseudocodeLexer.Proofs.Arguments
import PseudocodeLexer.Proofs.Blanks
import PseudocodeLexer.Proofs.ByteOffsets
import PseudocodeLexer.Proofs.Characters
import PseudocodeLexer.Proofs.CommentMarks
import PseudocodeLexer.Proofs.CommentedOut
import PseudocodeLexer.Proofs.Comments
import PseudocodeLexer.Proofs.ConfigDocuments
import PseudocodeLexer.Proofs.Cutting
import PseudocodeLexer.Proofs.Delimited
import PseudocodeLexer.Proofs.DisplayedSpans
import PseudocodeLexer.Proofs.Documents
import PseudocodeLexer.Proofs.EditedConfig
import PseudocodeLexer.Proofs.ExchangedText
import PseudocodeLexer.Proofs.Identifier
import PseudocodeLexer.Proofs.KeywordKinds
import PseudocodeLexer.Proofs.LineEnds
import PseudocodeLexer.Proofs.Lines
import PseudocodeLexer.Proofs.LongestWord
import PseudocodeLexer.Proofs.MixedLineEnds
import PseudocodeLexer.Proofs.Names
import PseudocodeLexer.Proofs.NextToken
import PseudocodeLexer.Proofs.NumberValues
import PseudocodeLexer.Proofs.Opening
import PseudocodeLexer.Proofs.Outcomes
import PseudocodeLexer.Proofs.Positions
import PseudocodeLexer.Proofs.PrintedLines
import PseudocodeLexer.Proofs.QuotedText
import PseudocodeLexer.Proofs.ReadRecords
import PseudocodeLexer.Proofs.ReadValues
import PseudocodeLexer.Proofs.Respacing
import PseudocodeLexer.Proofs.Respelling
import PseudocodeLexer.Proofs.RestoredLines
import PseudocodeLexer.Proofs.RuleOrder
import PseudocodeLexer.Proofs.Runs
import PseudocodeLexer.Proofs.Scalars
import PseudocodeLexer.Proofs.Serialization
import PseudocodeLexer.Proofs.SeveralFiles
import PseudocodeLexer.Proofs.SignRuns
import PseudocodeLexer.Proofs.SkippedValues
import PseudocodeLexer.Proofs.Spacing
import PseudocodeLexer.Proofs.SpanRecords
import PseudocodeLexer.Proofs.SpelledStrings
import PseudocodeLexer.Proofs.Stops
import PseudocodeLexer.Proofs.StringPieces
import PseudocodeLexer.Proofs.StringSpelling
import PseudocodeLexer.Proofs.Unclassified
import PseudocodeLexer.Proofs.WholeWord
import PseudocodeLexer.Proofs.WordRuns
import PseudocodeLexer.Proofs.WrittenRecords
import PseudocodeLexer.Proofs.WrittenValues
import PseudocodeLexer.StringLiteral
import PseudocodeLexer.Symbol
import PseudocodeLexer.Text.Alphabetic
import PseudocodeLexer.Text.Basic
import PseudocodeLexer.Text.Blank
import PseudocodeLexer.Text.CodeRanges
import PseudocodeLexer.Text.GraphemeExtend
import PseudocodeLexer.Text.Lines
import PseudocodeLexer.Text.Numeric
import PseudocodeLexer.Text.Quoted
import PseudocodeLexer.Text.Unprintable
import PseudocodeLexer.Token.Basic
import PseudocodeLexer.Token.Kind
import PseudocodeLexer.Token.Rule
import PseudocodeLexer.Token.Scan
import PseudocodeLexer.Token.Span
import PseudocodeLexer.Word
