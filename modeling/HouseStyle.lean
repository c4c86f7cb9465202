import HouseStyle.Batch
import HouseStyle.Check
import HouseStyle.ClassName
import HouseStyle.Command
import HouseStyle.Command.Arguments
import HouseStyle.Decimal.Binary64
import HouseStyle.Decimal.Shortest
import HouseStyle.Declaration
import HouseStyle.Diagnostic
import HouseStyle.Main
import HouseStyle.Options
import HouseStyle.Options.Mapping
import HouseStyle.Path
import HouseStyle.Proofs.Addresses
import HouseStyle.Proofs.Adjacency
import HouseStyle.Proofs.Advice
import HouseStyle.Proofs.Blanks
import HouseStyle.Proofs.Braces
import HouseStyle.Proofs.Brackets
import HouseStyle.Proofs.Calls
import HouseStyle.Proofs.ClassPlaces
import HouseStyle.Proofs.CleanOrder
import HouseStyle.Proofs.Colors
import HouseStyle.Proofs.Commentary
import HouseStyle.Proofs.Completion
import HouseStyle.Proofs.Configurations
import HouseStyle.Proofs.Consolidation
import HouseStyle.Proofs.Containment
import HouseStyle.Proofs.Declared
import HouseStyle.Proofs.Duplicates
import HouseStyle.Proofs.Entries
import HouseStyle.Proofs.Extents
import HouseStyle.Proofs.Faithful
import HouseStyle.Proofs.Fetching
import HouseStyle.Proofs.Fields
import HouseStyle.Proofs.Findings
import HouseStyle.Proofs.Flags
import HouseStyle.Proofs.Forests
import HouseStyle.Proofs.Grammar
import HouseStyle.Proofs.Indentation
import HouseStyle.Proofs.Inherited
import HouseStyle.Proofs.Ink
import HouseStyle.Proofs.LineEnds
import HouseStyle.Proofs.LineFeeds
import HouseStyle.Proofs.LineRestart
import HouseStyle.Proofs.Locality
import HouseStyle.Proofs.LooseClasses
import HouseStyle.Proofs.Merging
import HouseStyle.Proofs.Outline
import HouseStyle.Proofs.Owners
import HouseStyle.Proofs.Paths
import HouseStyle.Proofs.Picked
import HouseStyle.Proofs.Positions
import HouseStyle.Proofs.Preorder
import HouseStyle.Proofs.Quotes
import HouseStyle.Proofs.RecordedTexts
import HouseStyle.Proofs.Rejections
import HouseStyle.Proofs.Remembered
import HouseStyle.Proofs.ReportLaws
import HouseStyle.Proofs.Runs
import HouseStyle.Proofs.Selection
import HouseStyle.Proofs.SelectorLanguage
import HouseStyle.Proofs.SelectorLists
import HouseStyle.Proofs.Separation
import HouseStyle.Proofs.Standing
import HouseStyle.Proofs.Structural
import HouseStyle.Proofs.Suffixes
import HouseStyle.Proofs.Taxonomy
import HouseStyle.Proofs.Terminals
import HouseStyle.Proofs.Texts
import HouseStyle.Proofs.Thresholds
import HouseStyle.Proofs.TokenPlaces
import HouseStyle.Proofs.Trimming
import HouseStyle.Proofs.Walk
import HouseStyle.Proofs.Zeros
import HouseStyle.PropertyGroup
import HouseStyle.Report
import HouseStyle.Report.Live
import HouseStyle.Rule
import HouseStyle.Rule.Blocks
import HouseStyle.Rule.ClassNaming
import HouseStyle.Rule.CommentShape
import HouseStyle.Rule.DeclarationOrder
import HouseStyle.Rule.Finding
import HouseStyle.Rule.Layout
import HouseStyle.Rule.Values
import HouseStyle.RuleId
import HouseStyle.Selector
import HouseStyle.Selector.Attribute
import HouseStyle.Selector.Reader
import HouseStyle.Selector.Terminal
import HouseStyle.Severity
import HouseStyle.Stylesheet
import HouseStyle.Stylesheet.Forest
import HouseStyle.Stylesheet.Nesting
import HouseStyle.Stylesheet.Statement
import HouseStyle.Text
import HouseStyle.Text.Capitals
import HouseStyle.Text.CodePoint
import HouseStyle.Text.ControlSequence
import HouseStyle.Text.Digit
import HouseStyle.Text.Glob
import HouseStyle.Text.Lines
import HouseStyle.Text.Lowercase
import HouseStyle.Text.Printable
import HouseStyle.Text.Quoted
import HouseStyle.Text.Utf8
import HouseStyle.Token
import HouseStyle.Token.Lexeme
import HouseStyle.Token.Stream
import HouseStyle.Value
import HouseStyle.Value.Json
