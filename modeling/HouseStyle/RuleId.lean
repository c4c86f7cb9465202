/-
HouseStyle.RuleId — the closed list of findings that can be reported.

Every finding carries one of these identifiers. An identifier is given by its name
(`BraceSpacing`) or by its constant (`BRACE_SPACING`); only the constant may be written in any case.
-/
import HouseStyle.Text.Capitals
import HouseStyle.Text.CodePoint

namespace HouseStyle

/-- What a rule is about. -/
inductive Category where
  | wellFormedness
  | naming
  | ordering
  | structural
  | formatting
  deriving DecidableEq, Repr

def Category.name : Category → String
  | .wellFormedness => "syntax"
  | .naming => "naming"
  | .ordering => "ordering"
  | .structural => "structure"
  | .formatting => "formatting"

/-- The identifier of a finding. -/
inductive RuleId where
  | unterminatedString
  | unterminatedComment
  | unbalancedBraces
  | emptySelector
  | unknownNamingPattern
  | declarationGroupOutOfOrder
  | declarationNotAlphabetical
  | missingGroupSeparator
  | unexpectedBlankLineWithinGroup
  | excessiveNesting
  | rulesetSeparatorViolation
  | commentAlignmentViolation
  | lineTooLong
  | tabCharacterUsed
  | indentationMismatch
  | braceSpacing
  | closingBraceAlignment
  | selectorNotOnOwnLine
  | colonSpacing
  | hexCaseOrLength
  | quoteStyle
  | unitOnZeroValue
  | commaSpacing
  | trailingWhitespace
  | fileEndWhitespace
  deriving DecidableEq, Repr

/-- A name that identifies no rule. -/
structure UnknownRule where
  name : Points
  deriving DecidableEq, Repr

def UnknownRule.message (e : UnknownRule) : String :=
  s!"Unknown rule identifier: {Text.shown e.name.quoted}"

namespace RuleId

def all : List RuleId :=
  [.unterminatedString, .unterminatedComment, .unbalancedBraces, .emptySelector,
   .unknownNamingPattern, .declarationGroupOutOfOrder, .declarationNotAlphabetical,
   .missingGroupSeparator, .unexpectedBlankLineWithinGroup, .excessiveNesting,
   .rulesetSeparatorViolation, .commentAlignmentViolation, .lineTooLong, .tabCharacterUsed,
   .indentationMismatch, .braceSpacing, .closingBraceAlignment, .selectorNotOnOwnLine,
   .colonSpacing, .hexCaseOrLength, .quoteStyle, .unitOnZeroValue, .commaSpacing,
   .trailingWhitespace, .fileEndWhitespace]

def name : RuleId → String
  | .unterminatedString => "UnterminatedString"
  | .unterminatedComment => "UnterminatedComment"
  | .unbalancedBraces => "UnbalancedBraces"
  | .emptySelector => "EmptySelector"
  | .unknownNamingPattern => "UnknownNamingPattern"
  | .declarationGroupOutOfOrder => "DeclarationGroupOutOfOrder"
  | .declarationNotAlphabetical => "DeclarationNotAlphabetical"
  | .missingGroupSeparator => "MissingGroupSeparator"
  | .unexpectedBlankLineWithinGroup => "UnexpectedBlankLineWithinGroup"
  | .excessiveNesting => "ExcessiveNesting"
  | .rulesetSeparatorViolation => "RulesetSeparatorViolation"
  | .commentAlignmentViolation => "CommentAlignmentViolation"
  | .lineTooLong => "LineTooLong"
  | .tabCharacterUsed => "TabCharacterUsed"
  | .indentationMismatch => "IndentationMismatch"
  | .braceSpacing => "BraceSpacing"
  | .closingBraceAlignment => "ClosingBraceAlignment"
  | .selectorNotOnOwnLine => "SelectorNotOnOwnLine"
  | .colonSpacing => "ColonSpacing"
  | .hexCaseOrLength => "HexCaseOrLength"
  | .quoteStyle => "QuoteStyle"
  | .unitOnZeroValue => "UnitOnZeroValue"
  | .commaSpacing => "CommaSpacing"
  | .trailingWhitespace => "TrailingWhitespace"
  | .fileEndWhitespace => "FileEndWhitespace"

def constant : RuleId → String
  | .unterminatedString => "UNTERMINATED_STRING"
  | .unterminatedComment => "UNTERMINATED_COMMENT"
  | .unbalancedBraces => "UNBALANCED_BRACES"
  | .emptySelector => "EMPTY_SELECTOR"
  | .unknownNamingPattern => "UNKNOWN_NAMING_PATTERN"
  | .declarationGroupOutOfOrder => "DECLARATION_GROUP_OUT_OF_ORDER"
  | .declarationNotAlphabetical => "DECLARATION_NOT_ALPHABETICAL"
  | .missingGroupSeparator => "MISSING_GROUP_SEPARATOR"
  | .unexpectedBlankLineWithinGroup => "UNEXPECTED_BLANK_LINE_WITHIN_GROUP"
  | .excessiveNesting => "EXCESSIVE_NESTING"
  | .rulesetSeparatorViolation => "RULESET_SEPARATOR_VIOLATION"
  | .commentAlignmentViolation => "COMMENT_ALIGNMENT_VIOLATION"
  | .lineTooLong => "LINE_TOO_LONG"
  | .tabCharacterUsed => "TAB_CHARACTER_USED"
  | .indentationMismatch => "INDENTATION_MISMATCH"
  | .braceSpacing => "BRACE_SPACING"
  | .closingBraceAlignment => "CLOSING_BRACE_ALIGNMENT"
  | .selectorNotOnOwnLine => "SELECTOR_NOT_ON_OWN_LINE"
  | .colonSpacing => "COLON_SPACING"
  | .hexCaseOrLength => "HEX_CASE_OR_LENGTH"
  | .quoteStyle => "QUOTE_STYLE"
  | .unitOnZeroValue => "UNIT_ON_ZERO_VALUE"
  | .commaSpacing => "COMMA_SPACING"
  | .trailingWhitespace => "TRAILING_WHITESPACE"
  | .fileEndWhitespace => "FILE_END_WHITESPACE"

def category : RuleId → Category
  | .unterminatedString | .unterminatedComment
  | .unbalancedBraces | .emptySelector => .wellFormedness
  | .unknownNamingPattern => .naming
  | .declarationGroupOutOfOrder | .declarationNotAlphabetical
  | .missingGroupSeparator | .unexpectedBlankLineWithinGroup => .ordering
  | .excessiveNesting | .rulesetSeparatorViolation
  | .commentAlignmentViolation | .lineTooLong => .structural
  | _ => .formatting

/-- The rule of this name, or else of this constant in any case. -/
def ofName? (word : String) : Option RuleId :=
  match all.find? (·.name == word) with
  | some r => some r
  | none => all.find? (capitalsAre ·.constant word.toList)

/-- The rule of this name or constant, or an explanation. -/
def parse (word : Points) : Except UnknownRule RuleId :=
  match word.toString?.bind ofName? with
  | some r => .ok r
  | none => .error ⟨word⟩

theorem mem_all (r : RuleId) : r ∈ all := by cases r <;> decide

end RuleId

end HouseStyle
