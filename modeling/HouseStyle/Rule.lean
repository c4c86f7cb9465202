/-
HouseStyle.Rule — the registry of rules.

Every rule says which findings it can make (`emits`). A rule none of whose findings are wanted is
not run, and findings that are not wanted are dropped, so the order of findings is the order of the
rules in the registry.
-/
import HouseStyle.Rule.Blocks
import HouseStyle.Rule.ClassNaming
import HouseStyle.Rule.CommentShape
import HouseStyle.Rule.DeclarationOrder
import HouseStyle.Rule.Layout
import HouseStyle.Rule.Values

namespace HouseStyle

/-- A rule of the registry. -/
inductive Rule where
  | classNaming
  | groupOrder
  | alphabeticalOrder
  | groupSeparation
  | nestingDepth
  | blockSeparation
  | commentShape
  | lineLength
  | tabs
  | indentation
  | braceSpacing
  | braceAlignment
  | selectorLines
  | colonSpacing
  | hexColors
  | quoteStyle
  | zeroUnits
  | commaSpacing
  | trailingWhitespace
  | fileEnd
  deriving DecidableEq, Repr

namespace Rule

def all : List Rule :=
  [.classNaming, .groupOrder, .alphabeticalOrder, .groupSeparation, .nestingDepth,
   .blockSeparation, .commentShape, .lineLength, .tabs, .indentation, .braceSpacing,
   .braceAlignment, .selectorLines, .colonSpacing, .hexColors, .quoteStyle, .zeroUnits,
   .commaSpacing, .trailingWhitespace, .fileEnd]

def emits : Rule → List RuleId
  | .classNaming => [.unknownNamingPattern]
  | .groupOrder => [.declarationGroupOutOfOrder]
  | .alphabeticalOrder => [.declarationNotAlphabetical]
  | .groupSeparation => [.missingGroupSeparator, .unexpectedBlankLineWithinGroup]
  | .nestingDepth => [.excessiveNesting]
  | .blockSeparation => [.rulesetSeparatorViolation]
  | .commentShape => [.commentAlignmentViolation]
  | .lineLength => [.lineTooLong]
  | .tabs => [.tabCharacterUsed]
  | .indentation => [.indentationMismatch]
  | .braceSpacing => [.braceSpacing]
  | .braceAlignment => [.closingBraceAlignment]
  | .selectorLines => [.selectorNotOnOwnLine]
  | .colonSpacing => [.colonSpacing]
  | .hexColors => [.hexCaseOrLength]
  | .quoteStyle => [.quoteStyle]
  | .zeroUnits => [.unitOnZeroValue]
  | .commaSpacing => [.commaSpacing]
  | .trailingWhitespace => [.trailingWhitespace]
  | .fileEnd => [.fileEndWhitespace]

def run : Rule → Stylesheet → Options → List Diagnostic
  | .classNaming => ClassNaming.check
  | .groupOrder => DeclarationOrder.checkGroups
  | .alphabeticalOrder => DeclarationOrder.checkNames
  | .groupSeparation => DeclarationOrder.checkSeparation
  | .nestingDepth => Blocks.checkDepth
  | .blockSeparation => Blocks.checkSeparation
  | .commentShape => CommentShape.check
  | .lineLength => Layout.checkLength
  | .tabs => Layout.checkTabs
  | .indentation => Layout.checkIndentation
  | .braceSpacing => Blocks.checkSpacing
  | .braceAlignment => Blocks.checkAlignment
  | .selectorLines => Blocks.checkSelectorLines
  | .colonSpacing => Values.checkColons
  | .hexColors => Values.checkColors
  | .quoteStyle => Values.checkQuotes
  | .zeroUnits => Values.checkZeros
  | .commaSpacing => Values.checkCommas
  | .trailingWhitespace => Layout.checkTrailing
  | .fileEnd => Layout.checkEnd

def isWanted (o : Options) (r : Rule) : Bool := r.emits.any o.enabled

def findings (s : Stylesheet) (o : Options) (r : Rule) : List Diagnostic :=
  if r.isWanted o then r.run s o else []

end Rule

/-- A rule to run: one of the registry, or one from outside of which only the findings are known. -/
inductive RuleSource where
  | registered (rule : Rule)
  | custom (run : Stylesheet → Options → List Diagnostic)

def RuleSource.findings (s : Stylesheet) (o : Options) : RuleSource → List Diagnostic
  | .registered rule => rule.findings s o
  | .custom run => run s o

/-- The wanted findings of all rules of the registry and of extra rules behind them. -/
def Stylesheet.validate (s : Stylesheet) (o : Options) (extra : List RuleSource) :
    List Diagnostic :=
  ((Rule.all.map RuleSource.registered ++ extra).flatMap (RuleSource.findings s o)).filter
    fun d => o.enabled d.rule

end HouseStyle
