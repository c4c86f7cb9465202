/-
HouseStyle.Rule.Finding — what the rules have in common.

A rule looks at a stylesheet and lists findings about it. The severity of a finding is settled
later. Rules about values look at the tokens of declaration values and of at-rule preludes, each
token with its neighbours: those in front reach back to the token before the span, those behind end
with the span.
-/
import HouseStyle.Options
import HouseStyle.Stylesheet

namespace HouseStyle

def Stylesheet.finding (s : Stylesheet) (rule : RuleId) (line column : Nat) (message : String)
    (fix : Option String) : Diagnostic :=
  { rule, message, file := s.file, line, column, fix }

/-- A token among its neighbours; those in front are listed from the nearest on. -/
structure Place where
  before : List Token
  token : Token
  after : List Token
  deriving Repr

namespace Place

/-- Every token of a row among its neighbours. -/
def allFrom (before : List Token) : List Token → List Place
  | [] => []
  | t :: rest => ⟨before, t, rest⟩ :: allFrom (t :: before) rest

def previous (tokens : Array Token) : Nat → List Token
  | 0 => []
  | n + 1 => tokens[n]?.toList

/-- Every token of a span among its neighbours. -/
def ofSpan (tokens : Array Token) (span : Span) : List Place :=
  allFrom (previous tokens span.start) (span.slice tokens)

def at? (tokens : Array Token) (index : Nat) : Option Place :=
  tokens[index]?.map fun t => ⟨previous tokens index, t, tokens[index + 1]?.toList⟩

end Place

namespace Stylesheet

def places (s : Stylesheet) : List Place := Place.allFrom [] s.tokens

/-- The spans of values: those of the given declarations, then the preludes of at-rules. -/
def spansOf (s : Stylesheet) (declarations : List Declaration) : List Span :=
  declarations.map (·.valueSpan) ++ s.nodes.filterMap fun n => n.atRule?.map (·.2)

def valueSpans (s : Stylesheet) : List Span := s.spansOf s.allDeclarations

/-- The spans of all values but those of custom properties. -/
def ordinarySpans (s : Stylesheet) : List Span :=
  s.spansOf (s.allDeclarations.filter fun d => !d.isCustom)

end Stylesheet

end HouseStyle
