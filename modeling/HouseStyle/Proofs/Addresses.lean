/-
HouseStyle.Proofs.Addresses — the numbers that a stylesheet records are numbers of what is there.

A declaration records the number of its colon and the span of its value, an at-rule the span of its
prelude, a node its line and the numbers of its children and of the ruleset around it. All of them
are written down while the text is read and looked up much later, by rules that have nothing but
the number. Every one of them finds what it is looked up for (`Stylesheet.Addressed`), and there is
a token in front of every span: the colon of the declaration, or the keyword of the at-rule.

## How the proof goes

Within a statement the bounds are counts of tokens (`Declaration.within_of_ofTokens?`,
`within_preludeSpan`). Over the text they move with the tokens that were passed in front of the
statement (`Nesting.Picked`). Lines are those of tokens, and numbers of nodes are those of the
forest.
-/
import HouseStyle.Proofs.Declared
import HouseStyle.Proofs.Owners
import HouseStyle.Rule.Finding
import HouseStyle.Text.Lines

namespace HouseStyle

/-! ## 1. Spans of a statement -/

/-- A span of the first `count` tokens, behind more than `passed` of them. -/
structure Span.Within (passed count : Nat) (span : Span) : Prop where
  passed_lt : passed < span.start
  start_le : span.start ≤ span.stop
  stop_le : span.stop ≤ count

theorem Span.Within.mono {passed passed' count count' : Nat} {span : Span}
    (h : span.Within passed count) (hpassed : passed' ≤ passed) (hcount : count ≤ count') :
    span.Within passed' count' where
  passed_lt := Nat.lt_of_le_of_lt hpassed h.passed_lt
  start_le := h.start_le
  stop_le := Nat.le_trans h.stop_le hcount

/-- The value of a declaration stands behind its colon, among the tokens of its statement. -/
theorem Declaration.within_of_ofTokens? {base : Nat} {tokens : List Token} {d : Declaration}
    (h : ofTokens? base tokens = some d) :
    d.valueSpan.Within d.colon (base + tokens.length) := by
  obtain ⟨name, colon, lead, value, trail, rfl, hd⟩ := exists_readOff h
  have hstart := hd.start_eq
  have hstop := hd.stop_eq
  constructor
  · omega
  · omega
  · rw [hstop, hstart, hd.colon_eq]
    simp only [List.length_append, List.length_cons]
    omega

/-- The prelude of an at-rule stands behind its keyword. -/
theorem Nesting.within_preludeSpan (base : Nat) (prelude : List Token) :
    (preludeSpan (base + 1) prelude).Within base (base + 1 + prelude.length) := by
  have hinner := Token.length_trimTrivia_le prelude
  constructor
  · show base < base + 1 + _
    omega
  · exact Nat.le_add_right _ _
  · show base + 1 + (if _ then _ else _) + (Token.trimTrivia prelude).length ≤ _
    split
    · rename_i hempty
      rw [List.isEmpty_iff.1 hempty, List.length_nil]
      exact Nat.le_refl _
    · omega

/-! ## 2. Spans of a text -/

namespace Nesting

/-- The value of a declaration lies behind its colon, inside the statement that makes it. -/
theorem within_of_mem_declared {passed : Nat} {statements : List Statement} {d : Declaration}
    (h : d ∈ declared passed statements) :
    d.valueSpan.Within d.colon (passed + covered statements) := by
  obtain ⟨before, st, after, rfl, hd⟩ := exists_split_of_mem_declared h
  cases st with
  | plain tokens semicolon =>
    refine (Declaration.within_of_ofTokens? hd).mono (Nat.le_refl _) ?_
    simp only [covered_append, covered_cons, Statement.tokens, List.length_append]
    omega
  | _ => cases hd

def headingSpan? (h : Heading) : Option Span :=
  match h.shape with
  | .ruleset _ => none
  | .atRule _ prelude => some prelude

/-- The heading of a node refers to tokens of the statement that begins the node, and to no
others. -/
theorem within_of_mem_outline {passed count : Nat} {opened : List Nat}
    {statements : List Statement} {b : Beginning} (h : b ∈ outline passed count opened statements)
    {span : Span} (hspan : headingSpan? b.heading = some span) :
    span.Within passed (passed + covered statements) := by
  obtain ⟨before, st, after, rfl, owner, hb⟩ := exists_split_of_mem_outline h
  cases st with
  | atRule keyword prelude ending =>
    obtain rfl := Option.some.inj hb
    obtain rfl : preludeSpan (passed + covered before + 1) prelude = span :=
      Option.some.inj hspan
    refine (within_preludeSpan _ prelude).mono (Nat.le_add_right _ _) ?_
    simp only [covered_append, covered_cons, Statement.tokens, List.length_cons,
      List.length_append]
    omega
  | opening prelude brace =>
    obtain rfl := Option.some.inj hb
    cases hspan
  | _ => cases hb

/-- A node stands on the line of a token. -/
theorem exists_token_of_mem_outline {passed count : Nat} {opened : List Nat}
    {statements : List Statement} {b : Beginning}
    (h : b ∈ outline passed count opened statements) :
    ∃ t ∈ statements.flatMap Statement.tokens, b.heading.line = t.line := by
  have hplace := (sublist_places_outline passed count opened statements).subset
    (List.mem_map_of_mem h)
  obtain ⟨t, ht, he⟩ := List.mem_map.1 hplace
  exact ⟨t, ht, (congrArg Prod.fst he).symm⟩

end Nesting

/-! ## 3. Lines -/

namespace Stylesheet

/-- The stylesheet of a text still spells that text. -/
theorem text_ofText (file : String) (text : Text) : (ofText file text).1.text = text :=
  source_tokenize text

/-- A token stands on a line of the text. -/
theorem line_of_mem_tokenize {text : Text} {t : Token} (h : t ∈ tokenize text) :
    0 < t.line ∧ t.line ≤ (Text.lines text).length := by
  obtain ⟨before, after, hs⟩ := List.append_of_mem h
  have hline : t.line = 1 + (Token.source before).lineFeeds := by
    rw [Token.line, Token.place_eq_after hs, Position.line_after]
  obtain ⟨line, hfound, -⟩ := Token.lexeme_on_line hs
  obtain ⟨hlt, -⟩ := List.getElem?_eq_some_iff.1 hfound
  rw [Text.lines, List.length_map]
  omega

/-! ## 4. Everything that is referred to is there -/

/-- Every number that a stylesheet records is the number of something. -/
structure Addressed (s : Stylesheet) : Prop where
  colon : ∀ d ∈ s.allDeclarations, d.colon < s.tokens.length
  value : ∀ d ∈ s.allDeclarations, d.valueSpan.Within 0 s.tokens.length
  prelude : ∀ n ∈ s.nodes, ∀ atRule ∈ n.atRule?, atRule.2.Within 0 s.tokens.length
  line : ∀ n ∈ s.nodes, 0 < n.line ∧ n.line ≤ s.lines.length
  topLevel : ∀ index ∈ s.topLevel, index < s.nodes.length
  child : ∀ n ∈ s.nodes, ∀ index ∈ n.children, index < s.nodes.length
  parent : ∀ n ∈ s.nodes, n.index < s.nodes.length ∧ ∀ index ∈ n.scope.parent, index < n.index

/-- Owners are numbered in front of what they own. -/
theorem index_lt_of_owners {s : Stylesheet} {n : Node} {owners : List Node}
    (h : Owners s.nodes n owners) : ∀ m ∈ owners, m.index < n.index := by
  induction h with
  | top => exact fun m hm => nomatch hm
  | inside listed child around ih =>
    have hlt := lt_of_mem_children listed child
    intro p hp
    rcases List.mem_cons.1 hp with rfl | hp
    · exact hlt
    · exact Nat.lt_trans (ih p hp) hlt

theorem index_lt_length {s : Stylesheet} {n : Node} (h : n ∈ s.nodes) :
    n.index < s.nodes.length := by
  obtain ⟨hlt, -⟩ := List.getElem?_eq_some_iff.1 (getElem?_index h)
  exact hlt

/-- Rows of siblings name nodes that exist. -/
theorem lt_length_of_mem_rows {s : Stylesheet} {row : List Nat} (h : row ∈ s.rows) :
    ∀ index ∈ row, index < s.nodes.length := by
  intro index hindex
  have hmem : index ∈ s.rows.flatten := List.mem_flatten.2 ⟨row, h, hindex⟩
  exact List.mem_range.1 (s.perm_rows.mem_iff.1 hmem)

/-- A node began as the outline of the statements says. -/
theorem exists_beginning {file : String} {tokens : List Token} {n : Node}
    (h : n ∈ (parse file tokens).1.nodes) :
    ∃ b ∈ Nesting.outline 0 0 [] (Statement.all tokens),
      b.heading = { n.block.heading with comment := none } := by
  have houtline := outline_parse file tokens
  dsimp only at houtline
  rw [← houtline]
  exact ⟨_, List.mem_map_of_mem h, rfl⟩

theorem covered_all (tokens : List Token) :
    Nesting.covered (Statement.all tokens) = tokens.length :=
  congrArg List.length (Statement.tokens_all tokens)

section

variable {file : String} {text : Text}

/-- Values stand behind their colons and end with the text at the latest. -/
theorem within_valueSpan {d : Declaration} (hd : d ∈ (ofText file text).1.allDeclarations) :
    d.valueSpan.Within d.colon (tokenize text).length := by
  have hwithin := Nesting.within_of_mem_declared ((perm_allDeclarations file _).mem_iff.1 hd)
  rwa [covered_all, Nat.zero_add] at hwithin

/-- Preludes stand behind a keyword and end with the text at the latest. -/
theorem within_prelude {n : Node} (hn : n ∈ (ofText file text).1.nodes) {name : Text} {span : Span}
    (hatRule : n.atRule? = some (name, span)) : span.Within 0 (tokenize text).length := by
  obtain ⟨b, hb, hheading⟩ := exists_beginning hn
  have hspan : Nesting.headingSpan? b.heading = some span := by
    rw [hheading]
    unfold Node.atRule? at hatRule
    unfold Nesting.headingSpan?
    split at hatRule
    · cases hatRule
    · rename_i hshape
      cases hatRule
      rw [hshape]
  have hwithin := Nesting.within_of_mem_outline hb hspan
  rwa [covered_all, Nat.zero_add] at hwithin

/-- Nodes stand on lines of the text. -/
theorem line_of_mem_nodes {n : Node} (hn : n ∈ (ofText file text).1.nodes) :
    0 < n.line ∧ n.line ≤ (ofText file text).1.lines.length := by
  obtain ⟨b, hb, hheading⟩ := exists_beginning hn
  obtain ⟨t, ht, hline⟩ := Nesting.exists_token_of_mem_outline hb
  rw [Statement.tokens_all] at ht
  rw [hheading] at hline
  have hbounds := line_of_mem_tokenize ht
  rw [← hline] at hbounds
  rw [lines, text_ofText]
  exact hbounds

end

/-- Every number that a stylesheet read from a text records is in range. -/
theorem addressed_ofText (file : String) (text : Text) : (ofText file text).1.Addressed := by
  constructor
  case colon =>
    intro d hd
    obtain ⟨hlt, hle, hstop⟩ := within_valueSpan hd
    exact Nat.lt_of_lt_of_le hlt (Nat.le_trans hle hstop)
  case value =>
    intro d hd
    exact (within_valueSpan hd).mono (Nat.zero_le _) (Nat.le_refl _)
  case prelude =>
    intro n hn atRule hatRule
    exact within_prelude hn hatRule
  case line =>
    intro n hn
    exact line_of_mem_nodes hn
  case topLevel => exact lt_length_of_mem_rows List.mem_cons_self
  case child =>
    intro n hn
    exact lt_length_of_mem_rows (List.mem_cons_of_mem _ (List.mem_map_of_mem hn))
  case parent =>
    intro n hn
    refine ⟨index_lt_length hn, fun index hindex => ?_⟩
    obtain ⟨owners, howners, hscope⟩ := exists_owners hn
    rw [hscope] at hindex
    obtain ⟨p, hp, rfl⟩ := Option.map_eq_some_iff.1 hindex
    exact index_lt_of_owners howners p (List.mem_of_find?_eq_some hp)

end Stylesheet

end HouseStyle
