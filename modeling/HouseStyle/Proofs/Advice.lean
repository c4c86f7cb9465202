/-
HouseStyle.Proofs.Advice — the key of a finding determines its fix, so that none is lost.

Consolidating keeps one finding for each key, and the key leaves out severity and fix. The severity
follows from the rule. That the fix follows from rule, place and message is a fact about every rule
that makes findings, and there are four reasons for it:

* the rule always gives the same advice (`MadeAlike`);
* the advice can be read off the message (indentation, commas, all findings of the parser);
* the place belongs to one token, one declaration, or one pair of neighbours, of which the advice
  is a function (`unambiguous_of_origin`): colors, quotes, colons, order of declarations;
* there is at most one such finding (the end of the text).

`check_keeps_all` puts them together: no two rules make findings with the same identifier, so
findings with the same key come from the same rule and are the same.
-/
import HouseStyle.Proofs.Declared
import HouseStyle.Proofs.Selection
import Mathlib.Data.List.Flatten

namespace HouseStyle

/-! ## 1. Why a key may determine a finding -/

namespace Diagnostic

variable {ds : List Diagnostic}

/-- Findings are unambiguous if the key of a finding determines its fix. -/
theorem unambiguous_of_fix (hseverity : ∀ d ∈ ds, d.severity = .standard)
    (hfix : ∀ d ∈ ds, ∀ e ∈ ds, compareKey d e = .eq → d.fix = e.fix) : Unambiguous ds := by
  intro d hd e he hkey
  have hf := hfix d hd e he hkey
  have hs := (hseverity d hd).trans (hseverity e he).symm
  obtain ⟨hfile, hline, hcolumn, hrule, hmessage⟩ := compareKey_eq_iff.1 hkey
  cases d
  cases e
  simp_all

/-- Findings are unambiguous if each comes from a thing that its place determines, and the thing
determines the fix. -/
theorem unambiguous_of_origin {α : Type} (known : α → Prop) (place : α → Nat × Nat)
    (fix : α → Option String)
    (hplace : ∀ x y, known x → known y → place x = place y → x = y)
    (hseverity : ∀ d ∈ ds, d.severity = .standard)
    (horigin : ∀ d ∈ ds, ∃ x, known x ∧
      d.line = (place x).1 ∧ d.column = (place x).2 ∧ d.fix = fix x) : Unambiguous ds := by
  refine unambiguous_of_fix hseverity fun d hd e he hkey => ?_
  obtain ⟨x, hx, hxline, hxcolumn, hxfix⟩ := horigin d hd
  obtain ⟨y, hy, hyline, hycolumn, hyfix⟩ := horigin e he
  obtain ⟨-, hline, hcolumn, -, -⟩ := compareKey_eq_iff.1 hkey
  have hxy : x = y := hplace x y hx hy (Prod.ext (by omega) (by omega))
  rw [hxfix, hyfix, hxy]

theorem Unambiguous.map_judge {o : Options} (h : Unambiguous ds) :
    Unambiguous (ds.map o.judge) := by
  rintro _ hd _ he hkey
  obtain ⟨d, hd', rfl⟩ := List.mem_map.1 hd
  obtain ⟨e, he', rfl⟩ := List.mem_map.1 he
  rw [h d hd' e he' hkey]

end Diagnostic

open Diagnostic

/-- Findings that are made alike can differ only in place and message, and both are part of the
key. -/
theorem Stylesheet.MadeAlike.unambiguous {s : Stylesheet} {r : RuleId} {ds : List Diagnostic}
    (h : s.MadeAlike r ds) : Unambiguous ds := by
  refine unambiguous_of_fix (fun d hd => (h.made hd).severity) fun d hd e he _ => ?_
  obtain ⟨fix, h⟩ := h
  obtain ⟨_, _, _, rfl⟩ := h d hd
  obtain ⟨_, _, _, rfl⟩ := h e he
  rfl

/-- A token of a text is known by its place. -/
theorem Token.eq_of_place {text : Text} {t u : Token} (ht : t ∈ tokenize text)
    (hu : u ∈ tokenize text) (h : (t.line, t.column) = (u.line, u.column)) : t = u :=
  List.inj_on_of_nodup_map (Token.nodup_places text) ht hu h

variable {file : String} {text : Text} {o : Options}

/-! ## 2. Advice that follows from the message -/

/-- A number in front of a space can be read off a text. -/
theorem eq_of_toDigits_append {m n : Nat} {s t : Text}
    (h : Nat.toDigits 10 m ++ ' ' :: s = Nat.toDigits 10 n ++ ' ' :: t) : m = n := by
  have hdigits (k : Nat) (u : Text) :
      (Nat.toDigits 10 k ++ ' ' :: u).takeWhile Char.isDigit = Nat.toDigits 10 k := by
    rw [List.takeWhile_append_of_pos fun c hc =>
      Nat.isDigit_of_mem_toDigits (by decide) (by decide) hc]
    simp
  have hmn : Nat.toDigits 10 m = Nat.toDigits 10 n := by rw [← hdigits m s, h, hdigits]
  calc
    m = Nat.ofDigitChars 10 (Nat.toDigits 10 m) 0 := Nat.ofDigitChars_ten_toDigits.symm
    _ = Nat.ofDigitChars 10 (Nat.toDigits 10 n) 0 := by rw [hmn]
    _ = n := Nat.ofDigitChars_ten_toDigits

theorem Layout.unambiguous_checkIndentation (s : Stylesheet) :
    Unambiguous (checkIndentation s o) := by
  refine unambiguous_of_fix (fun d hd => (made_checkIndentation hd).severity)
    fun d hd e he hkey => ?_
  obtain ⟨⟨t, expected, found⟩, -, rfl⟩ := List.mem_map.1 hd
  obtain ⟨⟨u, expected', found'⟩, -, rfl⟩ := List.mem_map.1 he
  obtain ⟨-, -, -, -, hmessage⟩ := compareKey_eq_iff.1 hkey
  have hlist := congrArg String.toList hmessage
  simp only [Stylesheet.finding, toString, String.toList_append, List.append_assoc,
    Nat.toList_repr, List.append_cancel_left_eq] at hlist
  have hexpected : expected = expected' := eq_of_toDigits_append (by simpa using hlist)
  rw [hexpected]
  rfl

/-- There are two complaints about commas; each comes with a fix of its own. -/
theorem Values.mem_commaProblems {p : Place} {problem : String × String}
    (h : problem ∈ commaProblems p) :
    problem = ("Unexpected space before ','.", "Remove the space before the comma.") ∨
      problem = ("Expected exactly one space after ','.", "Write ', ' between items.") := by
  unfold commaProblems at h
  grind

theorem Values.unambiguous_checkCommas (s : Stylesheet) : Unambiguous (checkCommas s o) := by
  refine unambiguous_of_fix (fun d hd => (made_checkCommas hd).severity) fun d hd e he hkey => ?_
  obtain ⟨p, -, hd⟩ := List.mem_flatMap.1 hd
  obtain ⟨q, -, he⟩ := List.mem_flatMap.1 he
  obtain ⟨problem, hp, rfl⟩ := List.mem_map.1 hd
  obtain ⟨problem', hq, rfl⟩ := List.mem_map.1 he
  obtain ⟨-, -, -, -, hmessage⟩ := compareKey_eq_iff.1 hkey
  have hdiffer : "Unexpected space before ','." ≠ "Expected exactly one space after ','." := by
    decide
  rcases mem_commaProblems hp with rfl | rfl <;> rcases mem_commaProblems hq with rfl | rfl
  · rfl
  · exact absurd hmessage hdiffer
  · exact absurd hmessage hdiffer.symm
  · rfl

/-! ## 3. Advice that follows from the place -/

section

variable (file text)

/-- Advice about a token follows from the place. -/
theorem unambiguous_of_tokens {ds : List Diagnostic} (fix : Token → Option String)
    (hseverity : ∀ d ∈ ds, d.severity = .standard)
    (horigin : ∀ d ∈ ds, ∃ t, t ∈ tokenize text ∧
      d.line = t.line ∧ d.column = t.column ∧ d.fix = fix t) : Unambiguous ds :=
  unambiguous_of_origin (· ∈ tokenize text) (fun t => (t.line, t.column)) fix
    (fun _ _ => Token.eq_of_place) hseverity horigin

theorem Values.unambiguous_checkColors :
    Unambiguous (checkColors (Stylesheet.ofText file text).1 o) := by
  let s := (Stylesheet.ofText file text).1
  refine unambiguous_of_tokens text (fun t => (colorFinding? s t).bind Diagnostic.fix)
    (fun d hd => (made_checkColors hd).severity) fun d hd => ?_
  obtain ⟨t, ht, hd⟩ := List.mem_filterMap.1 hd
  obtain ⟨span, -, ht⟩ := List.mem_flatMap.1 ht
  rw [Span.slice_toArray] at ht
  have hplace : d.line = t.line ∧ d.column = t.column := by
    unfold colorFinding? at hd
    dsimp only at hd
    split at hd
    · rw [← Option.some.inj hd]
      exact ⟨rfl, rfl⟩
    · cases hd
  refine ⟨t, List.mem_of_mem_drop (List.mem_of_mem_take ht), hplace.1, hplace.2, ?_⟩
  rw [show colorFinding? s t = some d from hd]
  rfl

theorem Values.unambiguous_checkQuotes :
    Unambiguous (checkQuotes (Stylesheet.ofText file text).1 o) := by
  refine unambiguous_of_tokens text (fun t => some (doubleQuoted t.lexeme).shown)
    (fun d hd => (made_checkQuotes hd).severity) fun d hd => ?_
  obtain ⟨t, ht, rfl⟩ := List.mem_map.1 hd
  exact ⟨t, (List.mem_filter.1 ht).1, rfl, rfl, rfl⟩

/-- The findings about a colon stand at a token of the text, whose number the declaration has. -/
theorem Values.mem_colonFindings {s : Stylesheet} {x : Declaration} {d : Diagnostic}
    (h : d ∈ colonFindings s s.tokens.toArray x) :
    ∃ t, s.tokens[x.colon]? = some t ∧ d.line = t.line ∧ d.column = t.column ∧
      d.fix = some s!"Write '{x.property.shown}: {x.value.shown}'." := by
  unfold colonFindings at h
  split at h
  · cases h
  · rename_i colon hcolon
    obtain ⟨message, -, rfl⟩ := List.mem_map.1 h
    obtain ⟨t, ht, rfl⟩ := Option.map_eq_some_iff.1 hcolon
    exact ⟨t, by simpa using ht, rfl, rfl, rfl⟩

theorem Values.unambiguous_checkColons :
    Unambiguous (checkColons (Stylesheet.ofText file text).1 o) := by
  let s := (Stylesheet.ofText file text).1
  refine unambiguous_of_origin
    (fun x : Declaration × Token =>
      x.1 ∈ s.allDeclarations ∧ (tokenize text)[x.1.colon]? = some x.2)
    (fun x => (x.2.line, x.2.column))
    (fun x => some s!"Write '{x.1.property.shown}: {x.1.value.shown}'.")
    ?_ (fun d hd => (made_checkColons hd).severity) fun d hd => ?_
  · rintro ⟨x, t⟩ ⟨y, u⟩ ⟨hx, ht⟩ ⟨hy, hu⟩ h
    have htu : t = u :=
      Token.eq_of_place (List.mem_of_getElem? ht) (List.mem_of_getElem? hu) h
    subst htu
    -- no token occurs twice, so the two colons have the same number
    obtain ⟨hlt, -⟩ := List.getElem?_eq_some_iff.1 ht
    have hcolon : x.colon = y.colon :=
      (List.getElem?_inj hlt ((Token.nodup_places text).of_map _)).1 (ht.trans hu.symm)
    exact Prod.ext (List.inj_on_of_nodup_map (Stylesheet.nodup_colons file text) hx hy hcolon) rfl
  · obtain ⟨x, hx, hd⟩ := List.mem_flatMap.1 hd
    obtain ⟨t, ht, hrest⟩ := mem_colonFindings hd
    exact ⟨(x, t), ⟨hx, ht⟩, hrest⟩

/-- The second halves of all pairs of neighbours in some rows, in order. -/
theorem sublist_map_snd_neighbours {α : Type} (rows : List (List α)) :
    ((rows.flatMap fun row => row.zip row.tail).map Prod.snd).Sublist rows.flatten := by
  rw [List.map_flatMap, List.flatten_eq_flatMap]
  refine List.Sublist.flatMap_right _ fun row _ => ?_
  rw [List.map_snd_zip (by simp)]
  exact List.tail_sublist _

/-- No two declarations with one in front of them start at the same place. -/
theorem DeclarationOrder.nodup_places_pairs :
    ((pairs (Stylesheet.ofText file text).1).map fun pair =>
      (pair.2.line, pair.2.column)).Nodup := by
  let s := (Stylesheet.ofText file text).1
  have hrows : (ordered s).flatten.Sublist s.allDeclarations := by
    rw [ordered, ← List.flatMap_def]
    have hnodes : (s.rulesets.filter fun r => !r.inAtRule).Sublist s.nodes :=
      List.filter_sublist.trans List.filter_sublist
    have hvariables := List.Sublist.flatMap_right (s.rulesets.filter fun r => !r.inAtRule)
      (f := fun r => r.declarations.filter fun d => !d.isVariable) (g := Node.declarations)
      fun r _ => List.filter_sublist
    exact (hvariables.trans (hnodes.flatMap _)).trans (List.sublist_append_right _ _)
  have hsub : ((pairs s).map Prod.snd).Sublist s.allDeclarations :=
    (sublist_map_snd_neighbours (ordered s)).trans hrows
  have hplaces := (hsub.map fun d => (d.line, d.column)).nodup
    (Stylesheet.nodup_places_declarations file text)
  rwa [List.map_map] at hplaces

/-- Advice about the order of declarations follows from the place, since it is about one
declaration and the one in front of it. -/
theorem DeclarationOrder.unambiguous_of_pairs {ds : List Diagnostic}
    (fix : Declaration × Declaration → Option String)
    (hseverity : ∀ d ∈ ds, d.severity = .standard)
    (horigin : ∀ d ∈ ds, ∃ pair, pair ∈ pairs (Stylesheet.ofText file text).1 ∧
      d.line = pair.2.line ∧ d.column = pair.2.column ∧ d.fix = fix pair) : Unambiguous ds :=
  unambiguous_of_origin (· ∈ pairs (Stylesheet.ofText file text).1)
    (fun pair => (pair.2.line, pair.2.column)) fix
    (fun _ _ hx hy => List.inj_on_of_nodup_map (nodup_places_pairs file text) hx hy)
    hseverity horigin

/-- A rule that advises to move the second declaration of some pairs above the first. -/
theorem DeclarationOrder.unambiguous_of_moves (rule : RuleId)
    (wrong : Declaration × Declaration → Bool) (message : Declaration × Declaration → String) :
    let s := (Stylesheet.ofText file text).1
    Unambiguous (((pairs s).filter wrong).map fun pair =>
      s.finding rule pair.2.line pair.2.column (message pair)
        (some s!"Move '{shown pair.2}' above '{shown pair.1}'.")) := by
  intro s
  refine unambiguous_of_pairs file text
    (fun pair => some s!"Move '{shown pair.2}' above '{shown pair.1}'.")
    (fun d hd => ?_) fun d hd => ?_
  · obtain ⟨pair, -, rfl⟩ := List.mem_map.1 hd
    exact (s.made_finding _ _ _ _ _).severity
  · obtain ⟨pair, hpair, rfl⟩ := List.mem_map.1 hd
    exact ⟨pair, (List.mem_filter.1 hpair).1, rfl, rfl, rfl⟩

theorem DeclarationOrder.unambiguous_checkGroups :
    Unambiguous (checkGroups (Stylesheet.ofText file text).1 o) :=
  unambiguous_of_moves file text .declarationGroupOutOfOrder _ _

theorem DeclarationOrder.unambiguous_checkNames :
    Unambiguous (checkNames (Stylesheet.ofText file text).1 o) :=
  unambiguous_of_moves file text .declarationNotAlphabetical _ _

theorem DeclarationOrder.unambiguous_checkSeparation :
    Unambiguous (checkSeparation (Stylesheet.ofText file text).1 o) := by
  let s := (Stylesheet.ofText file text).1
  refine unambiguous_of_pairs file text
    (fun pair => (separationFinding? s s.lines pair.1 pair.2).bind Diagnostic.fix)
    (fun d hd => ?_) fun d hd => ?_
  · exact (made_checkSeparation (o := o) hd).elim (·.severity) (·.severity)
  · obtain ⟨pair, hpair, hd⟩ := List.mem_filterMap.1 hd
    have hfix : d.fix = (separationFinding? s s.lines pair.1 pair.2).bind Diagnostic.fix := by
      rw [show separationFinding? s s.lines pair.1 pair.2 = some d from hd]
      rfl
    rcases separationFinding?_cases hd with ⟨message, he⟩ | ⟨message, he⟩
    · exact ⟨pair, hpair, by rw [he]; rfl, by rw [he]; rfl, hfix⟩
    · exact ⟨pair, hpair, by rw [he]; rfl, by rw [he]; rfl, hfix⟩

end

/-! ## 4. The findings of each rule -/

theorem Layout.unambiguous_checkEnd (s : Stylesheet) : Unambiguous (checkEnd s o) := by
  intro d hd e he _
  rcases checkEnd_cases s o with h | ⟨x, h, -⟩
  · rw [h] at hd
    cases hd
  · rw [h, List.mem_singleton] at hd he
    rw [hd, he]

/-- What a rule finds out about a text is told apart by its keys. -/
theorem Rule.unambiguous_run (file : String) (text : Text) (o : Options) (r : Rule) :
    Unambiguous (r.run (Stylesheet.ofText file text).1 o) := by
  cases r with
  | classNaming => exact (ClassNaming.madeAlike_check _ o).unambiguous
  | groupOrder => exact DeclarationOrder.unambiguous_checkGroups file text (o := o)
  | alphabeticalOrder => exact DeclarationOrder.unambiguous_checkNames file text (o := o)
  | groupSeparation => exact DeclarationOrder.unambiguous_checkSeparation file text (o := o)
  | nestingDepth => exact (Blocks.madeAlike_checkDepth _ o).unambiguous
  | blockSeparation => exact (Blocks.madeAlike_checkSeparation _ o).unambiguous
  | commentShape => exact (CommentShape.madeAlike_check _ o).unambiguous
  | lineLength => exact (Layout.madeAlike_checkLength _ o).unambiguous
  | tabs => exact (Layout.madeAlike_checkTabs _ o).unambiguous
  | indentation => exact Layout.unambiguous_checkIndentation (o := o) _
  | braceSpacing => exact (Blocks.madeAlike_checkSpacing _ o).unambiguous
  | braceAlignment => exact (Blocks.madeAlike_checkAlignment _ o).unambiguous
  | selectorLines => exact (Blocks.madeAlike_checkSelectorLines _ o).unambiguous
  | colonSpacing => exact Values.unambiguous_checkColons file text (o := o)
  | hexColors => exact Values.unambiguous_checkColors file text (o := o)
  | quoteStyle => exact Values.unambiguous_checkQuotes file text (o := o)
  | zeroUnits => exact (Values.madeAlike_checkZeros _ o).unambiguous
  | commaSpacing => exact Values.unambiguous_checkCommas (o := o) _
  | trailingWhitespace => exact (Layout.madeAlike_checkTrailing _ o).unambiguous
  | fileEnd => exact Layout.unambiguous_checkEnd (o := o) _

/-! ## 5. The findings of the parser -/

namespace Nesting

/-- What the parser can have to report. -/
inductive Recovered (setting : Setting) : Diagnostic → Prop where
  | malformed (t : Token) : Recovered setting (malformedFinding setting t)
  | stray (brace : Token) : Recovered setting (strayFinding setting brace)
  | noSelector (brace : Token) :
      Recovered setting (setting.finding .emptySelector brace
        "Ruleset has no selector before '\x7b'." "Add a selector or remove the block.")
  | emptyEntries (brace : Token) (count : Nat) (ending : String) :
      Recovered setting (setting.finding .emptySelector brace
        s!"Selector list contains {count} empty entr{ending}." "Remove the stray comma.")
  | unclosed (brace : Token) (count : Nat) :
      Recovered setting (setting.finding .unbalancedBraces brace
        s!"Unclosed '\x7b' at end of input ({count} block(s) closed implicitly)."
        "Add the missing '\x7d'.")

theorem recovered_of_mem_selectorFindings {setting : Setting} {prelude : List Token}
    {brace : Token} {d : Diagnostic} (h : d ∈ selectorFindings setting prelude brace) :
    Recovered setting d := by
  unfold selectorFindings at h
  dsimp only at h
  split at h
  · rw [List.mem_singleton.1 h]
    exact .noSelector brace
  split at h
  · cases h
  · rw [List.mem_singleton.1 h]
    exact .emptyEntries brace _ _

/-- What the walk reports at one statement is a finding of recovery. -/
theorem recovered_of_mem_findingsAt {setting : Setting} {s : State} {st : Statement}
    {d : Diagnostic} (h : d ∈ s.findingsAt setting st) : Recovered setting d := by
  cases st with
  | opening prelude brace => exact recovered_of_mem_selectorFindings h
  | closing brace =>
    dsimp only [State.findingsAt] at h
    split at h
    · rw [List.mem_singleton.1 h]
      exact .stray brace
    · cases h
  | _ => cases h

theorem recovered_of_mem_unclosedFindings {setting : Setting} {enclosing : List OpenBlock}
    {d : Diagnostic} (h : d ∈ unclosedFindings setting enclosing) : Recovered setting d := by
  cases enclosing with
  | nil => cases h
  | cons o outer =>
    rw [List.mem_singleton.1 h]
    exact .unclosed o.brace _

/-- The parser reports nothing else. -/
theorem recovered_of_mem_parse {file : String} {tokens : List Token} {d : Diagnostic}
    (h : d ∈ (Stylesheet.parse file tokens).2) :
    Recovered ⟨file, Stylesheet.lastLine tokens⟩ d := by
  rw [Stylesheet.parse] at h
  dsimp only at h
  rw [List.mem_append, List.mem_append, State.diagnostics_release] at h
  rcases h with (h | h) | h
  · obtain ⟨t, -, rfl⟩ := List.mem_map.1 h
    exact .malformed t
  · obtain ⟨st, -, s, hd⟩ := exists_findingsAt_of_mem_walk h
    exact recovered_of_mem_findingsAt hd
  · exact recovered_of_mem_unclosedFindings h

def between (front back : String) (message : String) : String :=
  String.ofList <|
    (message.toList.drop front.toList.length).take
      (message.toList.length - front.toList.length - back.toList.length)

theorem between_append (front words back : String) :
    between front back (front ++ words ++ back) = words := by
  simp [between]

/-- What the parser advises under a rule when it gives a message. -/
def adviceOn (rule : RuleId) (message : String) : String :=
  match rule with
  | .unterminatedComment => "Close the comment with '*/'."
  | .unterminatedString =>
    let quote := between "String starting with " " is not closed on the same line." message
    s!"Close the string with {quote}."
  | .unbalancedBraces =>
    if "Unexpected".toList.isPrefixOf message.toList then "Remove the extra '\x7d'."
    else "Add the missing '\x7d'."
  | _ =>
    if "Ruleset".toList.isPrefixOf message.toList then "Add a selector or remove the block."
    else "Remove the stray comma."

variable {setting : Setting} {d : Diagnostic}

/-- The advice of a recovered finding follows from its rule and its message. -/
theorem Recovered.fix (h : Recovered setting d) : d.fix = some (adviceOn d.rule d.message) := by
  cases h with
  | malformed t =>
    unfold malformedFinding
    dsimp only
    split
    · rfl
    · exact congrArg (fun quote => some s!"Close the string with {quote}.")
        (between_append _ (String.ofList (t.lexeme.take 1)) _).symm
  | stray brace => exact congrArg some (if_pos (by simp [strayFinding, Setting.finding])).symm
  | noSelector brace => exact congrArg some (if_pos (by simp [Setting.finding])).symm
  | emptyEntries brace count ending =>
    exact congrArg some (if_neg (by simp [Setting.finding, toString])).symm
  | unclosed brace count =>
    exact congrArg some (if_neg (by simp [Setting.finding, toString])).symm

/-- What all findings of the parser have in common. -/
structure Standard (setting : Setting) (d : Diagnostic) : Prop where
  file : d.file = setting.file
  severity : d.severity = .standard
  category : d.rule.category = .wellFormedness

theorem Recovered.standard (h : Recovered setting d) : Standard setting d := by
  cases h with
  | malformed t =>
    unfold malformedFinding
    split <;> exact ⟨rfl, rfl, rfl⟩
  | _ => exact ⟨rfl, rfl, rfl⟩

end Nesting

/-- The parser's findings are told apart by their keys. -/
theorem Stylesheet.unambiguous_recovered (file : String) (tokens : List Token) :
    Unambiguous (parse file tokens).2 := by
  refine unambiguous_of_fix (fun d hd => (Nesting.recovered_of_mem_parse hd).standard.severity)
    fun d hd e he hkey => ?_
  obtain ⟨-, -, -, hrule, hmessage⟩ := compareKey_eq_iff.1 hkey
  rw [(Nesting.recovered_of_mem_parse hd).fix, (Nesting.recovered_of_mem_parse he).fix, hrule,
    hmessage]

/-! ## 6. All findings together -/

/-- A finding says which rule of the registry made it. -/
theorem Rule.find?_emits {r : Rule} {rule : RuleId} (h : rule ∈ r.emits) :
    all.find? (·.emits.contains rule) = some r := by
  revert rule
  cases r <;> decide

/-- An identifier belongs to one rule of the registry. -/
theorem Rule.eq_of_mem_emits {r r' : Rule} {rule : RuleId} (h : rule ∈ r.emits)
    (h' : rule ∈ r'.emits) : r = r' :=
  Option.some.inj ((find?_emits h).symm.trans (find?_emits h'))

/-- No rule reports under the category of the parser, so findings of the two never share a key. -/
theorem Rule.category_ne_of_mem_emits {r : Rule} {rule : RuleId} (h : rule ∈ r.emits) :
    rule.category ≠ .wellFormedness := by
  revert rule
  cases r <;> decide

theorem Rule.mem_all (r : Rule) : r ∈ all := by cases r <;> decide

/-- What is found is what the parser reports and what each rule reports. -/
theorem mem_madeFindings {d : Diagnostic} :
    d ∈ madeFindings file text o ↔
      d ∈ (Stylesheet.ofText file text).2 ∨
        ∃ r : Rule, d ∈ r.run (Stylesheet.ofText file text).1 o := by
  simp [madeFindings, Rule.mem_all]

/-- Findings of the parser are about well-formedness and those of rules are not. -/
theorem category_of_mem_recovered {d : Diagnostic} (h : d ∈ (Stylesheet.ofText file text).2) :
    d.rule.category = .wellFormedness :=
  (Nesting.recovered_of_mem_parse h).standard.category

/-- All that is found about a text is told apart by its keys. -/
theorem unambiguous_madeFindings (file : String) (text : Text) (o : Options) :
    Unambiguous (madeFindings file text o) := by
  have hapart {d e : Diagnostic} (hd : d ∈ (Stylesheet.ofText file text).2) {r : Rule}
      (he : e ∈ r.run (Stylesheet.ofText file text).1 o) : d.rule ≠ e.rule := fun h =>
    Rule.category_ne_of_mem_emits (Rule.rule_mem_emits he) (h ▸ category_of_mem_recovered hd)
  intro d hd e he hkey
  obtain ⟨-, -, -, hrule, -⟩ := compareKey_eq_iff.1 hkey
  rcases mem_madeFindings.1 hd with hd | ⟨r, hd⟩ <;>
    rcases mem_madeFindings.1 he with he | ⟨r', he⟩
  · exact Stylesheet.unambiguous_recovered file _ d hd e he hkey
  · exact absurd hrule (hapart hd he)
  · exact absurd hrule.symm (hapart he hd)
  · obtain rfl : r = r' :=
      Rule.eq_of_mem_emits (hrule ▸ Rule.rule_mem_emits hd) (Rule.rule_mem_emits he)
    exact Rule.unambiguous_run file text o _ d hd e he hkey

/-- Two findings of one check that share their key are the same finding. -/
theorem unambiguous_rawFindings (file : String) (text : Text) (o : Options) :
    Unambiguous (rawFindings file text o) := by
  rw [rawFindings_eq_filter]
  exact fun d hd e he =>
    unambiguous_madeFindings file text o d (List.mem_filter.1 hd).1 e (List.mem_filter.1 he).1

/-- Every finding of a check is about its file. -/
theorem file_eq_of_mem_check {d : Diagnostic} (h : d ∈ check file text o) : d.file = file := by
  obtain ⟨e, he, rfl⟩ := List.mem_map.1 (mem_of_mem_consolidate h)
  rw [rawFindings_eq_filter] at he
  show e.file = file
  rcases mem_madeFindings.1 (List.mem_filter.1 he).1 with he | ⟨r, he⟩
  · exact (Nesting.recovered_of_mem_parse he).standard.file
  · obtain ⟨rule, -, hmade⟩ := r.made he
    exact hmade.file

/-- **A check loses no finding.** Among the wanted findings about a text with their severities, any
two with the same file, line, column, rule and message are the same. So the findings of a check are
the wanted findings of the parser and of all rules with the severities that the options give, each
once, and their keys increase strictly. -/
theorem check_keeps_all (file : String) (text : Text) (o : Options) :
    (∀ d ∈ (rawFindings file text o).map o.judge, ∀ e ∈ (rawFindings file text o).map o.judge,
      compareKey d e = .eq → d = e) ∧
    (∀ d : Diagnostic, d ∈ check file text o ↔
      ∃ e : Diagnostic, (e ∈ (Stylesheet.ofText file text).2 ∨
          ∃ r : Rule, e ∈ r.run (Stylesheet.ofText file text).1 o) ∧
        o.enabled e.rule = true ∧ d = { e with severity := o.severityOf e.rule }) ∧
    (check file text o).Nodup ∧
    (check file text o).Pairwise fun d e => compareKey d e = .lt := by
  have hraw : Unambiguous ((rawFindings file text o).map o.judge) :=
    (unambiguous_rawFindings file text o).map_judge
  have hascending : Ascending (check file text o) := ascending_consolidate _
  refine ⟨hraw, fun d => ?_, hascending.nodup, hascending⟩
  rw [check, hraw.mem_consolidate, rawFindings_eq_filter, List.mem_map]
  constructor
  · rintro ⟨e, he, rfl⟩
    obtain ⟨hmade, hwanted⟩ := List.mem_filter.1 he
    exact ⟨e, mem_madeFindings.1 hmade, hwanted, rfl⟩
  · rintro ⟨e, hmade, hwanted, rfl⟩
    exact ⟨e, List.mem_filter.2 ⟨mem_madeFindings.2 hmade, hwanted⟩, rfl⟩

end HouseStyle
