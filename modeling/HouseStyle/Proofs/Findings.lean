/-
HouseStyle.Proofs.Findings — what the findings of each rule have in common.

The registry says of every rule which findings it can make. Here that is checked against what the
rules do (`Rule.made`): every finding of a rule is about its stylesheet, has the standard severity,
and carries an identifier that the rule declares. Most rules give the same advice with every
finding, and for them more is said (`MadeAlike`).
-/
import HouseStyle.Rule

namespace HouseStyle

def Stylesheet.Made (s : Stylesheet) (rule : RuleId) (d : Diagnostic) : Prop :=
  ∃ line column message fix, d = s.finding rule line column message fix

/-- All findings are made under one rule and with the same fix. -/
def Stylesheet.MadeAlike (s : Stylesheet) (rule : RuleId) (ds : List Diagnostic) : Prop :=
  ∃ fix, ∀ d ∈ ds, ∃ line column message, d = s.finding rule line column message fix

namespace Stylesheet

variable {s : Stylesheet} {r : RuleId} {d : Diagnostic}

/-- Whatever a stylesheet reports through its own constructor is made by it. -/
theorem made_finding (s : Stylesheet) (rule : RuleId) (line column : Nat) (message : String)
    (fix : Option String) : s.Made rule (s.finding rule line column message fix) :=
  ⟨line, column, message, fix, rfl⟩

theorem Made.file (h : s.Made r d) : d.file = s.file := by
  obtain ⟨line, column, message, fix, rfl⟩ := h
  rfl

theorem Made.rule (h : s.Made r d) : d.rule = r := by
  obtain ⟨line, column, message, fix, rfl⟩ := h
  rfl

/-- A finding is made with the standard severity; the options judge it later. -/
theorem Made.severity (h : s.Made r d) : d.severity = .standard := by
  obtain ⟨line, column, message, fix, rfl⟩ := h
  rfl

theorem MadeAlike.made {ds : List Diagnostic} (h : s.MadeAlike r ds) (hd : d ∈ ds) :
    s.Made r d := by
  obtain ⟨fix, h⟩ := h
  obtain ⟨line, column, message, he⟩ := h d hd
  exact ⟨line, column, message, fix, he⟩

end Stylesheet

variable (s : Stylesheet) (o : Options)

/-! ## 1. Rules that always give the same advice -/

theorem ClassNaming.madeAlike_check : s.MadeAlike .unknownNamingPattern (check s o) := by
  apply Exists.intro
  intro d hd
  unfold check at hd
  split at hd
  · cases hd
  · obtain ⟨⟨n, selector, c⟩, -, rfl⟩ := List.mem_map.1 hd
    exact ⟨_, _, _, rfl⟩

namespace Blocks

theorem madeAlike_checkDepth : s.MadeAlike .excessiveNesting (checkDepth s o) := by
  apply Exists.intro
  intro d hd
  obtain ⟨n, -, rfl⟩ := List.mem_map.1 hd
  exact ⟨_, _, _, rfl⟩

theorem madeAlike_checkSeparation :
    s.MadeAlike .rulesetSeparatorViolation (checkSeparation s o) := by
  apply Exists.intro
  intro d hd
  obtain ⟨siblings, -, hd⟩ := List.mem_flatMap.1 hd
  obtain ⟨⟨previous, current⟩, -, hd⟩ := List.mem_filterMap.1 hd
  dsimp only at hd
  split at hd
  · cases hd
  · unfold separationFinding? at hd
    dsimp only at hd
    split at hd
    · cases hd
    · exact ⟨_, _, _, (Option.some.inj hd).symm⟩

theorem madeAlike_checkSpacing : s.MadeAlike .braceSpacing (checkSpacing s o) := by
  apply Exists.intro
  intro d hd
  obtain ⟨p, -, hd⟩ := List.mem_filterMap.1 hd
  obtain ⟨message, -, rfl⟩ := Option.map_eq_some_iff.1 hd
  exact ⟨_, _, _, rfl⟩

theorem madeAlike_checkAlignment : s.MadeAlike .closingBraceAlignment (checkAlignment s o) := by
  apply Exists.intro
  intro d hd
  obtain ⟨n, -, hd⟩ := List.mem_filterMap.1 hd
  unfold alignmentFinding? at hd
  split at hd
  · dsimp only at hd
    split at hd
    · cases hd
    · exact ⟨_, _, _, (Option.some.inj hd).symm⟩
  · cases hd

theorem madeAlike_checkSelectorLines :
    s.MadeAlike .selectorNotOnOwnLine (checkSelectorLines s o) := by
  apply Exists.intro
  intro d hd
  obtain ⟨r, -, hd⟩ := List.mem_flatMap.1 hd
  obtain ⟨⟨p, c⟩, -, rfl⟩ := List.mem_map.1 hd
  exact ⟨_, _, _, rfl⟩

end Blocks

theorem CommentShape.madeAlike_check : s.MadeAlike .commentAlignmentViolation (check s o) := by
  apply Exists.intro
  intro d hd
  obtain ⟨c, -, hd⟩ := List.mem_filterMap.1 hd
  obtain ⟨message, -, rfl⟩ := Option.map_eq_some_iff.1 hd
  exact ⟨_, _, _, rfl⟩

namespace Layout

theorem madeAlike_checkLength : s.MadeAlike .lineTooLong (checkLength s o) := by
  apply Exists.intro
  intro d hd
  obtain ⟨⟨line, number⟩, -, rfl⟩ := List.mem_map.1 hd
  exact ⟨_, _, _, rfl⟩

theorem madeAlike_checkTrailing : s.MadeAlike .trailingWhitespace (checkTrailing s o) := by
  apply Exists.intro
  intro d hd
  obtain ⟨⟨line, number⟩, -, hd⟩ := List.mem_filterMap.1 hd
  dsimp only at hd
  split at hd
  · cases hd
  · exact ⟨_, _, _, (Option.some.inj hd).symm⟩

theorem madeAlike_checkTabs : s.MadeAlike .tabCharacterUsed (checkTabs s o) := by
  apply Exists.intro
  intro d hd
  obtain ⟨t, -, rfl⟩ := List.mem_map.1 hd
  exact ⟨_, _, _, rfl⟩

end Layout

theorem Values.madeAlike_checkZeros : s.MadeAlike .unitOnZeroValue (checkZeros s o) := by
  apply Exists.intro
  intro d hd
  obtain ⟨t, -, rfl⟩ := List.mem_map.1 hd
  exact ⟨_, _, _, rfl⟩

/-! ## 2. Rules whose advice depends on what was found -/

variable {s o} {d : Diagnostic}

namespace DeclarationOrder

theorem made_checkGroups (h : d ∈ checkGroups s o) : s.Made .declarationGroupOutOfOrder d := by
  obtain ⟨⟨p, c⟩, -, rfl⟩ := List.mem_map.1 h
  exact s.made_finding _ _ _ _ _

theorem made_checkNames (h : d ∈ checkNames s o) : s.Made .declarationNotAlphabetical d := by
  obtain ⟨⟨p, c⟩, -, rfl⟩ := List.mem_map.1 h
  exact s.made_finding _ _ _ _ _

/-- What is wrong with the blank lines in front of a declaration is one of two things. -/
theorem separationFinding?_cases {lines : List Text} {p c : Declaration}
    (h : separationFinding? s lines p c = some d) :
    (∃ message, d = s.finding .unexpectedBlankLineWithinGroup c.line c.column message
      (some s!"Remove the blank line before '{shown c}'.")) ∨
    (∃ message, d = s.finding .missingGroupSeparator c.line c.column message
      (some s!"Insert a blank line before '{shown c}'.")) := by
  unfold separationFinding? at h
  dsimp only at h
  split at h
  · cases h
  split at h
  · split at h
    · cases h
    · exact .inl ⟨_, (Option.some.inj h).symm⟩
  · split at h
    · exact .inr ⟨_, (Option.some.inj h).symm⟩
    · cases h

theorem made_checkSeparation (h : d ∈ checkSeparation s o) :
    s.Made .missingGroupSeparator d ∨ s.Made .unexpectedBlankLineWithinGroup d := by
  obtain ⟨⟨p, c⟩, -, hd⟩ := List.mem_filterMap.1 h
  rcases separationFinding?_cases hd with ⟨message, rfl⟩ | ⟨message, rfl⟩
  · exact .inr (s.made_finding _ _ _ _ _)
  · exact .inl (s.made_finding _ _ _ _ _)

end DeclarationOrder

namespace Layout

theorem made_checkIndentation (h : d ∈ checkIndentation s o) : s.Made .indentationMismatch d := by
  obtain ⟨⟨t, expected, found⟩, -, rfl⟩ := List.mem_map.1 h
  exact s.made_finding _ _ _ _ _

/-- The end of a text has at most one finding. -/
theorem checkEnd_cases (s : Stylesheet) (o : Options) :
    checkEnd s o = [] ∨ ∃ d, checkEnd s o = [d] ∧ s.Made .fileEndWhitespace d := by
  unfold checkEnd
  dsimp only
  split
  · exact .inl rfl
  split
  · exact .inr ⟨_, rfl, s.made_finding _ _ _ _ _⟩
  split
  · exact .inl rfl
  · exact .inr ⟨_, rfl, s.made_finding _ _ _ _ _⟩

theorem made_checkEnd (h : d ∈ checkEnd s o) : s.Made .fileEndWhitespace d := by
  rcases checkEnd_cases s o with he | ⟨e, he, hmade⟩
  · rw [he] at h
    cases h
  · rw [he, List.mem_singleton] at h
    exact h ▸ hmade

end Layout

namespace Values

theorem made_checkColons (h : d ∈ checkColons s o) : s.Made .colonSpacing d := by
  obtain ⟨declaration, -, hd⟩ := List.mem_flatMap.1 h
  unfold colonFindings at hd
  split at hd
  · cases hd
  · obtain ⟨message, -, rfl⟩ := List.mem_map.1 hd
    exact s.made_finding _ _ _ _ _

theorem made_checkCommas (h : d ∈ checkCommas s o) : s.Made .commaSpacing d := by
  obtain ⟨p, -, hd⟩ := List.mem_flatMap.1 h
  obtain ⟨⟨message, fix⟩, -, rfl⟩ := List.mem_map.1 hd
  exact s.made_finding _ _ _ _ _

theorem made_checkColors (h : d ∈ checkColors s o) : s.Made .hexCaseOrLength d := by
  obtain ⟨t, -, hd⟩ := List.mem_filterMap.1 h
  unfold colorFinding? at hd
  dsimp only at hd
  split at hd
  · rw [← Option.some.inj hd]
    exact s.made_finding _ _ _ _ _
  · cases hd

theorem made_checkQuotes (h : d ∈ checkQuotes s o) : s.Made .quoteStyle d := by
  obtain ⟨t, -, rfl⟩ := List.mem_map.1 h
  exact s.made_finding _ _ _ _ _

end Values

/-! ## 3. The registry -/

/-- Every finding of a rule is about its stylesheet and carries an identifier that the rule
declares. -/
theorem Rule.made {r : Rule} (h : d ∈ r.run s o) : ∃ rule ∈ r.emits, s.Made rule d := by
  cases r with
  | classNaming => exact ⟨_, by simp [emits], (ClassNaming.madeAlike_check s o).made h⟩
  | groupOrder => exact ⟨_, by simp [emits], DeclarationOrder.made_checkGroups (o := o) h⟩
  | alphabeticalOrder => exact ⟨_, by simp [emits], DeclarationOrder.made_checkNames (o := o) h⟩
  | groupSeparation =>
    rcases DeclarationOrder.made_checkSeparation (o := o) h with hd | hd
    · exact ⟨_, by simp [emits], hd⟩
    · exact ⟨_, by simp [emits], hd⟩
  | nestingDepth => exact ⟨_, by simp [emits], (Blocks.madeAlike_checkDepth s o).made h⟩
  | blockSeparation => exact ⟨_, by simp [emits], (Blocks.madeAlike_checkSeparation s o).made h⟩
  | commentShape => exact ⟨_, by simp [emits], (CommentShape.madeAlike_check s o).made h⟩
  | lineLength => exact ⟨_, by simp [emits], (Layout.madeAlike_checkLength s o).made h⟩
  | tabs => exact ⟨_, by simp [emits], (Layout.madeAlike_checkTabs s o).made h⟩
  | indentation => exact ⟨_, by simp [emits], Layout.made_checkIndentation (o := o) h⟩
  | braceSpacing => exact ⟨_, by simp [emits], (Blocks.madeAlike_checkSpacing s o).made h⟩
  | braceAlignment => exact ⟨_, by simp [emits], (Blocks.madeAlike_checkAlignment s o).made h⟩
  | selectorLines => exact ⟨_, by simp [emits], (Blocks.madeAlike_checkSelectorLines s o).made h⟩
  | colonSpacing => exact ⟨_, by simp [emits], Values.made_checkColons (o := o) h⟩
  | hexColors => exact ⟨_, by simp [emits], Values.made_checkColors (o := o) h⟩
  | quoteStyle => exact ⟨_, by simp [emits], Values.made_checkQuotes (o := o) h⟩
  | zeroUnits => exact ⟨_, by simp [emits], (Values.madeAlike_checkZeros s o).made h⟩
  | commaSpacing => exact ⟨_, by simp [emits], Values.made_checkCommas (o := o) h⟩
  | trailingWhitespace => exact ⟨_, by simp [emits], (Layout.madeAlike_checkTrailing s o).made h⟩
  | fileEnd => exact ⟨_, by simp [emits], Layout.made_checkEnd (o := o) h⟩

/-- A rule reports under its own identifiers only. -/
theorem Rule.rule_mem_emits {r : Rule} (h : d ∈ r.run s o) : d.rule ∈ r.emits := by
  obtain ⟨rule, hrule, hmade⟩ := r.made h
  rw [hmade.rule]
  exact hrule

end HouseStyle
