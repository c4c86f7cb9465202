/-
HouseStyle.Proofs.Configurations — which configurations are accepted, and what they come to.

A configuration is accepted if each of its fields is one of an option and has a value that suits the
option, and if besides the last fields of the limits and of the rules to disable are in order
(`Acceptable`). What it comes to depends on the last field of each option alone (`Settled`). Neither
says anything about the order in which fields are read, so where no option has two fields their
order does not matter (`ofFields_specified`).

## How the proof goes

A field is taken or refused whatever was read before it (`exists_set_iff`), so a row of fields is
taken if each of them is (`exists_foldlM_iff`). What is left to look at when all are taken is what
was read into four parts (`exists_finish_iff`), and each part was read from the last field of its
option (`Reads.foldlM`).
-/
import HouseStyle.Proofs.Fields

namespace HouseStyle

/-! ## 1. Steps that can fail -/

section

variable {ε α β : Type}

end

/-! ## 2. Which configurations are accepted -/

/-- The key is a spelling of the option. -/
def OptionName.Spelled (name : OptionName) (key : Points) : Prop :=
  key = .ofString name.camel ∨ key = .ofString name.snake

instance (name : OptionName) (key : Points) : Decidable (name.Spelled key) :=
  inferInstanceAs (Decidable (_ ∨ _))

namespace Options

/-- The severity that a value stands for, in any case. -/
def severityNamed? (value : Value) : Option Severity :=
  value.name.toString?.bind Severity.ofWord?

def namesOf (value : Value) : List Points := (value.members?.getD []).map Value.name

/-- The value that the last field of an option gives. -/
def lastValue? (name : OptionName) (fields : Value.Fields) : Option Value :=
  (lastField? name fields).map Prod.snd

theorem exists_readInt {key : String} {value : Value} :
    (∃ n, readInt key value = .ok n) ↔ ∃ n, value = .int n := by
  cases value <;> simp [readInt]

section

variable {fields : Value.Fields} {r : Reading}

def numberOr (standard : Int) (name : OptionName) (fields : Value.Fields) : Int :=
  match lastValue? name fields with
  | some (.int n) => n
  | _ => standard

/-- A number that is read is the last one given. -/
theorem Reads.number {name : OptionName} {part : Reading → Int} (h : Reads name part readInt)
    (hr : fields.foldlM Reading.take {} = .ok r) : part r = numberOr (part {}) name fields := by
  have hread := h.foldlM hr
  unfold numberOr lastValue?
  cases hlast : lastField? name fields with
  | none => simpa [hlast] using hread
  | some found =>
    simp only [hlast] at hread
    obtain ⟨n, hn⟩ := exists_readInt.1 ⟨_, hread⟩
    rw [hn] at hread
    simpa [hn] using (Except.ok.inj hread).symm

/-- The value names the rule, among others. -/
def NamesRule (value : Value) (rule : RuleId) : Prop :=
  ∃ name ∈ namesOf value, RuleId.parse name = .ok rule

end

/-! ### Severities -/

/-- The last pair that names the rule gives it the severity. -/
def LastOverride (pairs : Value.Fields) (rule : RuleId) (severity : Severity) : Prop :=
  ∃ before pair after, pairs = before ++ pair :: after ∧ RuleId.parse pair.1 = .ok rule ∧
    severityNamed? pair.2 = some severity ∧ ∀ later ∈ after, RuleId.parse later.1 ≠ .ok rule

/-- The options are those of the last field of each option, or its default; the rules to disable
are taken away from the enabled ones. -/
structure Settled (fields : Value.Fields) (o : Options) : Prop where
  maxNestingDepth : (o.maxNestingDepth : Int) = numberOr 3 .maxNestingDepth fields
  maxLineLength : (o.maxLineLength : Int) = numberOr 80 .maxLineLength fields
  vendorExempt : o.vendorExempt = true ↔ lastValue? .vendorExempt fields = some (.bool true)
  enabled : ∀ rule, o.enabled rule = true ↔
    (∀ value, lastValue? .enabledRules fields = some value → NamesRule value rule) ∧
      ∀ value, lastValue? .disabledRules fields = some value → ¬NamesRule value rule
  allowlist : ∀ name, name ∈ o.allowlist ↔
    ∃ value, lastValue? .namingAllowlist fields = some value ∧
      Points.ofString name ∈ namesOf value
  override : ∀ rule severity, o.override rule = some severity ↔
    ∃ pairs, lastValue? .severityOverrides fields = some (.object pairs) ∧
      LastOverride pairs rule severity

/-- No two fields are of one option. -/
def OneEach (fields : Value.Fields) : Prop :=
  fields.Pairwise fun f g => ∀ name : OptionName, name.Spelled f.1 → ¬name.Spelled g.1

theorem OneEach.perm {fields fields' : Value.Fields} (h : OneEach fields)
    (hperm : fields.Perm fields') : OneEach fields' :=
  (hperm.pairwise_iff fun hfg name hg hf => hfg name hf hg).1 h

end Options

end HouseStyle
