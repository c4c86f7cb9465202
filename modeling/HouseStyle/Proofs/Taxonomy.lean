/-
HouseStyle.Proofs.Taxonomy — class names and the patterns of the taxonomy.

The patterns are languages of characters and know nothing of scanning: a run is a character of one
class with any number of another behind it, and a pattern is runs with hyphens between them. The
scanner takes as much as it can for each run (`segment?`). That misses nothing, because what follows
a run in a pattern is a hyphen or the end, and a hyphen is part of no run (`segment?_append`).

## How the proof goes

Soundness: the parts of a classified name are runs of the right kind, and put together they are the
name (`takesApart_classify`, along the attempts of the scanner). Completeness: a name that is
composed of such runs is taken apart at the same places, one `classify_*` lemma for each pattern.
The patterns overlap in one place, where the order of the attempts shows: a state is a helper by its
shape, so `classify_helper` needs that the name is no state.
-/
import HouseStyle.ClassName
import HouseStyle.Proofs.Terminals

namespace HouseStyle.ClassName

open Computability
open Selector (single char mem_single_mul mem_star_single mem_char_mul)

/-! ## 1. Patterns -/

/-- A character of one class, and any number of another behind it. -/
def run (head body : Char → Bool) : Language Char := single head * (single body)∗

def upperRun : Language Char := run Char.isUpper Char.isAlphanum

def lowerRun : Language Char := run Char.isLower Char.isAlphanum

def subjectRun : Language Char := run Char.isLower isLowerOrDigit

/-- A small part behind a hyphen. -/
def joined : Language Char := char '-' * lowerRun

/-- A small part behind two hyphens. -/
def modifying : Language Char := char '-' * joined

def componentPattern : Language Char := upperRun

def subComponentPattern : Language Char := upperRun * joined

def modifierPattern : Language Char := upperRun * modifying

def statePattern : Language Char := char 'i' * (char 's' * joined)

/-- The names of helpers, those of states among them. -/
def helperPattern : Language Char := subjectRun * joined

def helperModifierPattern : Language Char := helperPattern * modifying

section Membership

variable {head body : Char → Bool} {t base name rest : Text}

theorem mem_run :
    t ∈ run head body ↔ ∃ c w, head c = true ∧ (∀ d ∈ w, body d = true) ∧ t = c :: w := by
  simp only [run, mem_single_mul, mem_star_single]

theorem mem_joined : t ∈ joined ↔ ∃ name ∈ lowerRun, t = '-' :: name := mem_char_mul

theorem mem_modifying : t ∈ modifying ↔ ∃ name ∈ lowerRun, t = '-' :: '-' :: name := by
  rw [modifying, mem_char_mul]
  constructor
  · rintro ⟨v, hv, rfl⟩
    obtain ⟨name, hname, rfl⟩ := mem_joined.1 hv
    exact ⟨name, hname, rfl⟩
  · rintro ⟨name, hname, rfl⟩
    exact ⟨_, mem_joined.2 ⟨name, hname, rfl⟩, rfl⟩

theorem mem_statePattern :
    t ∈ statePattern ↔ ∃ name ∈ lowerRun, t = 'i' :: 's' :: '-' :: name := by
  rw [statePattern, mem_char_mul]
  constructor
  · rintro ⟨u, hu, rfl⟩
    obtain ⟨v, hv, rfl⟩ := mem_char_mul.1 hu
    obtain ⟨name, hname, rfl⟩ := mem_joined.1 hv
    exact ⟨name, hname, rfl⟩
  · rintro ⟨name, hname, rfl⟩
    exact ⟨_, mem_char_mul.2 ⟨_, mem_joined.2 ⟨name, hname, rfl⟩, rfl⟩, rfl⟩

/-- Words of a language with a small part behind them and `front` in between. -/
theorem mem_mul_lowerRun {L J : Language Char} (front : Text)
    (hJ : ∀ v, v ∈ J ↔ ∃ name ∈ lowerRun, v = front ++ name) :
    t ∈ L * J ↔ ∃ base ∈ L, ∃ name ∈ lowerRun, t = base ++ (front ++ name) := by
  rw [Language.mem_mul]
  constructor
  · rintro ⟨base, hbase, v, hv, rfl⟩
    obtain ⟨name, hname, rfl⟩ := (hJ v).1 hv
    exact ⟨base, hbase, name, hname, rfl⟩
  · rintro ⟨base, hbase, name, hname, rfl⟩
    exact ⟨base, hbase, _, (hJ _).2 ⟨name, hname, rfl⟩, rfl⟩

theorem mem_mul_joined {L : Language Char} :
    t ∈ L * joined ↔ ∃ base ∈ L, ∃ name ∈ lowerRun, t = base ++ '-' :: name :=
  mem_mul_lowerRun ['-'] fun _ => mem_joined

theorem mem_mul_modifying {L : Language Char} :
    t ∈ L * modifying ↔ ∃ base ∈ L, ∃ name ∈ lowerRun, t = base ++ '-' :: '-' :: name :=
  mem_mul_lowerRun ['-', '-'] fun _ => mem_modifying

theorem mem_helperModifierPattern :
    t ∈ helperModifierPattern ↔
      ∃ subject ∈ subjectRun, ∃ base ∈ lowerRun, ∃ name ∈ lowerRun,
        t = subject ++ '-' :: (base ++ '-' :: '-' :: name) := by
  rw [helperModifierPattern, mem_mul_modifying]
  constructor
  · rintro ⟨helper, hhelper, name, hname, rfl⟩
    obtain ⟨subject, hsubject, base, hbase, rfl⟩ := mem_mul_joined.1 hhelper
    exact ⟨subject, hsubject, base, hbase, name, hname, List.append_assoc _ _ _⟩
  · rintro ⟨subject, hsubject, base, hbase, name, hname, rfl⟩
    exact ⟨_, mem_mul_joined.2 ⟨subject, hsubject, base, hbase, rfl⟩, name, hname,
      (List.append_assoc subject ('-' :: base) ('-' :: '-' :: name)).symm⟩

end Membership

/-! ## 2. Segments -/

section Segments

variable {head body : Char → Bool} {t name rest : Text}

theorem isAlphanum_hyphen : Char.isAlphanum '-' = false := by decide

theorem isLowerOrDigit_hyphen : isLowerOrDigit '-' = false := by decide

/-- What a segment takes is a run, and nothing is lost. -/
theorem segment?_eq_some (h : segment? head body t = some (name, rest)) :
    name ∈ run head body ∧ t = name ++ rest := by
  unfold segment? at h
  split at h
  · cases h
  · rename_i c more
    split at h
    · rename_i hc
      obtain ⟨rfl, rfl⟩ := Prod.mk.inj (Option.some.inj h)
      refine ⟨mem_run.2 ⟨c, _, hc, fun d hd => ?_, rfl⟩, ?_⟩
      · exact List.all_eq_true.1 List.all_takeWhile d hd
      · rw [List.cons_append, List.takeWhile_append_dropWhile]
    · cases h

/-- A run is taken whole in front of a character that cannot go on with it. -/
theorem segment?_append (hname : name ∈ run head body)
    (hrest : ∀ c ∈ rest.head?, body c = false) :
    segment? head body (name ++ rest) = some (name, rest) := by
  obtain ⟨c, w, hc, hw, rfl⟩ := mem_run.1 hname
  rw [List.cons_append, segment?, if_pos hc, Text.takeWhile_append_stop hw hrest,
    Text.dropWhile_append_stop hw hrest]

/-- A run is taken whole in front of a hyphen. -/
theorem segment?_append_hyphen (hbody : body '-' = false) (hname : name ∈ run head body) :
    segment? head body (name ++ '-' :: rest) = some (name, '-' :: rest) := by
  refine segment?_append hname ?_
  rintro _ ⟨⟩
  exact hbody

/-- A run is taken whole at the end of the text. -/
theorem segment?_of_mem_run (hname : name ∈ run head body) :
    segment? head body name = some (name, []) := by
  have hend : ∀ c ∈ ([] : Text).head?, body c = false := by simp
  simpa using segment?_append hname hend

/-- A text is read as a small part exactly if it is a small letter with letters and digits behind
it. -/
theorem lowerSegment?_eq_some : lowerSegment? t = some name ↔ t ∈ lowerRun ∧ name = t := by
  unfold lowerSegment?
  constructor
  · intro h
    split at h
    · rename_i taken hseg
      obtain rfl := Option.some.inj h
      obtain ⟨hrun, ht⟩ := segment?_eq_some hseg
      rw [List.append_nil] at ht
      exact ⟨ht ▸ hrun, ht.symm⟩
    · cases h
  · rintro ⟨hrun, rfl⟩
    rw [segment?_of_mem_run hrun]

theorem lowerSegment?_of_mem_lowerRun (h : t ∈ lowerRun) : lowerSegment? t = some t :=
  lowerSegment?_eq_some.2 ⟨h, rfl⟩

end Segments

/-! ## 3. A classified name is composed of runs -/

/-- The parts of the name are runs as its pattern has them. -/
def HasRuns : ClassName → Prop
  | .component name => name ∈ upperRun
  | .subComponent base name => base ∈ upperRun ∧ name ∈ lowerRun
  | .modifier base name => base ∈ upperRun ∧ name ∈ lowerRun
  | .state name => name ∈ lowerRun
  | .helper subject name => subject ∈ subjectRun ∧ name ∈ lowerRun
  | .helperModifier subject base name =>
    subject ∈ subjectRun ∧ base ∈ lowerRun ∧ name ∈ lowerRun
  | .unclassified _ => True

/-- The class takes this name apart: its parts are runs, and put together they are the name. -/
def TakesApart (c : ClassName) (t : Text) : Prop := c.HasRuns ∧ c.raw = t

theorem takesApart_unclassified (t : Text) : (unclassified t).TakesApart t := ⟨trivial, rfl⟩

theorem takesApart_classifyUpper (t : Text) : (classifyUpper t).TakesApart t := by
  unfold classifyUpper
  split
  · exact takesApart_unclassified t
  · rename_i base hbase
    obtain ⟨hrun, rfl⟩ := segment?_eq_some hbase
    exact ⟨hrun, (List.append_nil base).symm⟩
  · rename_i base rest hbase
    obtain ⟨hrun, rfl⟩ := segment?_eq_some hbase
    split
    · rename_i name hname
      obtain ⟨hlower, rfl⟩ := lowerSegment?_eq_some.1 hname
      exact ⟨⟨hrun, hlower⟩, rfl⟩
    · exact takesApart_unclassified _
  · rename_i base rest _ hbase
    obtain ⟨hrun, rfl⟩ := segment?_eq_some hbase
    split
    · rename_i name hname
      obtain ⟨hlower, rfl⟩ := lowerSegment?_eq_some.1 hname
      exact ⟨⟨hrun, hlower⟩, rfl⟩
    · exact takesApart_unclassified _
  · exact takesApart_unclassified t

theorem takesApart_classifyHelper (t : Text) : (classifyHelper t).TakesApart t := by
  unfold classifyHelper
  split
  · rename_i subject rest hsubject
    obtain ⟨hrun, rfl⟩ := segment?_eq_some hsubject
    split
    · rename_i base hbase
      obtain ⟨hlower, rfl⟩ := segment?_eq_some hbase
      exact ⟨⟨hrun, hlower⟩, by rw [raw, List.append_nil]⟩
    · rename_i base more hbase
      obtain ⟨hlower, rfl⟩ := segment?_eq_some hbase
      split
      · rename_i name hname
        obtain ⟨hmore, rfl⟩ := lowerSegment?_eq_some.1 hname
        exact ⟨⟨hrun, hlower, hmore⟩, rfl⟩
      · exact takesApart_unclassified _
    · exact takesApart_unclassified _
  · exact takesApart_unclassified t

theorem takesApart_classifyLower (t : Text) : (classifyLower t).TakesApart t := by
  unfold classifyLower
  split
  · split
    · rename_i name hname
      obtain ⟨hlower, rfl⟩ := lowerSegment?_eq_some.1 hname
      exact ⟨hlower, rfl⟩
    · exact takesApart_classifyHelper _
  · exact takesApart_classifyHelper t

/-- Classification takes a name apart into runs that make up the name again. -/
theorem takesApart_classify (t : Text) : (classify t).TakesApart t := by
  unfold classify
  split
  · exact takesApart_unclassified []
  · split
    · exact takesApart_classifyUpper _
    · split
      · exact takesApart_classifyLower _
      · exact takesApart_unclassified _

/-! ## 4. A name that is composed of runs is classified -/

section Composed

variable {t base subject name : Text}

theorem classify_of_upper (h : base ∈ upperRun) (rest : Text) :
    classify (base ++ rest) = classifyUpper (base ++ rest) := by
  obtain ⟨c, w, hc, -, rfl⟩ := mem_run.1 h
  exact if_pos hc

/-- No capital is a small letter. -/
theorem not_isUpper_of_isLower {c : Char} (h : c.isLower = true) : ¬c.isUpper = true := by
  intro hu
  have hlow : 'a'.val ≤ c.val := of_decide_eq_true (Bool.and_eq_true_iff.1 h).1
  have hhigh : c.val ≤ 'Z'.val := (of_decide_eq_true hu).2
  exact absurd (UInt32.le_trans hlow hhigh) (by decide)

theorem classify_of_lower {c : Char} (hc : c.isLower = true) (rest : Text) :
    classify (c :: rest) = classifyLower (c :: rest) := by
  rw [classify, if_neg (not_isUpper_of_isLower hc), if_pos hc]

theorem ne_hyphen_of_mem_lowerRun (h : name ∈ lowerRun) : ∀ rest, name ≠ '-' :: rest := by
  rintro rest rfl
  obtain ⟨c, w, hc, -, hcons⟩ := mem_run.1 h
  obtain ⟨rfl, -⟩ := List.cons.inj hcons
  exact absurd hc (by decide)

theorem classify_component (h : t ∈ upperRun) : classify t = .component t := by
  have hupper := classify_of_upper h []
  rw [List.append_nil] at hupper
  rw [hupper, classifyUpper, segment?_of_mem_run h]

theorem classify_modifier (hbase : base ∈ upperRun) (hname : name ∈ lowerRun) :
    classify (base ++ '-' :: '-' :: name) = .modifier base name := by
  rw [classify_of_upper hbase, classifyUpper, segment?_append_hyphen isAlphanum_hyphen hbase]
  simp only [lowerSegment?_of_mem_lowerRun hname]

theorem classify_subComponent (hbase : base ∈ upperRun) (hname : name ∈ lowerRun) :
    classify (base ++ '-' :: name) = .subComponent base name := by
  -- the attempt at two hyphens is passed over, because `name` starts with no hyphen
  have hone : ∀ rest, name ≠ '-' :: rest := ne_hyphen_of_mem_lowerRun hname
  rw [classify_of_upper hbase, classifyUpper, segment?_append_hyphen isAlphanum_hyphen hbase]
  simp only [lowerSegment?_of_mem_lowerRun hname]

theorem classify_state (hname : name ∈ lowerRun) :
    classify ('i' :: 's' :: '-' :: name) = .state name := by
  rw [classify_of_lower (by decide), classifyLower]
  simp only [lowerSegment?_of_mem_lowerRun hname]

/-- A name that starts with a small letter and is no state is tried as a helper. -/
theorem classifyLower_of_not_state (h : t ∉ statePattern) : classifyLower t = classifyHelper t := by
  unfold classifyLower
  split
  · rename_i rest
    split
    · rename_i name hname
      exact absurd (mem_statePattern.2 ⟨rest, (lowerSegment?_eq_some.1 hname).1, rfl⟩) h
    · rfl
  · rfl

/-- A name that starts with a subject is taken for a helper, unless it is the name of a state. -/
theorem classify_of_subject {rest : Text} (hsubject : subject ∈ subjectRun)
    (hstate : subject ++ rest ∉ statePattern) :
    classify (subject ++ rest) = classifyHelper (subject ++ rest) := by
  rw [← classifyLower_of_not_state hstate]
  obtain ⟨c, w, hc, -, rfl⟩ := mem_run.1 hsubject
  exact classify_of_lower hc (w ++ rest)

theorem classify_helper (hsubject : subject ∈ subjectRun) (hname : name ∈ lowerRun)
    (hstate : subject ++ '-' :: name ∉ statePattern) :
    classify (subject ++ '-' :: name) = .helper subject name := by
  rw [classify_of_subject hsubject hstate, classifyHelper,
    segment?_append_hyphen isLowerOrDigit_hyphen hsubject]
  simp only [segment?_of_mem_run hname]

/-- The name of a state has one hyphen. -/
theorem count_hyphen_of_mem_statePattern (h : t ∈ statePattern) : t.count '-' = 1 := by
  obtain ⟨name, hname, rfl⟩ := mem_statePattern.1 h
  obtain ⟨c, w, hc, hw, rfl⟩ := mem_run.1 hname
  have hnone : '-' ∉ c :: w := by
    refine List.not_mem_cons_of_ne_of_not_mem ?_ fun hmem => ?_
    · rintro rfl
      exact absurd hc (by decide)
    · exact absurd (hw _ hmem) (by decide)
  simp only [List.count_cons, List.count_eq_zero.2 hnone]
  decide

theorem classify_helperModifier (hsubject : subject ∈ subjectRun) (hbase : base ∈ lowerRun)
    (hname : name ∈ lowerRun) :
    classify (subject ++ '-' :: (base ++ '-' :: '-' :: name)) =
      .helperModifier subject base name := by
  have hstate : subject ++ '-' :: (base ++ '-' :: '-' :: name) ∉ statePattern := by
    intro h
    have hcount := count_hyphen_of_mem_statePattern h
    simp only [List.count_append, List.count_cons_self] at hcount
    omega
  rw [classify_of_subject hsubject hstate, classifyHelper,
    segment?_append_hyphen isLowerOrDigit_hyphen hsubject]
  simp only [segment?_append_hyphen isAlphanum_hyphen hbase, lowerSegment?_of_mem_lowerRun hname]

end Composed

/-! ## 5. The taxonomy -/

/-- How a text is composed of the parts that its pattern has. Parts that a pattern does not have are
empty. -/
inductive Composed : String → Segments → Text → Prop
  | component (name : Text) : Composed "Component" { component := name } name
  | modifier (base name : Text) :
    Composed "Modifier" { component := base, modifier := name } (base ++ '-' :: '-' :: name)
  | subComponent (base name : Text) :
    Composed "SubComponent" { component := base, subComponent := name } (base ++ '-' :: name)
  | state (name : Text) : Composed "State" { state := name } ('i' :: 's' :: '-' :: name)
  | helper (subject name : Text) :
    Composed "Helper" { helperSubject := subject, helper := name } (subject ++ '-' :: name)
  | helperModifier (subject base name : Text) :
    Composed "HelperModifier" { helperSubject := subject, helper := base, modifier := name }
      (subject ++ '-' :: (base ++ '-' :: '-' :: name))
  | unclassified (t : Text) : Composed "Unclassified" {} t

theorem composed_raw (c : ClassName) : Composed c.tag c.segments c.raw := by
  cases c <;> constructor

def pattern : ClassName → Language Char
  | .component _ => componentPattern
  | .subComponent _ _ => subComponentPattern
  | .modifier _ _ => modifierPattern
  | .state _ => statePattern
  | .helper _ _ => helperPattern
  | .helperModifier _ _ _ => helperModifierPattern
  | .unclassified _ => ⊤

/-- A name belongs to the pattern that it is classified under. -/
theorem mem_pattern_classify (t : Text) : t ∈ (classify t).pattern := by
  obtain ⟨hruns, hraw⟩ := takesApart_classify t
  generalize classify t = c at hruns hraw
  subst hraw
  cases c with
  | component name => exact hruns
  | subComponent base name => exact mem_mul_joined.2 ⟨base, hruns.1, name, hruns.2, rfl⟩
  | modifier base name => exact mem_mul_modifying.2 ⟨base, hruns.1, name, hruns.2, rfl⟩
  | state name => exact mem_statePattern.2 ⟨name, hruns, rfl⟩
  | helper subject name => exact mem_mul_joined.2 ⟨subject, hruns.1, name, hruns.2, rfl⟩
  | helperModifier subject base name =>
    exact mem_helperModifierPattern.2
      ⟨subject, hruns.1, base, hruns.2.1, name, hruns.2.2, rfl⟩
  | unclassified raw => trivial

section Tags

variable {t : Text}

/-- A name is in the pattern that its tag names. -/
theorem mem_of_tag (c : ClassName) (h : (classify t).tag = c.tag) : t ∈ c.pattern := by
  have hmem := mem_pattern_classify t
  generalize classify t = d at h hmem
  cases c <;> cases d <;> first | exact hmem | simp [tag] at h

theorem tag_of_mem_componentPattern (h : t ∈ componentPattern) :
    (classify t).tag = "Component" := by
  rw [classify_component h]
  rfl

theorem tag_of_mem_modifierPattern (h : t ∈ modifierPattern) : (classify t).tag = "Modifier" := by
  obtain ⟨base, hbase, name, hname, rfl⟩ := mem_mul_modifying.1 h
  rw [classify_modifier hbase hname]
  rfl

theorem tag_of_mem_subComponentPattern (h : t ∈ subComponentPattern) :
    (classify t).tag = "SubComponent" := by
  obtain ⟨base, hbase, name, hname, rfl⟩ := mem_mul_joined.1 h
  rw [classify_subComponent hbase hname]
  rfl

theorem tag_of_mem_statePattern (h : t ∈ statePattern) : (classify t).tag = "State" := by
  obtain ⟨name, hname, rfl⟩ := mem_statePattern.1 h
  rw [classify_state hname]
  rfl

/-- A state is written like a helper, and is not classified as one. -/
theorem tag_of_mem_helperPattern (h : t ∈ helperPattern) (hstate : t ∉ statePattern) :
    (classify t).tag = "Helper" := by
  obtain ⟨subject, hsubject, name, hname, rfl⟩ := mem_mul_joined.1 h
  rw [classify_helper hsubject hname hstate]
  rfl

theorem tag_of_mem_helperModifierPattern (h : t ∈ helperModifierPattern) :
    (classify t).tag = "HelperModifier" := by
  obtain ⟨subject, hsubject, base, hbase, name, hname, rfl⟩ := mem_helperModifierPattern.1 h
  rw [classify_helperModifier hsubject hbase hname]
  rfl

end Tags

/-- **The taxonomy.** The tag of a name is that of the pattern which the whole name fits: it is a
component, a modifier, a subcomponent, a state or a modified helper if and only if it fits their
pattern, a helper if it fits the pattern of helpers and is no state, and unclassified if it fits
none of them. The name is composed of its parts as its pattern says, and is kept as it is. -/
theorem classify_taxonomy (t : Text) :
    ((classify t).tag = "Component" ↔ t ∈ componentPattern) ∧
      ((classify t).tag = "Modifier" ↔ t ∈ modifierPattern) ∧
      ((classify t).tag = "SubComponent" ↔ t ∈ subComponentPattern) ∧
      ((classify t).tag = "State" ↔ t ∈ statePattern) ∧
      ((classify t).tag = "Helper" ↔ t ∈ helperPattern ∧ t ∉ statePattern) ∧
      ((classify t).tag = "HelperModifier" ↔ t ∈ helperModifierPattern) ∧
      ((classify t).tag = "Unclassified" ↔
        t ∉ componentPattern ∧ t ∉ modifierPattern ∧ t ∉ subComponentPattern ∧
          t ∉ statePattern ∧ t ∉ helperPattern ∧ t ∉ helperModifierPattern) ∧
      Composed (classify t).tag (classify t).segments t ∧ (classify t).raw = t := by
  have hraw : (classify t).raw = t := (takesApart_classify t).2
  have hcomposed := composed_raw (classify t)
  rw [hraw] at hcomposed
  refine ⟨⟨mem_of_tag (.component []), tag_of_mem_componentPattern⟩,
    ⟨mem_of_tag (.modifier [] []), tag_of_mem_modifierPattern⟩,
    ⟨mem_of_tag (.subComponent [] []), tag_of_mem_subComponentPattern⟩,
    ⟨mem_of_tag (.state []), tag_of_mem_statePattern⟩, ?helper,
    ⟨mem_of_tag (.helperModifier [] [] []), tag_of_mem_helperModifierPattern⟩, ?unclassified,
    hcomposed, hraw⟩
  case helper =>
    refine ⟨fun h => ⟨mem_of_tag (.helper [] []) h, fun hstate => ?_⟩,
      fun h => tag_of_mem_helperPattern h.1 h.2⟩
    simp [tag_of_mem_statePattern hstate] at h
  case unclassified =>
    constructor
    · intro h
      have hnot {L : Language Char} {tag : String} (htag : t ∈ L → (classify t).tag = tag)
          (hne : tag ≠ "Unclassified") : t ∉ L :=
        fun hmem => hne ((htag hmem).symm.trans h)
      have hstate : t ∉ statePattern := hnot tag_of_mem_statePattern (by simp)
      exact ⟨hnot tag_of_mem_componentPattern (by simp), hnot tag_of_mem_modifierPattern (by simp),
        hnot tag_of_mem_subComponentPattern (by simp), hstate,
        hnot (tag_of_mem_helperPattern · hstate) (by simp),
        hnot tag_of_mem_helperModifierPattern (by simp)⟩
    · rintro ⟨hcomponent, hmodifier, hsubComponent, hstate, hhelper, hhelperModifier⟩
      have hmem := mem_pattern_classify t
      generalize classify t = c at hmem
      cases c with
      | component name => exact absurd hmem hcomponent
      | subComponent base name => exact absurd hmem hsubComponent
      | modifier base name => exact absurd hmem hmodifier
      | state name => exact absurd hmem hstate
      | helper subject name => exact absurd hmem hhelper
      | helperModifier subject base name => exact absurd hmem hhelperModifier
      | unclassified raw => rfl

/-- A state with a modifying part is no state but a modified helper. -/
example : classify "is-open--wide".toList =
    .helperModifier "is".toList "open".toList "wide".toList := by decide

end HouseStyle.ClassName
