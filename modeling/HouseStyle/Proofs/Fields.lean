/-
HouseStyle.Proofs.Fields — of all fields of an option the last one counts.

A configuration is read field by field, and each field sets one part of what has been read so far.
What a part holds in the end therefore depends on one field alone, the last of its option
(`lastField?`), in whichever spelling that one is written: `Reads` says of an option which part its
fields set and how, and `Reads.foldlM` draws the conclusion once for all of them.

## How the proof goes

`Reading.sets` is the inversion of one step; from it every option has its `Reads` (`reads`), since
the parts of a reading are indexed by the options that set them (`Reading.part`). The fold is an
induction on the fields: the first field matters to a part only if no later one sets it. The second
half is about `Value.put`, which changes a field in its place or adds one behind all others, and so
may or may not change which field is the last of its option.
-/
import HouseStyle.Options.Mapping
import Mathlib.Data.List.Nodup

namespace HouseStyle

/-! ## 1. Keys -/

theorem Points.toString?_ofString (s : String) : (ofString s).toString? = some s := by
  simp [ofString, toString?, Text.shown]

theorem Points.eq_ofText {p : Points} {t : Text} (h : p.toText? = some t) : p = ofText t := by
  unfold toText? at h
  induction p generalizing t with
  | nil =>
    rw [List.mapM_nil] at h
    cases h
    rfl
  | cons c p ih =>
    rw [List.mapM_cons] at h
    obtain ⟨d, hd, h⟩ := Option.bind_eq_some_iff.1 h
    obtain ⟨u, hu, h⟩ := Option.bind_eq_some_iff.1 h
    cases h
    cases c with
    | half => cases hd
    | char e =>
      cases hd
      rw [ih hu]
      rfl

theorem Points.eq_ofString {p : Points} {s : String} (h : p.toString? = some s) :
    p = ofString s := by
  obtain ⟨t, ht, rfl⟩ := Option.map_eq_some_iff.1 h
  rw [eq_ofText ht, ofString, Text.shown, String.toList_ofList]

namespace OptionName

theorem ofSpelling?_camel (name : OptionName) : ofSpelling? name.camel = some name := by
  cases name <;> decide

/-- An option is known by its two spellings only. -/
theorem ofSpelling?_eq_some {key : String} {name : OptionName} (h : ofSpelling? key = some name) :
    key = name.camel ∨ key = name.snake := by
  have hfound := List.find?_some h
  simp only [Bool.or_eq_true, beq_iff_eq] at hfound
  exact hfound.imp Eq.symm Eq.symm

theorem ofKey?_eq_some {key : Points} {name : OptionName} {spelling : String}
    (h : ofKey? key = some (name, spelling)) :
    key = Points.ofString spelling ∧ ofSpelling? spelling = some name := by
  unfold ofKey? at h
  split at h
  · rename_i s hs
    obtain ⟨n, hn, he⟩ := Option.map_eq_some_iff.1 h
    rw [Prod.mk.injEq] at he
    obtain ⟨rfl, rfl⟩ := he
    exact ⟨Points.eq_ofString hs, hn⟩
  · cases h

theorem ofKey?_camel (name : OptionName) :
    ofKey? (Points.ofString name.camel) = some (name, name.camel) := by
  unfold ofKey?
  simp [Points.toString?_ofString, ofSpelling?_camel]

end OptionName

/-! ## 2. One field -/

theorem of_map_eq_ok {ε α β : Type} {f : α → β} {x : Except ε α} {b : β} (h : x.map f = .ok b) :
    ∃ a, x = .ok a ∧ b = f a := by
  cases x with
  | error e => cases h
  | ok a => exact ⟨a, rfl, (Except.ok.inj h).symm⟩

/-- Two steps succeed together only if each of them does. -/
theorem of_bind_eq_ok {ε α β : Type} {x : Except ε α} {f : α → Except ε β} {b : β}
    (h : x >>= f = .ok b) : ∃ a, x = .ok a ∧ f a = .ok b := by
  cases x with
  | error e => cases h
  | ok a => exact ⟨a, rfl, h⟩

theorem mapError_eq_ok {ε ε' α : Type} {f : ε → ε'} {x : Except ε α} {a : α} :
    x.mapError f = .ok a ↔ x = .ok a := by
  cases x <;> simp [Except.mapError]

namespace Options

/-- What a field makes of what has been read so far, option by option. -/
inductive Reading.Sets (r : Reading) : OptionName → String → Value → Reading → Prop where
  | maxNestingDepth {key value n} (read : readInt key value = .ok n) :
      Sets r .maxNestingDepth key value
        { r with draft := { r.draft with maxNestingDepth := n } }
  | maxLineLength {key value n} (read : readInt key value = .ok n) :
      Sets r .maxLineLength key value { r with draft := { r.draft with maxLineLength := n } }
  | indentWidth {key value n} (read : readInt key value = .ok n) :
      Sets r .indentWidth key value { r with draft := { r.draft with indentWidth := n } }
  | vendorExempt {key value b} (read : readBool key value = .ok b) :
      Sets r .vendorExempt key value { r with draft := { r.draft with vendorExempt := b } }
  | enabledRules {key value names rules} (read : readNames key value = .ok names)
      (parsed : readRules names = .ok rules) :
      Sets r .enabledRules key value
        { r with draft := { r.draft with enabled := fun rule => rules.contains rule } }
  | disabledRules {key value names} (read : readNames key value = .ok names) :
      Sets r .disabledRules key value { r with disabled := names }
  | namingAllowlist {key value names} (read : readNames key value = .ok names) :
      Sets r .namingAllowlist key value
        { r with draft := { r.draft with allowlist := names.filterMap Points.toString? } }
  | severityOverrides {key value override} (read : readOverrides key value = .ok override) :
      Sets r .severityOverrides key value { r with draft := { r.draft with override } }

/-- Setting a field changes the part of its option, to what its value says. -/
theorem Reading.sets {r next : Reading} {name : OptionName} {key : String} {value : Value}
    (h : r.set name key value = .ok next) : r.Sets name key value next := by
  cases name with
  | maxNestingDepth =>
    obtain ⟨n, hn, rfl⟩ := of_map_eq_ok h
    exact .maxNestingDepth hn
  | maxLineLength =>
    obtain ⟨n, hn, rfl⟩ := of_map_eq_ok h
    exact .maxLineLength hn
  | indentWidth =>
    obtain ⟨n, hn, rfl⟩ := of_map_eq_ok h
    exact .indentWidth hn
  | vendorExempt =>
    obtain ⟨b, hb, rfl⟩ := of_map_eq_ok h
    exact .vendorExempt hb
  | enabledRules =>
    obtain ⟨names, hnames, h⟩ := of_bind_eq_ok h
    obtain ⟨rules, hrules, h⟩ := of_bind_eq_ok h
    cases h
    exact .enabledRules hnames hrules
  | disabledRules =>
    obtain ⟨names, hnames, rfl⟩ := of_map_eq_ok h
    exact .disabledRules hnames
  | namingAllowlist =>
    obtain ⟨names, hnames, rfl⟩ := of_map_eq_ok h
    exact .namingAllowlist hnames
  | severityOverrides =>
    obtain ⟨o, ho, rfl⟩ := of_map_eq_ok h
    exact .severityOverrides ho

/-! ## 3. The last field of an option -/

/-- The spelling and the value of a field, if it is one of an option. -/
def fieldOf? (name : OptionName) (field : Points × Value) : Option (String × Value) :=
  match OptionName.ofKey? field.1 with
  | some (option, key) => if option = name then some (key, field.2) else none
  | none => none

def lastField? (name : OptionName) : Value.Fields → Option (String × Value)
  | [] => none
  | field :: rest => (lastField? name rest).or (fieldOf? name field)

theorem lastField?_append (name : OptionName) (fields more : Value.Fields) :
    lastField? name (fields ++ more) = (lastField? name more).or (lastField? name fields) := by
  induction fields with
  | nil => simp [lastField?]
  | cons field rest ih => rw [List.cons_append, lastField?, lastField?, ih, Option.or_assoc]

/-- The fields of an option set one part of what is read, to what `read` makes of their value, and
fields of other options do not touch it. -/
structure Reads {α : Type} (name : OptionName) (part : Reading → α)
    (read : String → Value → Except OptionsError α) : Prop where
  own : ∀ {r next : Reading} {key : String} {value : Value},
    r.Sets name key value next → read key value = .ok (part next)
  other : ∀ {r next : Reading} {option : OptionName} {key : String} {value : Value},
    option ≠ name → r.Sets option key value next → part next = part r

/-- What is read into a part is made of the last field of its option, if there is one. -/
theorem Reads.foldlM {α : Type} {name : OptionName} {part : Reading → α}
    {read : String → Value → Except OptionsError α} (h : Reads name part read)
    {fields : Value.Fields} {r last : Reading} (hr : fields.foldlM Reading.take r = .ok last) :
    match lastField? name fields with
    | some (key, value) => read key value = .ok (part last)
    | none => part last = part r := by
  induction fields generalizing r with
  | nil =>
    cases hr
    rfl
  | cons field rest ih =>
    rw [List.foldlM_cons] at hr
    obtain ⟨next, hnext, hrest⟩ := of_bind_eq_ok hr
    have hlater := ih hrest
    rw [lastField?]
    cases hl : lastField? name rest with
    | some found =>
      rw [hl] at hlater
      exact hlater
    | none =>
      rw [hl] at hlater
      rw [Option.none_or, fieldOf?, hlater]
      unfold Reading.take at hnext
      cases hk : OptionName.ofKey? field.1 with
      | none =>
        rw [hk] at hnext
        cases hnext
      | some found =>
        obtain ⟨option, key⟩ := found
        rw [hk] at hnext
        by_cases hname : option = name
        · subst hname
          simpa using h.own (Reading.sets hnext)
        · simpa [hname] using h.other hname (Reading.sets hnext)

/-- What is read from the same last field is the same. -/
theorem Reads.eq_of_lastField?_eq {α : Type} {name : OptionName} {part : Reading → α}
    {read : String → Value → Except OptionsError α} (h : Reads name part read)
    {fields fields' : Value.Fields} {r r' : Reading} (hr : fields.foldlM Reading.take {} = .ok r)
    (hr' : fields'.foldlM Reading.take {} = .ok r')
    (he : lastField? name fields' = lastField? name fields) : part r' = part r := by
  have hread := h.foldlM hr
  have hread' := h.foldlM hr'
  rw [he] at hread'
  cases hlast : lastField? name fields with
  | none =>
    rw [hlast] at hread hread'
    exact hread'.trans hread.symm
  | some found =>
    rw [hlast] at hread hread'
    exact Except.ok.inj (hread'.symm.trans hread)

def readEnabled (key : String) (value : Value) : Except OptionsError (RuleId → Bool) := do
  let names ← readNames key value
  let rules ← readRules names
  pure fun rule => rules.contains rule

def readAllowlist (key : String) (value : Value) : Except OptionsError (List String) :=
  (readNames key value).map fun names => names.filterMap Points.toString?

/-- What the fields of an option can set. -/
def Part : OptionName → Type
  | .maxNestingDepth | .maxLineLength | .indentWidth => Int
  | .vendorExempt => Bool
  | .enabledRules => RuleId → Bool
  | .disabledRules => List Points
  | .namingAllowlist => List String
  | .severityOverrides => RuleId → Option Severity

/-- The part of a reading that the fields of an option set. -/
def Reading.part (r : Reading) : (name : OptionName) → Part name
  | .maxNestingDepth => r.draft.maxNestingDepth
  | .maxLineLength => r.draft.maxLineLength
  | .indentWidth => r.draft.indentWidth
  | .vendorExempt => r.draft.vendorExempt
  | .enabledRules => r.draft.enabled
  | .disabledRules => r.disabled
  | .namingAllowlist => r.draft.allowlist
  | .severityOverrides => r.draft.override

/-- What a field of an option sets its part to. -/
def readPart : (name : OptionName) → String → Value → Except OptionsError (Part name)
  | .maxNestingDepth | .maxLineLength | .indentWidth => readInt
  | .vendorExempt => readBool
  | .enabledRules => readEnabled
  | .disabledRules => readNames
  | .namingAllowlist => readAllowlist
  | .severityOverrides => readOverrides

section

variable {r next : Reading} {name option : OptionName} {key : String} {value : Value}

/-- What a field sets in a reading is what can be read from the field alone. -/
theorem Reading.Sets.readPart_eq (h : r.Sets name key value next) :
    readPart name key value = .ok (next.part name) := by
  cases h with
  | enabledRules read parsed =>
    show (readNames key value >>= fun names => readRules names >>= _) = _
    rw [read]
    show (readRules _ >>= _) = _
    rw [parsed]
    rfl
  | namingAllowlist read =>
    show (readNames key value).map _ = _
    rw [read]
    rfl
  | maxNestingDepth read | maxLineLength read | indentWidth read | vendorExempt read
  | disabledRules read | severityOverrides read => exact read

/-- A field of another option leaves a part alone. -/
theorem Reading.Sets.part_eq (h : r.Sets option key value next) (hne : option ≠ name) :
    next.part name = r.part name := by
  cases h <;> cases name <;> first | rfl | exact absurd rfl hne

/-- The last field of an option alone settles its part of a reading. -/
theorem reads (name : OptionName) : Reads name (·.part name) (readPart name) where
  own h := h.readPart_eq
  other hne h := h.part_eq hne

end

/-! ## 4. Names of rules -/

theorem readNames_eq_ok {key : String} {value : Value} {names : List Points}
    (h : readNames key value = .ok names) :
    ∃ members, value.members? = some members ∧ names = members.map Value.name := by
  unfold readNames at h
  split at h
  · rename_i members hmembers
    exact ⟨members, hmembers, (Except.ok.inj h).symm⟩
  · cases h

theorem readRule_eq_ok {name : Points} {rule : RuleId} :
    readRule name = .ok rule ↔ RuleId.parse name = .ok rule :=
  mapError_eq_ok

/-- The rules of a list of names are the rules that its names are the names of. -/
theorem mem_readRules {names : List Points} {rules : List RuleId}
    (h : readRules names = .ok rules) (rule : RuleId) :
    rule ∈ rules ↔ ∃ name ∈ names, RuleId.parse name = .ok rule := by
  unfold readRules at h
  induction names generalizing rules with
  | nil =>
    cases h
    simp
  | cons name rest ih =>
    rw [List.mapM_cons] at h
    obtain ⟨first, hfirst, h⟩ := of_bind_eq_ok h
    obtain ⟨later, hlater, h⟩ := of_bind_eq_ok h
    cases h
    rw [readRule_eq_ok] at hfirst
    rw [List.mem_cons, ih hlater, List.exists_mem_cons_iff, hfirst, Except.ok.injEq]
    exact or_congr_left eq_comm

/-! ## 5. The options of a reading -/

/-- Options hold what was read, in limits that are in order, without the rules to disable. -/
theorem Reading.finish_eq_ok {r : Reading} {o : Options} (h : r.finish = .ok o) :
    ∃ disabled, readRules r.disabled = .ok disabled ∧
      (o.maxNestingDepth : Int) = r.draft.maxNestingDepth ∧
      (o.maxLineLength : Int) = r.draft.maxLineLength ∧
      o.vendorExempt = r.draft.vendorExempt ∧
      o.enabled = (fun rule => r.draft.enabled rule && !disabled.contains rule) ∧
      o.allowlist = nameSet r.draft.allowlist ∧ o.override = r.draft.override := by
  obtain ⟨disabled, hdisabled, h⟩ := of_bind_eq_ok h
  refine ⟨disabled, hdisabled, ?_⟩
  unfold Draft.approve at h
  split at h
  · cases h
  · split at h
    · cases h
    · split at h
      · cases h
      · rename_i hn hl
        cases h
        refine ⟨Int.toNat_of_nonneg ?_, Int.toNat_of_nonneg ?_, rfl, rfl, rfl, rfl⟩
        · exact Int.le_trans (by decide) (Int.not_lt.1 hn)
        · exact Int.le_trans (by decide) (Int.not_lt.1 hl)

/-- Accepted options come from fields that were all taken, and from a reading that could be
finished. -/
theorem ofFields_eq_ok {fields : Value.Fields} {o : Options} (h : ofFields fields = .ok o) :
    ∃ r, fields.foldlM Reading.take {} = .ok r ∧ r.finish = .ok o :=
  of_bind_eq_ok h

theorem mem_insertName {name n : String} {names : List String} :
    name ∈ insertName n names ↔ name = n ∨ name ∈ names := by
  induction names with
  | nil => simp [insertName]
  | cons m rest ih =>
    unfold insertName
    split
    · exact List.mem_cons
    · rename_i heq
      have hnm : n = m := by simpa using heq
      subst hnm
      simp
    · rw [List.mem_cons, ih, List.mem_cons]
      exact or_left_comm

/-- Putting names in order loses none and adds none. -/
theorem mem_nameSet {name : String} {names : List String} :
    name ∈ nameSet names ↔ name ∈ names := by
  induction names with
  | nil => rfl
  | cons n rest ih =>
    show name ∈ insertName n (nameSet rest) ↔ _
    rw [mem_insertName, ih, List.mem_cons]

/-! ## 6. Fields that are put -/

theorem fieldOf?_camel (name : OptionName) (value : Value) :
    fieldOf? name (Points.ofString name.camel, value) = some (name.camel, value) := by
  unfold fieldOf?
  simp [OptionName.ofKey?_camel]

/-- A field in the first spelling of an option is one of no other option. -/
theorem fieldOf?_of_ne {name option : OptionName} (h : option ≠ name) {field : Points × Value}
    (hkey : field.1 = Points.ofString option.camel) : fieldOf? name field = none := by
  unfold fieldOf?
  simp [hkey, OptionName.ofKey?_camel, h]

/-- A field is one of an option only under one of its two spellings. -/
theorem fieldOf?_eq_some {name : OptionName} {field : Points × Value} {key : String}
    {value : Value} (h : fieldOf? name field = some (key, value)) :
    field = (Points.ofString key, value) ∧ (key = name.camel ∨ key = name.snake) := by
  unfold fieldOf? at h
  split at h
  · rename_i option spelling hk
    obtain ⟨hkey, hspelling⟩ := OptionName.ofKey?_eq_some hk
    by_cases hname : option = name
    · rw [if_pos hname, Option.some.injEq, Prod.mk.injEq] at h
      obtain ⟨rfl, rfl⟩ := h
      subst hname
      exact ⟨Prod.ext hkey rfl, OptionName.ofSpelling?_eq_some hspelling⟩
    · rw [if_neg hname] at h
      cases h
  · cases h

theorem lastField?_eq_some {name : OptionName} {fields : Value.Fields} {key : String}
    {value : Value} (h : lastField? name fields = some (key, value)) :
    (Points.ofString key, value) ∈ fields ∧ (key = name.camel ∨ key = name.snake) := by
  induction fields with
  | nil => cases h
  | cons field rest ih =>
    rw [lastField?] at h
    rcases Option.or_eq_some_iff.1 h with h | ⟨-, h⟩
    · exact ⟨List.mem_cons_of_mem _ (ih h).1, (ih h).2⟩
    · obtain ⟨rfl, hkey⟩ := fieldOf?_eq_some h
      exact ⟨List.mem_cons_self, hkey⟩

/-- An option that has a field in its first spelling has a last field. -/
theorem lastField?_ne_none {name : OptionName} {fields : Value.Fields}
    (h : Points.ofString name.camel ∈ fields.map Prod.fst) : lastField? name fields ≠ none := by
  induction fields with
  | nil => cases h
  | cons field rest ih =>
    rw [lastField?]
    intro hnone
    obtain ⟨hrest, hfield⟩ := Option.or_eq_none_iff.1 hnone
    rw [List.map_cons, List.mem_cons] at h
    rcases h with h | h
    · obtain ⟨key, value⟩ := field
      obtain rfl : Points.ofString name.camel = key := h
      rw [fieldOf?_camel] at hfield
      cases hfield
    · exact ih h hrest

/-- The fields with the value of those under a key replaced. -/
def replaced (fields : Value.Fields) (key : Points) (value : Value) : Value.Fields :=
  fields.map fun f => if f.1 == key then (key, value) else f

/-- A field is put in the place of the one that has its key, or behind all others. -/
theorem put_eq (fields : Value.Fields) (key : Points) (value : Value) :
    key ∈ fields.map Prod.fst ∧ Value.put fields key value = replaced fields key value ∨
      key ∉ fields.map Prod.fst ∧ Value.put fields key value = fields ++ [(key, value)] := by
  have hany : fields.any (·.1 == key) = true ↔ key ∈ fields.map Prod.fst := by
    simp [List.any_eq_true, List.mem_map]
  unfold Value.put
  split
  · rename_i h
    exact .inl ⟨hany.1 h, rfl⟩
  · rename_i h
    exact .inr ⟨fun hmem => h (hany.2 hmem), rfl⟩

theorem map_fst_replaced (fields : Value.Fields) (key : Points) (value : Value) :
    (replaced fields key value).map Prod.fst = fields.map Prod.fst := by
  unfold replaced
  rw [List.map_map]
  refine List.map_congr_left fun field _ => ?_
  show (if field.1 == key then (key, value) else field).1 = field.1
  split
  · rename_i h
    exact (eq_of_beq h).symm
  · rfl

/-- Where no key is repeated, none is after a field is put. -/
theorem nodup_put {fields : Value.Fields} (hkeys : (fields.map Prod.fst).Nodup) (key : Points)
    (value : Value) : ((Value.put fields key value).map Prod.fst).Nodup := by
  rcases put_eq fields key value with ⟨-, hput⟩ | ⟨hnew, hput⟩
  · rw [hput, map_fst_replaced]
    exact hkeys
  · rw [hput, List.map_append]
    refine List.Nodup.append hkeys (List.nodup_singleton _) ?_
    intro other hold hother
    obtain rfl : other = key := by simpa using hother
    exact hnew hold

/-- A new value for one option leaves the last field of every other one. -/
theorem lastField?_replaced_of_ne {name option : OptionName} (h : option ≠ name)
    (fields : Value.Fields) (value : Value) :
    lastField? name (replaced fields (Points.ofString option.camel) value) =
      lastField? name fields := by
  unfold replaced
  induction fields with
  | nil => rfl
  | cons field rest ih =>
    rw [List.map_cons, lastField?, lastField?, ih]
    congr 1
    split
    · rename_i hkey
      rw [fieldOf?_of_ne h rfl, fieldOf?_of_ne h (eq_of_beq hkey)]
    · rfl

/-- Putting a field does not change which field of another option is the last. -/
theorem lastField?_put_of_ne {name option : OptionName} (h : option ≠ name)
    (fields : Value.Fields) (value : Value) :
    lastField? name (Value.put fields (Points.ofString option.camel) value) =
      lastField? name fields := by
  rcases put_eq fields (Points.ofString option.camel) value with ⟨-, hput⟩ | ⟨-, hput⟩
  · rw [hput, lastField?_replaced_of_ne h]
  · rw [hput, lastField?_append]
    simp [lastField?, fieldOf?_of_ne h]

/-- A new value counts for an option exactly if its last field is written in the first spelling. -/
theorem lastField?_replaced (name : OptionName) (fields : Value.Fields) (value : Value) :
    lastField? name (replaced fields (Points.ofString name.camel) value) =
      (lastField? name fields).map fun found =>
        if found.1 = name.camel then (name.camel, value) else found := by
  unfold replaced
  induction fields with
  | nil => rfl
  | cons field rest ih =>
    rw [List.map_cons, lastField?, lastField?, ih, Option.map_or]
    congr 1
    obtain ⟨key, old⟩ := field
    by_cases hkey : key = Points.ofString name.camel
    · subst hkey
      simp [fieldOf?_camel]
    · rw [if_neg (by simpa using hkey)]
      cases hfound : fieldOf? name (key, old) with
      | none => rfl
      | some found =>
        obtain ⟨spelling, w⟩ := found
        have hspelling : spelling ≠ name.camel := by
          intro he
          exact hkey (he ▸ congrArg Prod.fst (fieldOf?_eq_some hfound).1)
        simp [hspelling]

/-- The last field of an option is written in its second spelling. -/
def LastInSnake (name : OptionName) (fields : Value.Fields) : Prop :=
  (lastField? name fields).map Prod.fst = some name.snake

instance (name : OptionName) (fields : Value.Fields) : Decidable (LastInSnake name fields) :=
  inferInstanceAs (Decidable (_ = _))

/-- The last field of an option is written in its second spelling, and an earlier one in its first:
what is put under the first spelling does not count. -/
def Shadowed (name : OptionName) (fields : Value.Fields) : Prop :=
  LastInSnake name fields ∧ Points.ofString name.camel ∈ fields.map Prod.fst

instance (name : OptionName) (fields : Value.Fields) : Decidable (Shadowed name fields) :=
  inferInstanceAs (Decidable (_ ∧ _))

/-- The spelling of the last field of an option depends on that field alone. -/
theorem LastInSnake.congr {name : OptionName} {fields fields' : Value.Fields}
    (he : lastField? name fields' = lastField? name fields) (h : LastInSnake name fields') :
    LastInSnake name fields := by
  unfold LastInSnake at h
  rwa [he] at h

/-- Putting a field does not shadow what is put under another option. -/
theorem shadowed_put_of_ne {name option : OptionName} (h : option ≠ name) {fields : Value.Fields}
    {value : Value}
    (hshadowed : Shadowed name (Value.put fields (Points.ofString option.camel) value)) :
    Shadowed name fields := by
  obtain ⟨hsnake, hmem⟩ := hshadowed
  refine ⟨hsnake.congr (lastField?_put_of_ne h fields value), ?_⟩
  rcases put_eq fields (Points.ofString option.camel) value with ⟨-, hput⟩ | ⟨-, hput⟩
  · rwa [hput, map_fst_replaced] at hmem
  · rw [hput, List.map_append, List.mem_append, List.map_singleton, List.mem_singleton] at hmem
    refine hmem.resolve_right fun he => h ?_
    have hkey := congrArg OptionName.ofKey? he
    rw [OptionName.ofKey?_camel, OptionName.ofKey?_camel] at hkey
    exact (congrArg Prod.fst (Option.some.inj hkey)).symm

/-- A field that is put and not shadowed is the last of its option. -/
theorem lastField?_put {name : OptionName} {fields : Value.Fields} (h : ¬Shadowed name fields)
    (value : Value) :
    lastField? name (Value.put fields (Points.ofString name.camel) value) =
      some (name.camel, value) := by
  rcases put_eq fields (Points.ofString name.camel) value with ⟨hmem, hput⟩ | ⟨-, hput⟩
  · rw [hput, lastField?_replaced]
    cases hlast : lastField? name fields with
    | none => exact absurd hlast (lastField?_ne_none hmem)
    | some found =>
      obtain ⟨key, old⟩ := found
      rcases (lastField?_eq_some hlast).2 with rfl | rfl
      · simp
      · exact absurd ⟨congrArg (Option.map Prod.fst) hlast, hmem⟩ h
  · rw [hput, lastField?_append]
    simp [lastField?, fieldOf?_camel]

end Options

end HouseStyle
