/-
HouseStyle.Proofs.Trimming — rows without the trivia around them, and how declarations are read.

Selectors, preludes and values are recorded without the trivia around them: what is left of a row
stands between the trivia in front and more trivia behind (`Token.exists_append_trimTrivia`).

The statement that a declaration is read off is a name, a colon and a value with trivia around it,
and the fields of the declaration say where these stand (`Declaration.exists_readOff`). What other
modules need to know of the places and bounds of a declaration they take from there.
-/
import HouseStyle.Declaration
import HouseStyle.Proofs.Texts
import Mathlib.Tactic.Conv

namespace HouseStyle

/-! ## 1. Rows without what stands around them -/

namespace Token

variable {ts : List Token} {t : Token}

/-- Around what is left of a row there was only trivia. -/
theorem exists_append_trimTrivia (ts : List Token) :
    ∃ trail, ts = ts.takeWhile (·.isTrivia) ++ (trimTrivia ts ++ trail) ∧
      ∀ t ∈ trail, t.isTrivia = true :=
  Text.exists_append_dropEndWhile isTrivia ts

theorem mem_of_mem_trimTrivia (h : t ∈ trimTrivia ts) : t ∈ ts := by
  obtain ⟨trail, hts, -⟩ := exists_append_trimTrivia ts
  rw [hts]
  exact List.mem_append_right _ (List.mem_append_left _ h)

/-- What is left of a row, and the trivia in front of it, fit in. -/
theorem length_trimTrivia_le (ts : List Token) :
    (ts.takeWhile (·.isTrivia)).length + (trimTrivia ts).length ≤ ts.length := by
  obtain ⟨trail, hts, -⟩ := exists_append_trimTrivia ts
  have hlength := congrArg List.length hts
  rw [List.length_append, List.length_append] at hlength
  omega

/-- What is left of a row starts with something that is no trivia. -/
theorem isTrivia_of_trimTrivia {rest : List Token} (h : trimTrivia ts = t :: rest) :
    t.isTrivia = false := by
  have hprefix : trimTrivia ts <+: ts.dropWhile isTrivia := List.rdropWhile_prefix _ _
  obtain ⟨behind, hbehind⟩ := hprefix
  rw [h, List.cons_append] at hbehind
  have hhead := List.head?_dropWhile_not isTrivia ts
  rwa [← hbehind] at hhead

/-- Nothing is left exactly if there is nothing but trivia. -/
theorem trimTrivia_eq_nil_iff : trimTrivia ts = [] ↔ ∀ t ∈ ts, t.isTrivia = true := by
  constructor
  · intro hnil t ht
    obtain ⟨trail, hts, htrail⟩ := exists_append_trimTrivia ts
    rw [hts, hnil, List.nil_append] at ht
    exact (List.mem_append.1 ht).elim (fun ht => List.mem_takeWhile_imp ht) (htrail t)
  · intro h
    cases hfirst : trimTrivia ts with
    | nil => rfl
    | cons t rest =>
      have hmem : t ∈ ts := mem_of_mem_trimTrivia (by rw [hfirst]; exact List.mem_cons_self)
      have hsolid := isTrivia_of_trimTrivia hfirst
      rw [h t hmem] at hsolid
      cases hsolid

/-- The last token that is left of a row is its last one that is no trivia. -/
theorem getLast?_trimTrivia (ts : List Token) :
    (trimTrivia ts).getLast? = ts.reverse.find? fun t => !t.isTrivia := by
  have hlead : (ts.takeWhile isTrivia).reverse.find? (fun t => !t.isTrivia) = none := by
    rw [List.find?_eq_none]
    intro t ht
    simpa using List.mem_takeWhile_imp (List.mem_reverse.1 ht)
  have hsplit : ts.reverse.find? (fun t => !t.isTrivia) =
      (ts.dropWhile isTrivia).reverse.find? fun t => !t.isTrivia := by
    conv_lhs => rw [← List.takeWhile_append_dropWhile (p := isTrivia) (l := ts)]
    rw [List.reverse_append, List.find?_append, hlead, Option.or_none]
  rw [hsplit, List.find?_not_eq_head?_dropWhile, trimTrivia, Text.dropEndWhile,
    List.getLast?_reverse]

end Token

/-! ## 2. What a declaration is read off -/

namespace Declaration

/-- The declaration is read off a name, a colon, and a value with trivia around it, of which the
first is token number `base`. Without a value no trivia counts as standing in front of it. -/
structure ReadOff (base : Nat) (d : Declaration) (name : List Token) (colon : Token)
    (lead value trail : List Token) : Prop where
  kind : colon.kind = .colon
  earliest : ∀ t ∈ name, t.kind ≠ .colon
  bare : value = [] → lead = []
  around : ∀ t ∈ lead ++ trail, t.isTrivia = true
  opens : ∀ t ∈ value.head?, t.isTrivia = false
  closes : ∀ t ∈ value.getLast?, t.isTrivia = false
  starts : ∃ first, name.head? = some first ∧ d.line = first.line ∧ d.column = first.column
  ends : ∃ last, (colon :: value).getLast? = some last ∧ d.endLine = last.endLine
  colon_eq : d.colon = base + name.length
  start_eq : d.valueSpan.start = d.colon + 1 + lead.length
  stop_eq : d.valueSpan.stop = d.valueSpan.start + value.length
  functions_eq : d.functions = functionCalls value
  property_eq : d.property = Text.trim (Token.plainText name)
  property_ne_nil : d.property ≠ []
  value_eq : d.value = Text.trim (Token.plainText value)

/-- What stands behind a colon is a value with trivia around it. The lead of an empty value counts
as trivia behind it. -/
theorem exists_append_value (behind : List Token) :
    ∃ lead trail, behind = lead ++ (Token.trimTrivia behind ++ trail) ∧
      (Token.trimTrivia behind = [] → lead = []) ∧
      (∀ t ∈ lead ++ trail, t.isTrivia = true) ∧
      lead.length = if (Token.trimTrivia behind).isEmpty then 0
        else (behind.takeWhile (·.isTrivia)).length := by
  obtain ⟨trail, hsplit, htrail⟩ := Token.exists_append_trimTrivia behind
  split
  · rename_i hempty
    have hnil := List.isEmpty_iff.1 hempty
    exact ⟨[], behind, by simp [hnil], fun _ => rfl, Token.trimTrivia_eq_nil_iff.1 hnil, rfl⟩
  · rename_i hsome
    refine ⟨_, trail, hsplit, fun hnil => absurd (List.isEmpty_iff.2 hnil) hsome, ?_, rfl⟩
    exact List.forall_mem_append.2 ⟨fun t ht => List.mem_takeWhile_imp ht, htrail⟩

/-- Every declaration is read off its statement like that. -/
theorem exists_readOff {base : Nat} {ts : List Token} {d : Declaration}
    (h : ofTokens? base ts = some d) :
    ∃ name colon lead value trail, ts = name ++ colon :: (lead ++ (value ++ trail)) ∧
      d.ReadOff base name colon lead value trail := by
  unfold ofTokens? at h
  dsimp only at h
  split at h
  case h_2 => cases h
  rename_i first last colon behind hfirst hlast hbehind
  split at h
  · cases h
  rename_i hproperty
  obtain rfl := Option.some.inj h
  have hts : ts.takeWhile (·.kind != .colon) ++ colon :: behind = ts := by
    rw [← hbehind, List.takeWhile_append_dropWhile]
  have hkind : colon.kind = .colon := by
    have hhead := List.head?_dropWhile_not (·.kind != .colon) ts
    rw [hbehind] at hhead
    simpa using hhead
  obtain ⟨lead, trail, hsplit, hbare, haround, hlead⟩ := exists_append_value behind
  have hearliest : ∀ t ∈ ts.takeWhile (·.kind != .colon), t.kind ≠ .colon := fun t ht => by
    simpa using List.mem_takeWhile_imp ht
  generalize hname : ts.takeWhile (·.kind != .colon) = name at hts hproperty hearliest ⊢
  refine ⟨name, colon, lead, Token.trimTrivia behind, trail, by rw [← hsplit, hts],
    { kind := hkind
      earliest := hearliest
      bare := hbare
      around := haround
      opens := fun t ht => ?_
      closes := fun t ht => ?_
      starts := ⟨first, ?_, rfl, rfl⟩
      ends := ⟨last, ?_, rfl⟩
      colon_eq := rfl
      start_eq := by rw [hlead]
      stop_eq := rfl
      functions_eq := rfl
      property_eq := rfl
      property_ne_nil := by simpa using hproperty
      value_eq := rfl }⟩
  · obtain ⟨rest, hrest⟩ := List.head?_eq_some_iff.1 ht
    exact Token.isTrivia_of_trimTrivia hrest
  · rw [Token.getLast?_trimTrivia] at ht
    simpa using List.find?_some ht
  · cases name with
    | nil => exact absurd rfl hproperty
    | cons t name =>
      rw [← hts] at hfirst
      exact hfirst
  · have hcolon : colon.isTrivia = false := by
      unfold Token.isTrivia
      rw [hkind]
      rfl
    rw [← hlast, Token.getLast?_trimTrivia, List.getLast?_cons, Token.getLast?_trimTrivia, ← hts]
    simp [hcolon, Option.or_some]

/-- The tokens of the value stand where the span of the value says. -/
theorem ReadOff.slice_eq {d : Declaration} {front name lead value trail back : List Token}
    {colon : Token} (hd : d.ReadOff front.length name colon lead value trail) :
    d.valueSpan.slice
      (front ++ ((name ++ colon :: (lead ++ (value ++ trail))) ++ back)).toArray = value := by
  have hsplit : front ++ ((name ++ colon :: (lead ++ (value ++ trail))) ++ back) =
      (front ++ (name ++ colon :: lead)) ++ (value ++ (trail ++ back)) := by simp
  have hstart : d.valueSpan.start = (front ++ (name ++ colon :: lead)).length := by
    rw [hd.start_eq, hd.colon_eq]
    simp only [List.length_append, List.length_cons]
    omega
  rw [Span.slice_toArray, hd.stop_eq, Nat.add_sub_cancel_left, hsplit, hstart, List.drop_left,
    List.take_left]

/-- A declaration starts at the first token of its statement, in front of its colon. -/
theorem first_of_ofTokens? {base : Nat} {ts : List Token} {d : Declaration}
    (h : ofTokens? base ts = some d) :
    ∃ first, ts[0]? = some first ∧ d.line = first.line ∧ d.column = first.column ∧
      base < d.colon := by
  obtain ⟨name, colon, lead, value, trail, rfl, hd⟩ := exists_readOff h
  obtain ⟨first, hfirst, hplace⟩ := hd.starts
  cases name with
  | nil => cases hfirst
  | cons t name =>
    refine ⟨first, hfirst, hplace.1, hplace.2, ?_⟩
    rw [hd.colon_eq]
    exact Nat.lt_add_of_pos_right (Nat.succ_pos _)

/-- The colon of a declaration is a colon. -/
theorem colon_of_ofTokens? {base : Nat} {ts : List Token} {d : Declaration}
    (h : ofTokens? base ts = some d) :
    ∃ t, ts[d.colon - base]? = some t ∧ t.kind = .colon := by
  obtain ⟨name, colon, lead, value, trail, rfl, hd⟩ := exists_readOff h
  refine ⟨colon, ?_, hd.kind⟩
  rw [hd.colon_eq, Nat.add_sub_cancel_left]
  simp

/-- A declaration ends with the last token of its value, or with its colon if it has none. -/
theorem last_of_ofTokens? {base : Nat} {ts : List Token} {d : Declaration}
    (h : ofTokens? base ts = some d) :
    ∃ k t, ts[k]? = some t ∧ d.endLine = t.endLine ∧ base + k + 1 = d.valueSpan.stop := by
  obtain ⟨name, colon, lead, value, trail, rfl, hd⟩ := exists_readOff h
  obtain ⟨last, hlast, hend⟩ := hd.ends
  refine ⟨name.length + lead.length + value.length, last, ?_, hend, ?_⟩
  · cases value with
    | nil =>
      obtain rfl := hd.bare rfl
      obtain rfl : colon = last := Option.some.inj hlast
      simp
    | cons t value =>
      have hvalue : (t :: value)[value.length]? = some last := by
        rw [← hlast, List.getLast?_cons_cons, List.getLast?_eq_getElem?]
        rfl
      have hfront : (name ++ colon :: lead).length = name.length + lead.length + 1 := by
        simp only [List.length_append, List.length_cons, Nat.add_assoc]
      have hsplit : name ++ colon :: (lead ++ (t :: value ++ trail)) =
          (name ++ colon :: lead) ++ (t :: value ++ trail) := by simp
      rw [hsplit, List.length_cons, ← Nat.add_assoc, Nat.add_right_comm, ← hfront,
        List.getElem?_append_right (Nat.le_add_right _ _), Nat.add_sub_cancel_left,
        List.getElem?_append_left (Nat.lt_succ_self _), hvalue]
  · rw [hd.stop_eq, hd.start_eq, hd.colon_eq]
    omega

end Declaration

end HouseStyle
