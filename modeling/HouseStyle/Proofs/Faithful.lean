/-
HouseStyle.Proofs.Faithful — what a declaration says of its statement is what stands there.

A declaration is recorded with numbers of tokens and with texts, and rules read the one or the
other. Here both are compared with the tokens of the statement (`Declaration.Faithful`): which colon
is meant, where the value starts and stops, on which lines the declaration lies, and that name,
colon and value make up all that is written, apart from blanks and comments
(`declarations_faithful`).

## How the proof goes

The statement of a declaration is cut out of the tokens where it starts, up to the first `;`, `{` or
`}` outside parentheses and brackets (`Statement.cut_of_all_eq`), and its first token is no trivia.
What the declaration is read off (`Declaration.ReadOff`) are neighbouring parts of the statement, so
every number is a length, and a token is found by the part it belongs to.
-/
import HouseStyle.Proofs.Adjacency
import HouseStyle.Proofs.RecordedTexts

namespace HouseStyle

/-! ## 1. Where a statement is cut out -/

namespace Statement

/-- A plain statement starts with a token that is no trivia, and is what a cut leaves in front. -/
theorem cut_of_read_eq_plain {first : Token} {rest row : List Token} {semicolon : Option Token}
    (h : (read first rest).1 = .plain row semicolon) :
    row.head? = some first ∧ first.isTrivia = false ∧ (cut [] (first :: rest)).1 = row := by
  unfold read at h
  split at h
  case h_8 =>
    unfold readAtRule at h
    dsimp only at h
    split at h
    · cases h
    · split at h <;> cases h
  case h_9 =>
    have hkind : first.isTrivia = false ∧ isTerminator first.kind = false := by
      unfold Token.isTrivia
      cases hk : first.kind <;> simp_all [isTerminator, Token.Kind.isTrivia]
    have hrow : row = first :: (cut (awaitAfter [] first.kind) rest).1 := by
      unfold readPlain at h
      dsimp only at h
      split at h
      · cases h
        rfl
      · split at h <;> cases h <;> rfl
    rw [cut, hkind.2, Bool.and_false, if_neg Bool.false_ne_true, hrow]
    exact ⟨rfl, hkind.1, rfl⟩
  all_goals cases h

/-- A plain statement is cut out of the tokens where the statements before it stop. -/
theorem cut_of_all_eq {ts row : List Token} {before after : List Statement}
    {semicolon : Option Token} (h : all ts = before ++ .plain row semicolon :: after) :
    ∃ behind, ts = before.flatMap tokens ++ (row ++ behind) ∧
      cut [] (row ++ behind) = (row, behind) ∧
      ∃ first, row.head? = some first ∧ first.isTrivia = false := by
  obtain ⟨first, rest, hts, hread⟩ := exists_read_of_all_eq h
  obtain ⟨hfirst, hsolid, hcut⟩ := cut_of_read_eq_plain hread
  have happend := cut_append [] (first :: rest)
  rw [hcut] at happend
  refine ⟨(cut [] (first :: rest)).2, by rw [happend, hts], ?_, first, hfirst, hsolid⟩
  rw [happend, ← hcut]

end Statement

/-! ## 2. A declaration and its statement -/

section

variable {α : Type} {front mid back : List α} {a : α} {i : Nat}

theorem getElem?_between (h : i < mid.length) :
    (front ++ (mid ++ back))[front.length + i]? = mid[i]? := by
  rw [List.getElem?_append_right (Nat.le_add_right _ _), Nat.add_sub_cancel_left,
    List.getElem?_append_left h]

/-- An element that stands between two rows belongs to what stands there. -/
theorem mem_between (h : (front ++ (mid ++ back))[i]? = some a) (hle : front.length ≤ i)
    (hlt : i < front.length + mid.length) : a ∈ mid := by
  obtain ⟨k, rfl⟩ := Nat.exists_eq_add_of_le hle
  rw [getElem?_between (by omega)] at h
  exact List.mem_of_getElem? h

end

namespace Declaration

/-- The declaration says what stands in its statement, a row of which the first is token number
`start`: the colon is the first one of the row, the name in front of it is not empty, the value
behind it is what is left without the trivia around it, the first and the last token that are no
trivia are where the declaration starts and on the line where it ends, and name, colon and value
are all that is written, apart from blanks and comments. -/
structure Faithful (tokens : List Token) (start : Nat) (row : List Token) (d : Declaration) :
    Prop where
  colon : ∃ t, tokens[d.colon]? = some t ∧ t.kind = .colon
  start_le : start ≤ d.colon
  earliest : ∀ (i : Nat) (t : Token), start ≤ i → i < d.colon → tokens[i]? = some t →
    t.kind ≠ .colon
  property_eq : d.property =
    Text.trim (Token.plainText ((tokens.drop start).take (d.colon - start)))
  property_ne_nil : d.property ≠ []
  colon_lt : d.colon < d.valueSpan.start
  start_le_stop : d.valueSpan.start ≤ d.valueSpan.stop
  stop_le : d.valueSpan.stop ≤ start + row.length
  opens : d.valueSpan.start < d.valueSpan.stop →
    ∃ t, tokens[d.valueSpan.start]? = some t ∧ t.isTrivia = false
  closes : d.valueSpan.start < d.valueSpan.stop →
    ∃ t, tokens[d.valueSpan.stop - 1]? = some t ∧ t.isTrivia = false
  around : ∀ (i : Nat) (t : Token), d.colon < i → i < start + row.length →
    ¬ (d.valueSpan.start ≤ i ∧ i < d.valueSpan.stop) → tokens[i]? = some t → t.isTrivia = true
  value_eq : d.value = Text.trim (Token.plainText (d.valueSpan.slice tokens.toArray))
  starts : ∃ t, row.find? (fun t => !t.isTrivia) = some t ∧ d.line = t.line ∧ d.column = t.column
  ends : ∃ t, row.reverse.find? (fun t => !t.isTrivia) = some t ∧ d.endLine = t.endLine
  written : Text.withoutBlanks (d.property ++ ':' :: d.value) =
    Text.withoutBlanks (Token.source (row.filter fun t => !t.isComment))

namespace ReadOff

variable {d : Declaration} {front name lead value trail back row : List Token} {colon : Token}
variable {base : Nat}

/-- The last token of a statement that is no trivia ends its value, or is its colon. -/
theorem find?_reverse (hd : d.ReadOff base name colon lead value trail) :
    (name ++ colon :: (lead ++ (value ++ trail))).reverse.find? (fun t => !t.isTrivia) =
      (colon :: value).getLast? := by
  have htrail : trail.reverse.find? (fun t => !t.isTrivia) = none :=
    List.find?_eq_none.2 fun t ht => by
      simp [hd.around t (List.mem_append_right _ (List.mem_reverse.1 ht))]
  have hcolon : colon.isTrivia = false := by
    unfold Token.isTrivia
    rw [hd.kind]
    rfl
  rcases List.eq_nil_or_concat value with rfl | ⟨init, last, rfl⟩
  · simp [hd.bare rfl, htrail, hcolon]
  · have hlast : last.isTrivia = false := hd.closes last (by simp)
    simp [htrail, hlast, List.getLast?_cons]

/-- A value whose span covers something has tokens. -/
theorem value_ne_nil (hd : d.ReadOff base name colon lead value trail)
    (h : d.valueSpan.start < d.valueSpan.stop) : value ≠ [] := by
  rintro rfl
  rw [hd.stop_eq] at h
  exact absurd h (Nat.lt_irrefl _)

/-- A name that is recorded has a first token, with which the statement starts. -/
theorem head?_eq (hd : d.ReadOff base name colon lead value trail) :
    ∃ first, (name ++ colon :: (lead ++ (value ++ trail))).head? = some first ∧
      d.line = first.line ∧ d.column = first.column := by
  obtain ⟨first, hfirst, hplace⟩ := hd.starts
  exact ⟨first, by rw [List.head?_append, hfirst, Option.some_or], hplace⟩

/-- Name, colon and value are all that is written, apart from blanks and comments. -/
theorem written {text : Text} (hd : d.ReadOff base name colon lead value trail)
    (hmem : ∀ t ∈ name ++ colon :: (lead ++ (value ++ trail)), t ∈ tokenize text) :
    Text.withoutBlanks (d.property ++ ':' :: d.value) =
      Text.withoutBlanks
        (Token.plainText (name ++ colon :: (lead ++ (value ++ trail)))) := by
  have hcolon : Token.plainText [colon] = [':'] := by
    rw [Token.plainText_of_kind (by rw [hd.kind]; rfl)]
    exact Token.lexeme_of_mark? (hmem colon (by simp)) (by rw [hd.kind]; rfl)
  have hlead : Text.withoutBlanks (Token.plainText lead) = [] :=
    Token.withoutBlanks_of_isTrivia (fun t ht => hmem t (by simp [ht]))
      fun t ht => hd.around t (List.mem_append_left _ ht)
  have htrail : Text.withoutBlanks (Token.plainText trail) = [] :=
    Token.withoutBlanks_of_isTrivia (fun t ht => hmem t (by simp [ht]))
      fun t ht => hd.around t (List.mem_append_right _ ht)
  have hrow : name ++ colon :: (lead ++ (value ++ trail)) =
      name ++ ([colon] ++ (lead ++ (value ++ trail))) := rfl
  have hdeclared : d.property ++ ':' :: d.value = d.property ++ ([':'] ++ d.value) := rfl
  rw [hrow, hdeclared, hd.property_eq, hd.value_eq]
  simp only [Token.plainText_append, Text.withoutBlanks_append, Text.withoutBlanks_trim, hcolon,
    hlead, htrail, List.nil_append, List.append_nil]

section

variable (hd : d.ReadOff front.length name colon lead value trail)
  (hrow : row = name ++ colon :: (lead ++ (value ++ trail)))

include hd hrow

theorem getElem?_colon : (front ++ (row ++ back))[d.colon]? = some colon := by
  have hsplit : front ++ (row ++ back) =
      front ++ (name ++ colon :: (lead ++ (value ++ (trail ++ back)))) := by
    simp [hrow]
  rw [hsplit, hd.colon_eq, ← List.length_append, ← List.append_assoc,
    List.getElem?_append_right (Nat.le_refl _), Nat.sub_self]
  rfl

theorem getElem?_value {i : Nat} (h : i < value.length) :
    (front ++ (row ++ back))[d.valueSpan.start + i]? = value[i]? := by
  have hsplit : front ++ (row ++ back) =
      (front ++ (name ++ colon :: lead)) ++ (value ++ (trail ++ back)) := by
    simp [hrow]
  have hstart : d.valueSpan.start = (front ++ (name ++ colon :: lead)).length := by
    rw [hd.start_eq, hd.colon_eq]
    simp only [List.length_append, List.length_cons]
    omega
  rw [hsplit, hstart, getElem?_between h]

/-- What stands in front of the colon belongs to the name. -/
theorem mem_name {i : Nat} {t : Token} (hle : front.length ≤ i) (hlt : i < d.colon)
    (ht : (front ++ (row ++ back))[i]? = some t) : t ∈ name := by
  have hsplit : front ++ (row ++ back) =
      front ++ (name ++ (colon :: (lead ++ (value ++ trail)) ++ back)) := by
    simp [hrow]
  rw [hsplit] at ht
  exact mem_between ht hle (hd.colon_eq ▸ hlt)

/-- What stands behind the colon and does not belong to the value stands around it. -/
theorem mem_around {i : Nat} {t : Token} (hlt : d.colon < i) (hin : i < front.length + row.length)
    (hout : ¬ (d.valueSpan.start ≤ i ∧ i < d.valueSpan.stop))
    (ht : (front ++ (row ++ back))[i]? = some t) : t ∈ lead ++ trail := by
  have hcolon := hd.colon_eq
  have hstart := hd.start_eq
  have hstop := hd.stop_eq
  by_cases hfront : i < d.valueSpan.start
  · have hsplit : front ++ (row ++ back) =
        (front ++ (name ++ [colon])) ++ (lead ++ (value ++ (trail ++ back))) := by
      simp [hrow]
    rw [hsplit] at ht
    have hlength : (front ++ (name ++ [colon])).length = d.colon + 1 := by
      rw [hcolon]
      simp only [List.length_append, List.length_singleton]
      omega
    exact List.mem_append_left _ (mem_between ht (by omega) (by omega))
  · have hsplit : front ++ (row ++ back) =
        (front ++ (name ++ colon :: (lead ++ value))) ++ (trail ++ back) := by
      simp [hrow]
    rw [hsplit] at ht
    have hlength : (front ++ (name ++ colon :: (lead ++ value))).length = d.valueSpan.stop := by
      rw [hstop, hstart, hcolon]
      simp only [List.length_append, List.length_cons]
      omega
    have hend : front.length + row.length = d.valueSpan.stop + trail.length := by
      rw [← hlength, hrow]
      simp only [List.length_append, List.length_cons]
      omega
    exact List.mem_append_right _ (mem_between ht (by omega) (by omega))

end

/-- A declaration says what stands in the statement that it is read off. -/
theorem faithful {text : Text} (hd : d.ReadOff front.length name colon lead value trail)
    (hrow : row = name ++ colon :: (lead ++ (value ++ trail)))
    (hfirst : ∃ first, row.head? = some first ∧ first.isTrivia = false)
    (hmem : ∀ t ∈ row, t ∈ tokenize text) :
    d.Faithful (front ++ (row ++ back)) front.length row := by
  have hcolon := hd.colon_eq
  have hstart := hd.start_eq
  have hstop := hd.stop_eq
  constructor
  case colon => exact ⟨colon, hd.getElem?_colon hrow, hd.kind⟩
  case start_le => omega
  case earliest => exact fun i t hle hlt ht => hd.earliest t (hd.mem_name hrow hle hlt ht)
  case property_eq =>
    rw [hd.property_eq, hcolon, Nat.add_sub_cancel_left, List.drop_left, hrow, List.append_assoc,
      List.take_left]
  case property_ne_nil => exact hd.property_ne_nil
  case colon_lt => omega
  case start_le_stop => omega
  case stop_le =>
    rw [hrow]
    simp only [List.length_append, List.length_cons]
    omega
  case opens =>
    intro hlt
    obtain ⟨t, more, rfl⟩ := List.exists_cons_of_ne_nil (hd.value_ne_nil hlt)
    exact ⟨t, hd.getElem?_value hrow (i := 0) (Nat.succ_pos _), hd.opens t rfl⟩
  case closes =>
    intro hlt
    obtain ⟨t, hlast⟩ := Option.isSome_iff_exists.1
      (List.getLast?_isSome.2 (hd.value_ne_nil hlt))
    have hindex : d.valueSpan.stop - 1 = d.valueSpan.start + (value.length - 1) := by omega
    refine ⟨t, ?_, hd.closes t hlast⟩
    rw [hindex, hd.getElem?_value hrow (by omega), ← List.getLast?_eq_getElem?, hlast]
  case around =>
    exact fun i t hlt hin hout ht => hd.around t (hd.mem_around hrow hlt hin hout ht)
  case value_eq => rw [hd.value_eq, hrow, hd.slice_eq]
  case starts =>
    obtain ⟨first, hhead, hsolid⟩ := hfirst
    obtain ⟨first', hhead', hplace⟩ := hd.head?_eq
    rw [← hrow, hhead, Option.some.injEq] at hhead'
    subst hhead'
    obtain ⟨rest, rfl⟩ := List.head?_eq_some_iff.1 hhead
    exact ⟨first, by simp [hsolid], hplace⟩
  case ends =>
    obtain ⟨last, hlast, hend⟩ := hd.ends
    exact ⟨last, by rw [hrow, hd.find?_reverse, hlast], hend⟩
  case written =>
    rw [← Token.withoutBlanks_plainText, hrow]
    exact hd.written (hrow ▸ hmem)

end ReadOff

end Declaration

/-! ## 3. Declarations of a stylesheet -/

/-- **Declarations are faithful to their source**, for every declaration of every text. It is read
off a plain statement, which is cut out of the tokens where the statements before it stop, up to the
first `;`, `{` or `}` outside parentheses and brackets. The colon that is recorded is the first of
the statement, the name in front of it is not empty, the value lies behind it in the statement and
starts and ends with tokens that are no trivia, if it has any, with nothing but trivia around it.
The declaration starts at the first token of the statement that is no trivia and ends on the line of
the last. Name, colon and value, without blanks, are the text of the statement without comments and
blanks. -/
theorem declarations_faithful (file : String) (text : Text) :
    let s := (Stylesheet.ofText file text).1
    ∀ d ∈ s.allDeclarations, ∃ before row semicolon after start,
      Statement.all s.tokens = before ++ .plain row semicolon :: after ∧
      start = (before.flatMap Statement.tokens).length ∧
      Statement.cut [] (s.tokens.drop start) = (row, s.tokens.drop (start + row.length)) ∧
      d.Faithful s.tokens start row := by
  intro s d hd
  obtain ⟨before, st, after, hall, hst, -⟩ := Stylesheet.exists_split_of_mem_allDeclarations hd
  cases st with
  | plain row semicolon =>
    obtain ⟨behind, htokens, hcut, hfirst⟩ := Statement.cut_of_all_eq hall
    have hs : s.tokens = before.flatMap Statement.tokens ++ (row ++ behind) := htokens
    obtain ⟨name, colon, lead, value, trail, hrow, hread⟩ := Declaration.exists_readOff hst
    have hmem : ∀ t ∈ row, t ∈ tokenize text := by
      intro t ht
      rw [htokens]
      exact List.mem_append_right _ (List.mem_append_left _ ht)
    refine ⟨before, row, semicolon, after, _, hall, rfl, ?_, ?_⟩
    · rw [hs, List.drop_left, ← List.drop_drop, List.drop_left, List.drop_left, hcut]
    · rw [hs]
      exact Declaration.ReadOff.faithful hread hrow hfirst hmem
  | _ => cases hst

/-- A comment in front of the colon, and a value that runs to the end of the text because a
parenthesis is left open. -/
theorem declarations_faithful_unclosed :
    let text := ".A \x7b\n  top\n/* n */: calc(1px;\n\x7d\n".toList
    let s := (Stylesheet.ofText "a.css" text).1
    ∃ d ∈ s.allDeclarations, (d.colon, d.valueSpan, d.endLine) = (9, ⟨11, 17⟩, 4) ∧
      ∃ start row, d.Faithful s.tokens start row := by
  intro text s
  obtain ⟨d, hd, hfields⟩ : ∃ d ∈ s.allDeclarations,
      (d.colon, d.valueSpan, d.endLine) = (9, ⟨11, 17⟩, 4) := by
    decide +kernel
  obtain ⟨before, row, semicolon, after, start, -, -, -, hfaithful⟩ :=
    declarations_faithful "a.css" text d hd
  exact ⟨d, hd, hfields, start, row, hfaithful⟩

end HouseStyle
