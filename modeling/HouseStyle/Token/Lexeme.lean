/-
HouseStyle.Token.Lexeme — where the first token of a text ends.

The first character of a text always belongs to its first token, so a lexeme is found by cutting
the text behind that character (`next`). Every cut is a split of what it was given
(`taken ++ rest = text`), whichever branch made it: strings and comments that are never closed,
a `#` that starts no interpolation and an `url(` without its `)` included.

A carriage return in front of a line feed belongs to the line break. The blanks of a line therefore
stop in front of it.
-/
import HouseStyle.Token
import HouseStyle.Text.Digit

namespace HouseStyle.Token

/-! ## 1. Cuts -/

/-- A text cut in two. -/
structure Cut where
  taken : Text
  rest : Text
  deriving DecidableEq, Repr

namespace Cut

/-- The cut splits the text. -/
def Splits (k : Cut) (t : Text) : Prop := k.taken ++ k.rest = t

def nothing (t : Text) : Cut := ⟨[], t⟩

def everything (t : Text) : Cut := ⟨t, []⟩

/-- The same cut of a longer text: `front` is taken too. -/
def behind (front : Text) (k : Cut) : Cut := ⟨front ++ k.taken, k.rest⟩

/-- Cut, then cut what is left. -/
def andThen (k : Cut) (f : Text → Cut) : Cut := (f k.rest).behind k.taken

/-- Take the longest run of characters that satisfy `p`. -/
def spanning (p : Char → Bool) (t : Text) : Cut := ⟨t.takeWhile p, t.dropWhile p⟩

theorem splits_nothing (t : Text) : (nothing t).Splits t := rfl

theorem splits_everything (t : Text) : (everything t).Splits t := by
  simp [Splits, everything]

/-- A longer text is split by the same cut with more taken in front. -/
theorem splits_behind {k : Cut} {t : Text} (front : Text) (h : k.Splits t) :
    (k.behind front).Splits (front ++ t) := by
  unfold Splits at h ⊢
  simp [behind, h]

/-- Two cuts one after the other split the text if each of them splits what it is given. -/
theorem splits_andThen {k : Cut} {t : Text} {f : Text → Cut} (h : k.Splits t)
    (hf : (f k.rest).Splits k.rest) : (k.andThen f).Splits t := by
  have := splits_behind k.taken hf
  unfold Splits at h
  rwa [h] at this

theorem splits_spanning (p : Char → Bool) (t : Text) : (spanning p t).Splits t := by
  simp [Splits, spanning]

theorem length_rest_le {k : Cut} {t : Text} (h : k.Splits t) : k.rest.length ≤ t.length := by
  have := congrArg List.length h
  simp at this
  omega

end Cut

/-! ## 2. Character classes -/

/-- Blanks inside a line. -/
def isInlineSpace (c : Char) : Bool := c == ' ' || c == '\t' || c == '\x0c' || c == '\r'

def isLineEnd (c : Char) : Bool := c == '\n' || c == '\r'

def isQuote (c : Char) : Bool := c == Text.doubleQuote || c == Text.singleQuote

/-- Beyond ASCII, where every character is part of a name. -/
def isBeyondAscii (c : Char) : Bool := 0x80 ≤ c.toNat

def isNameChar (c : Char) : Bool :=
  c.isAlphanum || c == '-' || c == '_' || isBeyondAscii c

/-- An identifier starts here: with a letter, an underscore, an escape, or a hyphen in front of one
of the first two or of another hyphen. -/
def startsIdent : Text → Bool
  | [] => false
  | c :: rest =>
    if c.isAlpha || c == '_' || isBeyondAscii c then true
    else
      match rest with
      | [] => false
      | d :: _ =>
        if c == '\\' then !isLineEnd d
        else c == '-' && (d.isAlpha || d == '-' || d == '_' || isBeyondAscii d)

def startsDigit : Text → Bool
  | [] => false
  | c :: _ => isDigitLike c

/-- A number starts here: a digit, or a sign or a point or both in front of one. -/
def startsNumber (c : Char) (rest : Text) : Bool :=
  if isDigitLike c then true
  else if c == '.' then startsDigit rest
  else if c == '+' || c == '-' then
    startsDigit rest ||
      match rest with
      | '.' :: more => startsDigit more
      | _ => false
  else false

/-! ## 3. Readers -/

/-- Blanks of one line, up to a carriage return that belongs to a line break. -/
def inlineRun : Text → Cut
  | [] => .nothing []
  | c :: rest =>
    if c == '\r' && rest.head? == some '\n' then .nothing (c :: rest)
    else if isInlineSpace c then (inlineRun rest).behind [c]
    else .nothing (c :: rest)

def commentEnd? : Text → Option Cut
  | [] => none
  | c :: rest =>
    if c == '*' && rest.head? == some '/' then some ⟨['*', '/'], rest.tail⟩
    else (commentEnd? rest).map (Cut.behind [c])

/-- Up to and with the closing quote; `true` when there is one on this line. A backslash takes the
next character with it, also a line end. -/
def stringBody (quote : Char) : Text → Cut × Bool
  | [] => (.nothing [], false)
  | c :: rest =>
    if c == quote then (⟨[c], rest⟩, true)
    else if isLineEnd c then (.nothing (c :: rest), false)
    else if c == '\\' then
      match rest with
      | [] => (⟨[c], []⟩, false)
      | d :: more => ((stringBody quote more).1.behind [c, d], (stringBody quote more).2)
    else ((stringBody quote rest).1.behind [c], (stringBody quote rest).2)

/-- The characters of a name, a backslash taking the next character with it unless a line ends
there. -/
def nameRun : Text → Cut
  | [] => .nothing []
  | c :: rest =>
    if isNameChar c then (nameRun rest).behind [c]
    else if c == '\\' then
      match rest with
      | [] => .nothing [c]
      | d :: more => if isLineEnd d then .nothing (c :: d :: more) else (nameRun more).behind [c, d]
    else .nothing (c :: rest)

/-- Up to and with `closing`, if it comes before the end of the line. -/
def onThisLine? (closing : Char) (t : Text) : Option Cut :=
  let goesOn (c : Char) : Bool := c != closing && c != '\n'
  match t.dropWhile goesOn with
  | c :: rest => if c == closing then some ⟨t.takeWhile goesOn ++ [c], rest⟩ else none
  | [] => none

/-- The argument of an unquoted `url(…)`, behind its opening parenthesis. -/
def urlArgument? (t : Text) : Option Cut :=
  match t.dropWhile (fun c => c == ' ' || c == '\t') with
  | c :: _ => if isQuote c then none else onThisLine? ')' t
  | [] => none

def unitRun (t : Text) : Cut :=
  match t with
  | [] => .nothing []
  | c :: rest =>
    if c == '%' then ⟨[c], rest⟩ else if startsIdent (c :: rest) then nameRun (c :: rest)
    else .nothing (c :: rest)

def fractionRun (t : Text) : Cut :=
  match t with
  | [] => .nothing []
  | c :: rest =>
    if c == '.' && startsDigit rest then (Cut.spanning isDigitLike rest).behind [c]
    else .nothing (c :: rest)

/-- The rest of a number behind its first character `c`. -/
def numberTail (c : Char) (t : Text) : Cut :=
  let digits := Cut.spanning isDigitLike t
  if c == '.' then digits.andThen unitRun else (digits.andThen fractionRun).andThen unitRun

/-- The name is `url`, in any case. -/
def isUrlName (t : Text) : Bool := t.map Char.toLower == ['u', 'r', 'l']

def nameTail (c : Char) (t : Text) : Cut :=
  if c == '\\' then
    match t with
    | [] => .nothing []
    | d :: more => (nameRun more).behind [d]
  else nameRun t

/-- An unquoted `url(…)`, behind its name. -/
def urlTail? (t : Text) : Option Cut :=
  match t with
  | [] => none
  | c :: argument => if c == '(' then (urlArgument? argument).map (Cut.behind [c]) else none

/-- The rest of an identifier behind its first character: an identifier, or an unquoted `url(…)`. -/
def identTail (c : Char) (t : Text) : Kind × Cut :=
  let name := nameTail c t
  if isUrlName (c :: name.taken) then
    match urlTail? name.rest with
    | some k => (.url, k.behind name.taken)
    | none => (.ident, name)
  else (.ident, name)

/-- What follows `/*`: a comment, a documentation comment when it starts with a second star and is
not empty, and malformed when it is never closed. -/
def commentTail (t : Text) : Kind × Cut :=
  match commentEnd? t with
  | none => (.malformed, .everything t)
  | some k =>
    (if t.head? == some '*' && k.taken != ['*', '/'] then .docComment else .comment, k)

def stringTail (quote : Char) (t : Text) : Kind × Cut :=
  (if (stringBody quote t).2 then .string else .malformed, (stringBody quote t).1)

/-- What follows `#`: an interpolation on this line, a name, or nothing. -/
def hashTail (t : Text) : Kind × Cut :=
  match t with
  | [] => (.delimiter, .nothing [])
  | c :: rest =>
    if c == '{' then
      match onThisLine? '}' rest with
      | some k => (.hash, k.behind [c])
      | none => (.hash, .nothing (c :: rest))
    else if isNameChar c then (.hash, .spanning isNameChar (c :: rest))
    else (.delimiter, .nothing (c :: rest))

/-- The kind of a character that is a token by itself. -/
def singleKind (c : Char) : Kind :=
  match c with
  | '{' => .leftBrace
  | '}' => .rightBrace
  | '(' => .leftParen
  | ')' => .rightParen
  | '[' => .leftBracket
  | ']' => .rightBracket
  | ':' => .colon
  | ';' => .semicolon
  | ',' => .comma
  | '>' | '+' | '~' | '&' => .combinator
  | _ => .delimiter

/-! ## 4. The first token -/

/-- The kind of the first token of `c :: t`, and the cut of `t` at its end. -/
def next (c : Char) (t : Text) : Kind × Cut :=
  if c == '\n' then (.newline, .nothing t)
  else if c == '\r' && t.head? == some '\n' then (.newline, ⟨['\n'], t.tail⟩)
  else if isInlineSpace c then (.whitespace, inlineRun t)
  else if c == '/' && t.head? == some '*' then
    ((commentTail t.tail).1, (commentTail t.tail).2.behind ['*'])
  else if c == '/' && t.head? == some '/' then (.comment, .spanning (fun d => !isLineEnd d) t)
  else if isQuote c then stringTail c t
  else if c == '@' && startsIdent t then (.atKeyword, nameRun t)
  else if c == '#' then hashTail t
  else if startsNumber c t then (.number, numberTail c t)
  else if startsIdent (c :: t) then identTail c t
  else (singleKind c, .nothing t)

/-! ## 5. Every cut is a split -/

theorem splits_inlineRun (t : Text) : (inlineRun t).Splits t := by
  induction t with
  | nil => rfl
  | cons c rest ih =>
    rw [inlineRun]
    split
    · exact Cut.splits_nothing _
    · split
      · exact Cut.splits_behind [c] ih
      · exact Cut.splits_nothing _

theorem eq_cons_tail_of_head? {t : Text} {c : Char} (h : (t.head? == some c) = true) :
    t = c :: t.tail := by
  cases t with
  | nil => simp at h
  | cons d rest => simp_all

theorem splits_commentEnd? {t : Text} {k : Cut} (h : commentEnd? t = some k) : k.Splits t := by
  induction t generalizing k with
  | nil => simp [commentEnd?] at h
  | cons c rest ih =>
    rw [commentEnd?] at h
    split at h
    · rename_i hc
      simp only [Bool.and_eq_true, beq_iff_eq] at hc
      obtain ⟨rfl, hr⟩ := hc
      have hr' := eq_cons_tail_of_head? (t := rest) (c := '/') (by simp [hr])
      simp only [Option.some.injEq] at h
      subst h
      show ['*', '/'] ++ rest.tail = '*' :: rest
      rw [hr']
      rfl
    · obtain ⟨k', hk, rfl⟩ := Option.map_eq_some_iff.1 h
      exact Cut.splits_behind [c] (ih hk)

theorem splits_stringBody (quote : Char) (t : Text) : (stringBody quote t).1.Splits t := by
  fun_induction stringBody quote t with
  | case1 => rfl
  | case2 => rfl
  | case3 => exact Cut.splits_nothing _
  | case4 => rfl
  | case5 c _ _ _ d more ih => exact Cut.splits_behind [_, _] ih
  | case6 c rest _ _ _ ih => exact Cut.splits_behind [c] ih

theorem splits_nameRun (t : Text) : (nameRun t).Splits t := by
  fun_induction nameRun t with
  | case1 => rfl
  | case2 c rest _ ih => exact Cut.splits_behind [c] ih
  | case3 => rfl
  | case4 => exact Cut.splits_nothing _
  | case5 _ _ _ _ _ _ ih => exact Cut.splits_behind [_, _] ih
  | case6 => exact Cut.splits_nothing _

theorem splits_onThisLine? {closing : Char} {t : Text} {k : Cut}
    (h : onThisLine? closing t = some k) : k.Splits t := by
  have hs := Cut.splits_spanning (fun c => c != closing && c != '\n') t
  unfold onThisLine? at h
  simp only at h
  split at h
  · rename_i c rest hr
    split at h
    · simp only [Option.some.injEq] at h
      subst h
      unfold Cut.Splits Cut.spanning at hs
      unfold Cut.Splits
      simp only at hs ⊢
      rw [hr] at hs
      simpa using hs
    · simp at h
  · simp at h

theorem splits_urlArgument? {t : Text} {k : Cut} (h : urlArgument? t = some k) : k.Splits t := by
  unfold urlArgument? at h
  split at h
  · split at h
    · simp at h
    · exact splits_onThisLine? h
  · simp at h

theorem splits_urlTail? {t : Text} {k : Cut} (h : urlTail? t = some k) : k.Splits t := by
  unfold urlTail? at h
  split at h
  · simp at h
  · rename_i c argument
    split at h
    · obtain ⟨k', hk, rfl⟩ := Option.map_eq_some_iff.1 h
      exact Cut.splits_behind [c] (splits_urlArgument? hk)
    · simp at h

theorem splits_unitRun (t : Text) : (unitRun t).Splits t := by
  unfold unitRun
  split
  · rfl
  · split
    · rfl
    · split
      · exact splits_nameRun _
      · exact Cut.splits_nothing _

theorem splits_fractionRun (t : Text) : (fractionRun t).Splits t := by
  unfold fractionRun
  split
  · rfl
  · split
    · exact Cut.splits_behind [_] (Cut.splits_spanning _ _)
    · exact Cut.splits_nothing _

theorem splits_numberTail (c : Char) (t : Text) : (numberTail c t).Splits t := by
  have hd := Cut.splits_spanning isDigitLike t
  unfold numberTail
  simp only
  split
  · exact Cut.splits_andThen hd (splits_unitRun _)
  · exact Cut.splits_andThen (Cut.splits_andThen hd (splits_fractionRun _)) (splits_unitRun _)

theorem splits_nameTail (c : Char) (t : Text) : (nameTail c t).Splits t := by
  unfold nameTail
  split
  · split
    · rfl
    · exact Cut.splits_behind [_] (splits_nameRun _)
  · exact splits_nameRun t

theorem splits_identTail (c : Char) (t : Text) : (identTail c t).2.Splits t := by
  have hn := splits_nameTail c t
  unfold identTail
  simp only
  split
  · split
    · rename_i k hk
      have := Cut.splits_behind (nameTail c t).taken (splits_urlTail? hk)
      unfold Cut.Splits at hn
      rwa [hn] at this
    · exact hn
  · exact hn

theorem splits_commentTail (t : Text) : (commentTail t).2.Splits t := by
  unfold commentTail
  split
  · exact Cut.splits_everything t
  · exact splits_commentEnd? (by assumption)

theorem splits_hashTail (t : Text) : (hashTail t).2.Splits t := by
  unfold hashTail
  split
  · rfl
  · split
    · split
      · exact Cut.splits_behind [_] (splits_onThisLine? (by assumption))
      · exact Cut.splits_nothing _
    · split
      · exact Cut.splits_spanning _ _
      · exact Cut.splits_nothing _

/-- What holds of every reader, where its first character and its lookahead allow it, holds of the
first token. -/
theorem next_cases {motive : Kind × Cut → Prop} (c : Char) (t : Text)
    (lineFeed : c = '\n' → motive (.newline, .nothing t))
    (carriageReturn : c = '\r' → t = '\n' :: t.tail → motive (.newline, ⟨['\n'], t.tail⟩))
    (blanks : c ≠ '\n' → isInlineSpace c = true → motive (.whitespace, inlineRun t))
    (comment : c = '/' → t = '*' :: t.tail →
      motive ((commentTail t.tail).1, (commentTail t.tail).2.behind ['*']))
    (lineComment : c = '/' → t = '/' :: t.tail →
      motive (.comment, .spanning (fun d => !isLineEnd d) t))
    (string : isQuote c = true → motive (stringTail c t))
    (atKeyword : c = '@' → startsIdent t = true → motive (.atKeyword, nameRun t))
    (hash : c = '#' → motive (hashTail t))
    (number : c ≠ '\n' → startsNumber c t = true → motive (.number, numberTail c t))
    (ident : c ≠ '\n' → startsIdent (c :: t) = true → motive (identTail c t))
    (single : c ≠ '\n' → motive (singleKind c, .nothing t)) : motive (next c t) := by
  unfold next
  refine iteInduction (fun h => lineFeed (by simpa using h)) fun hc => ?_
  have hc' : c ≠ '\n' := by simpa using hc
  refine iteInduction (fun h => ?_) fun _ => ?_
  · simp only [Bool.and_eq_true] at h
    exact carriageReturn (by simpa using h.1) (eq_cons_tail_of_head? h.2)
  refine iteInduction (blanks hc') fun _ => ?_
  refine iteInduction (fun h => ?_) fun _ => ?_
  · simp only [Bool.and_eq_true] at h
    exact comment (by simpa using h.1) (eq_cons_tail_of_head? h.2)
  refine iteInduction (fun h => ?_) fun _ => ?_
  · simp only [Bool.and_eq_true] at h
    exact lineComment (by simpa using h.1) (eq_cons_tail_of_head? h.2)
  refine iteInduction string fun _ => ?_
  refine iteInduction (fun h => ?_) fun _ => ?_
  · simp only [Bool.and_eq_true] at h
    exact atKeyword (by simpa using h.1) h.2
  refine iteInduction (fun h => hash (by simpa using h)) fun _ => ?_
  refine iteInduction (number hc') fun _ => ?_
  exact iteInduction (ident hc') fun _ => single hc'

/-- The first token and the rest of the text make up the text. -/
theorem splits_next (c : Char) (t : Text) : (next c t).2.Splits t := by
  apply next_cases (motive := fun r => r.2.Splits t) c t
  case lineFeed => exact fun _ => Cut.splits_nothing t
  case carriageReturn => exact fun _ ht => ht.symm
  case blanks => exact fun _ _ => splits_inlineRun t
  case comment =>
    intro _ ht
    have h := Cut.splits_behind ['*'] (splits_commentTail t.tail)
    rwa [List.singleton_append, ← ht] at h
  case lineComment => exact fun _ _ => Cut.splits_spanning _ t
  case string => exact fun _ => splits_stringBody c t
  case atKeyword => exact fun _ _ => splits_nameRun t
  case hash => exact fun _ => splits_hashTail t
  case number => exact fun _ _ => splits_numberTail c t
  case ident => exact fun _ _ => splits_identTail c t
  case single => exact fun _ => Cut.splits_nothing t

/-- What is left behind the first token is shorter than the text. -/
theorem length_rest_next_le (c : Char) (t : Text) : (next c t).2.rest.length ≤ t.length :=
  Cut.length_rest_le (splits_next c t)

/-! ## 6. Kinds -/

theorem kind_commentTail (t : Text) :
    (commentTail t).1 ∈ [Kind.comment, .docComment, .malformed] := by
  unfold commentTail
  split
  · simp
  · dsimp only
    split <;> simp

theorem kind_stringTail (quote : Char) (t : Text) :
    (stringTail quote t).1 ∈ [Kind.string, .malformed] := by
  unfold stringTail
  dsimp only
  split <;> simp

theorem kind_hashTail (t : Text) : (hashTail t).1 ∈ [Kind.hash, .delimiter] := by
  unfold hashTail
  split
  · simp
  · split
    · split <;> simp
    · split <;> simp

theorem kind_identTail (c : Char) (t : Text) : (identTail c t).1 ∈ [Kind.ident, .url] := by
  unfold identTail
  dsimp only
  split
  · split <;> simp
  · simp

theorem kind_singleKind (c : Char) :
    singleKind c ∈ [Kind.leftBrace, .rightBrace, .leftParen, .rightParen, .leftBracket,
      .rightBracket, .colon, .semicolon, .comma, .combinator, .delimiter] := by
  unfold singleKind
  split <;> simp

/-- A hash starts with its sign, and a string with a quote. -/
theorem first_of_next (c : Char) (t : Text) :
    ((next c t).1 = .hash → c = '#') ∧ ((next c t).1 = .string → isQuote c = true) := by
  have hneither {k : Kind} {kinds : List Kind} (hk : k ∈ kinds) (hhash : Kind.hash ∉ kinds)
      (hstring : Kind.string ∉ kinds) :
      (k = .hash → c = '#') ∧ (k = .string → isQuote c = true) :=
    ⟨fun h => absurd (h ▸ hk) hhash, fun h => absurd (h ▸ hk) hstring⟩
  apply next_cases
    (motive := fun r => (r.1 = .hash → c = '#') ∧ (r.1 = .string → isQuote c = true)) c t
  case hash => exact fun hc => ⟨fun _ => hc, fun h => absurd (h ▸ kind_hashTail t) (by decide)⟩
  case string =>
    exact fun hquote => ⟨fun h => absurd (h ▸ kind_stringTail c t) (by decide), fun _ => hquote⟩
  case comment => exact fun _ _ => hneither (kind_commentTail _) (by decide) (by decide)
  case ident => exact fun _ _ => hneither (kind_identTail c t) (by decide) (by decide)
  case single => exact fun _ => hneither (kind_singleKind c) (by decide) (by decide)
  all_goals
    intros
    exact ⟨nofun, nofun⟩

/-- The character of a kind whose tokens are all written with the same one. -/
def Kind.mark? : Kind → Option Char
  | .leftBrace => some '{'
  | .rightBrace => some '}'
  | .leftParen => some '('
  | .rightParen => some ')'
  | .leftBracket => some '['
  | .rightBracket => some ']'
  | .colon => some ':'
  | .semicolon => some ';'
  | .comma => some ','
  | _ => none

/-- A kind that is written with one character is that of no other character. -/
theorem mark?_singleKind {c d : Char} (h : (singleKind c).mark? = some d) : c = d := by
  unfold singleKind at h
  split at h
  all_goals first
    | exact Option.some.inj h
    | cases h

/-- A token of such a kind is this character and nothing else. -/
theorem taken_of_mark? {c d : Char} {t : Text} :
    (next c t).1.mark? = some d → c = d ∧ (next c t).2.taken = [] := by
  have hnone {k : Kind} {ks : List Kind} (hk : k ∈ ks) (hks : ∀ k ∈ ks, k.mark? = none)
      (h : k.mark? = some d) : False := by
    rw [hks k hk] at h
    cases h
  apply next_cases (motive := fun r => r.1.mark? = some d → c = d ∧ r.2.taken = []) c t
  case single => exact fun _ h => ⟨mark?_singleKind h, rfl⟩
  case comment => exact fun _ _ h => (hnone (kind_commentTail _) (by decide) h).elim
  case string => exact fun _ h => (hnone (kind_stringTail c t) (by decide) h).elim
  case hash => exact fun _ h => (hnone (kind_hashTail t) (by decide) h).elim
  case ident => exact fun _ _ h => (hnone (kind_identTail c t) (by decide) h).elim
  all_goals
    intros
    contradiction

end HouseStyle.Token
