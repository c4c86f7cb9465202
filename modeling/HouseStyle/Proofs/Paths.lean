/-
HouseStyle.Proofs.Paths — a path can be read off its text.

A path that is read from a text, or that leads from such a path to something below a directory, has
none, one or two slashes in front and names that are names: not empty, no single dot, and without a
slash (`Path.Plain`). The text of such a path, read again, gives the path (`Path.ofString_text`), so
two of them with one text are one path. What the arguments of a run stand for are paths of this kind
(`Disk.plain_of_mem_expand`), on every disk whose directories list names (`Disk.Proper`), and each
of them stands in the list once.
-/
import HouseStyle.Path
import HouseStyle.Proofs.ReportLaws
import HouseStyle.Proofs.Texts

namespace HouseStyle

namespace Path

/-! ## 1. Paths and their texts -/

/-- The name is one that counts: it is not empty, it is no single dot, and no slash is in it. -/
def IsName (name : String) : Prop := name ≠ "" ∧ name ≠ "." ∧ '/' ∉ name.toList

instance (name : String) : Decidable (IsName name) :=
  inferInstanceAs (Decidable (name ≠ "" ∧ name ≠ "." ∧ '/' ∉ name.toList))

/-- A path of names, with none, one or two slashes in front. -/
structure Plain (p : Path) : Prop where
  root : p.root = "" ∨ p.root = "/" ∨ p.root = "//"
  names : ∀ name ∈ p.names, IsName name

theorem plain_ofString (s : String) : (ofString s).Plain := by
  constructor
  · show rootOf s.toList = "" ∨ rootOf s.toList = "/" ∨ rootOf s.toList = "//"
    unfold rootOf
    split
    · exact .inl rfl
    · exact .inr (.inr rfl)
    · exact .inr (.inl rfl)
  · intro name hname
    obtain ⟨hmem, hcounts⟩ := List.mem_filter.1 hname
    obtain ⟨piece, hpiece, rfl⟩ := List.mem_map.1 hmem
    have hslash : '/' ∉ (Text.shown piece).toList := by
      rw [Text.shown, String.toList_ofList]
      intro h
      have hno := Text.not_of_mem_splitOnP hpiece h
      cases hno
    simp only [Bool.and_eq_true, bne_iff_ne] at hcounts
    exact ⟨hcounts.1, hcounts.2, hslash⟩

variable {p q : Path}

/-- What is found below a plain path has a plain path. -/
theorem Plain.below (h : p.Plain) {names : List String} (hnames : ∀ name ∈ names, IsName name) :
    (p.below names).Plain := by
  refine ⟨h.root, fun name hname => ?_⟩
  rcases List.mem_append.1 hname with hname | hname
  · exact h.names name hname
  · exact hnames name hname

/-- The names of a path without slashes in front are the pieces of its text. -/
theorem splitOnP_intercalate {names : List String} (hne : names ≠ [])
    (hnames : ∀ name ∈ names, IsName name) :
    ("/".intercalate names).toList.splitOnP (· == '/') = names.map String.toList := by
  rw [String.toList_intercalate]
  refine List.splitOn_intercalate '/' ?_ (by simpa using hne)
  intro piece hpiece
  obtain ⟨name, hname, rfl⟩ := List.mem_map.1 hpiece
  exact (hnames name hname).2.2

/-- Names that follow each other do not start with a slash. -/
theorem takeWhile_intercalate {names : List String} (hne : names ≠ [])
    (hnames : ∀ name ∈ names, IsName name) :
    ("/".intercalate names).toList.takeWhile (· == '/') = [] := by
  have hpieces := splitOnP_intercalate hne hnames
  cases hcut : ("/".intercalate names).toList with
  | nil => rfl
  | cons c rest =>
    refine List.takeWhile_cons_of_neg fun hc => ?_
    obtain rfl : c = '/' := by simpa using hc
    rw [hcut, Text.splitOnP_cons_of_pos rfl] at hpieces
    cases names with
    | nil => exact hne rfl
    | cons name more =>
      have hempty : name.toList = [] := (List.cons.inj hpieces).1.symm
      exact (hnames name List.mem_cons_self).1 (String.toList_eq_nil_iff.1 hempty)

/-- A slash in front makes no name. -/
theorem names_slash (t : Text) :
    ((('/' :: t).splitOnP (· == '/')).map Text.shown).filter (fun n => n != "" && n != ".") =
      ((t.splitOnP (· == '/')).map Text.shown).filter fun n => n != "" && n != "." := by
  rw [Text.splitOnP_cons_of_pos rfl, List.map_cons, List.filter_cons_of_neg (by decide)]

/-- Slashes and the names behind them make up a path. -/
theorem ofString_of_toList {s : String} {root : String} {names : List String}
    (hroot : root = "" ∨ root = "/" ∨ root = "//") (hne : names ≠ [])
    (hnames : ∀ name ∈ names, IsName name)
    (hs : s.toList = root.toList ++ ("/".intercalate names).toList) :
    ofString s = ⟨root, names⟩ := by
  have hrun := takeWhile_intercalate hne hnames
  have hcounts : ((("/".intercalate names).toList.splitOnP (· == '/')).map
      Text.shown).filter (fun n => n != "" && n != ".") = names := by
    have hback : (names.map String.toList).map Text.shown = names := by
      rw [List.map_map]
      exact List.map_id'' (fun name => String.ofList_toList) names
    rw [splitOnP_intercalate hne hnames, hback]
    refine List.filter_eq_self.2 fun name hname => ?_
    simpa using ⟨(hnames name hname).1, (hnames name hname).2.1⟩
  unfold ofString rootOf
  dsimp only
  rw [hs]
  rcases hroot with rfl | rfl | rfl
  · have h0 : "".toList = [] := rfl
    rw [h0, List.nil_append, hcounts, hrun]
    rfl
  · have h1 : "/".toList = ['/'] := rfl
    rw [h1, List.singleton_append, names_slash, hcounts, List.takeWhile_cons_of_pos rfl, hrun]
    rfl
  · have h2 : "//".toList = ['/', '/'] := rfl
    rw [h2, List.cons_append, List.singleton_append, names_slash, names_slash, hcounts,
      List.takeWhile_cons_of_pos rfl, List.takeWhile_cons_of_pos rfl, hrun]
    rfl

/-- The text of a path gives the path. -/
theorem ofString_text (h : p.Plain) : ofString p.text = p := by
  obtain ⟨root, names⟩ := p
  by_cases hne : names = []
  · subst hne
    rcases h.root with hroot | hroot | hroot <;>
      (obtain rfl : root = _ := hroot; decide +kernel)
  · refine ofString_of_toList h.root hne h.names ?_
    rw [text, if_neg (by simp [hne]), String.toList_append]

/-- Plain paths with one text are one path. -/
theorem Plain.text_inj (hp : p.Plain) (hq : q.Plain) (h : p.text = q.text) : p = q := by
  rw [← ofString_text hp, h, ofString_text hq]

end Path

/-! ## 2. What arguments stand for -/

/-- Steps that all give something: each gives a member, and each member is given. -/
theorem mem_of_mapM_eq_ok {ε α β : Type} {f : α → Except ε β} {xs : List α} {ys : List β}
    (h : xs.mapM f = .ok ys) : ∀ y, y ∈ ys ↔ ∃ x ∈ xs, f x = .ok y := by
  induction xs generalizing ys with
  | nil =>
    cases h
    simp
  | cons x xs ih =>
    rw [List.mapM_cons] at h
    cases hx : f x with
    | error e =>
      rw [hx] at h
      cases h
    | ok first =>
      cases hxs : xs.mapM f with
      | error e =>
        rw [hx, hxs] at h
        cases h
      | ok rest =>
        rw [hx, hxs] at h
        cases h
        intro y
        rw [List.mem_cons, ih hxs]
        simp [hx, eq_comm]

/-- Steps that come to nothing do so at one of them. -/
theorem exists_of_mapM_eq_error {ε α β : Type} {f : α → Except ε β} {xs : List α} {e : ε}
    (h : xs.mapM f = .error e) : ∃ x ∈ xs, f x = .error e := by
  induction xs with
  | nil => cases h
  | cons x xs ih =>
    rw [List.mapM_cons] at h
    cases hx : f x with
    | error e' =>
      rw [hx] at h
      cases h
      exact ⟨x, List.mem_cons_self, hx⟩
    | ok y =>
      cases hxs : xs.mapM f with
      | error e' =>
        rw [hx, hxs] at h
        cases h
        obtain ⟨x', hx', hfails⟩ := ih hxs
        exact ⟨x', List.mem_cons_of_mem _ hx', hfails⟩
      | ok rest =>
        rw [hx, hxs] at h
        cases h

namespace Disk

variable {disk : Disk} {arguments : List String} {paths : List Path}

/-- Directories list files by names. -/
def Proper (disk : Disk) : Prop :=
  ∀ p files, disk p = .directory files → ∀ names ∈ files, ∀ name ∈ names, Path.IsName name

/-- Below a directory stand the files whose name is that of a stylesheet. -/
theorem mem_sourcesBelow {p q : Path} {files : List (List String)} :
    q ∈ sourcesBelow p files ↔
      ∃ names ∈ files, names.getLast?.any Path.isSourceName = true ∧ q = p.below names := by
  unfold sourcesBelow
  simp only [List.mem_map, (List.mergeSort_perm _ _).mem_iff, List.mem_filter, and_assoc, eq_comm]

theorem plain_of_mem_expandOne (h : disk.Proper) {argument : String} {found : List Path}
    (hfound : disk.expandOne argument = .ok found) : ∀ p ∈ found, p.Plain := by
  have hargument := Path.plain_ofString argument
  intro p hp
  unfold expandOne at hfound
  dsimp only at hfound
  split at hfound
  · rename_i files hdirectory
    cases hfound
    obtain ⟨names, hnames, -, rfl⟩ := mem_sourcesBelow.1 hp
    exact hargument.below (h _ _ hdirectory names hnames)
  · cases hfound
  · cases hfound
    rwa [List.mem_singleton.1 hp]

/-- The paths that arguments stand for are in the list once each. -/
theorem mem_expand (h : disk.expand arguments = .ok paths) : paths.Nodup ∧
    ∀ p, p ∈ paths ↔
      ∃ argument ∈ arguments, ∃ found, disk.expandOne argument = .ok found ∧ p ∈ found := by
  unfold expand at h
  cases hall : arguments.mapM disk.expandOne with
  | error e =>
    rw [hall] at h
    cases h
  | ok lists =>
    rw [hall] at h
    cases h
    refine ⟨nodup_eraseDups lists.flatten, fun p => ?_⟩
    rw [List.mem_eraseDups, List.mem_flatten]
    simp only [mem_of_mapM_eq_ok hall]
    constructor
    · rintro ⟨found, ⟨argument, hargument, hone⟩, hp⟩
      exact ⟨argument, hargument, found, hone, hp⟩
    · rintro ⟨argument, hargument, found, hone, hp⟩
      exact ⟨found, ⟨argument, hargument, hone⟩, hp⟩

/-- The files that arguments stand for have plain paths. -/
theorem plain_of_mem_expand (hdisk : disk.Proper) (h : disk.expand arguments = .ok paths) :
    ∀ p ∈ paths, p.Plain := by
  intro p hp
  obtain ⟨argument, -, found, hfound, hmem⟩ := ((mem_expand h).2 p).1 hp
  exact plain_of_mem_expandOne hdisk hfound p hmem

/-- There is no list only where an argument cannot be looked up. -/
theorem exists_of_expand_eq_error {e : NameTooLong} (h : disk.expand arguments = .error e) :
    ∃ argument ∈ arguments, disk (Path.ofString argument) = .nameTooLong := by
  unfold expand at h
  cases hall : arguments.mapM disk.expandOne with
  | ok lists =>
    rw [hall] at h
    cases h
  | error e' =>
    obtain ⟨argument, hargument, hfails⟩ := exists_of_mapM_eq_error hall
    refine ⟨argument, hargument, ?_⟩
    unfold expandOne at hfails
    dsimp only at hfails
    split at hfails
    · cases hfails
    · assumption
    · cases hfails

/-- A walk ends in front of a directory, never at one. -/
theorem walk_ne_directory {entries : List Entry} {here names : List String}
    {files : List (List String)} : walk entries here names ≠ .inl (.directory files) := by
  induction names generalizing here with
  | nil => simp [walk]
  | cons name rest ih =>
    unfold walk
    split
    · split <;> simp
    · split
      · split
        · simp
        · exact ih
      · split
        · simp
        · exact ih

theorem atRoot_ne_directory {names : List String} {files : List (List String)} :
    atRoot names ≠ .directory files := by
  unfold atRoot
  split
  · split <;> simp
  · simp

/-- What a disk of entries lists in a directory are ends of its entries. -/
theorem exists_entry_of_directory {entries : List Entry} {p : Path} {files : List (List String)}
    (h : ofEntries entries p = .directory files) {names : List String} (hnames : names ∈ files) :
    ∃ e ∈ entries, ∃ n, names = e.1.drop n := by
  unfold ofEntries at h
  split at h
  · cases h
  split at h
  · cases h
  split at h
  · exact absurd h atRoot_ne_directory
  split at h
  · rename_i found hwalk
    exact absurd (h ▸ hwalk) walk_ne_directory
  split at h
  · cases h
  split at h
  · obtain rfl := Found.directory.inj h
    obtain ⟨e, he, hdrop⟩ := List.mem_filterMap.1 hnames
    split at hdrop
    · exact ⟨e, he, _, (Option.some.inj hdrop).symm⟩
    · cases hdrop
  · cases h

/-- A disk of entries with names is proper. -/
theorem proper_ofEntries {entries : List Entry}
    (h : ∀ e ∈ entries, ∀ name ∈ e.1, Path.IsName name) : (ofEntries entries).Proper := by
  intro p files hfiles names hnames name hname
  obtain ⟨e, he, n, rfl⟩ := exists_entry_of_directory hfiles hnames
  exact h e he name (List.mem_of_mem_drop hname)

end Disk

end HouseStyle
