import Mathlib.Data.List.DropRight

/-!
# Lines of text

Splitting a text into lines and trimming them, on lists of characters: a line ends
at a line feed, a carriage return right before it is dropped with it, and whatever
follows the last line feed is a line of its own unless it is empty.

A *record* is a text without a line feed that trimming leaves alone. Written
with a line feed after it, it is exactly one line wherever it stands in a file,
provided it starts one.
-/

namespace Lines

open List

/-- `char::is_whitespace`: the Unicode property `White_Space`. -/
def isWhitespace (c : Char) : Bool :=
  (9 ≤ c.toNat && c.toNat ≤ 13) || c.toNat == 0x20 || c.toNat == 0x85 ||
    c.toNat == 0xA0 || c.toNat == 0x1680 || (0x2000 ≤ c.toNat && c.toNat ≤ 0x200A) ||
    c.toNat == 0x2028 || c.toNat == 0x2029 || c.toNat == 0x202F || c.toNat == 0x205F ||
    c.toNat == 0x3000

def trim (s : List Char) : List Char := (s.dropWhile isWhitespace).rdropWhile isWhitespace

/-- The carriage return of a `\r\n`, dropped. -/
def stripCr (line : List Char) : List Char :=
  if line.getLast? = some '\r' then line.dropLast else line

/-- `str::lines`, with the part of the current line read so far. -/
def linesFrom (current : List Char) : List Char → List (List Char)
  | [] => if current = [] then [] else [current]
  | c :: rest =>
    if c = '\n' then stripCr current :: linesFrom [] rest
    else linesFrom (current ++ [c]) rest

def lines (s : List Char) : List (List Char) := linesFrom [] s

/-- A text that can be written as one line and read back unchanged. -/
structure IsRecord (e : List Char) : Prop where
  one_line : '\n' ∉ e
  first : ∀ c, e.head? = some c → isWhitespace c = false
  last : ∀ c, e.getLast? = some c → isWhitespace c = false
  nonempty : e ≠ []

/-- Some full line of the text is `e`. -/
def HasLine (s e : List Char) : Prop :=
  ∃ before after, s = before ++ e ++ '\n' :: after ∧
    (before = [] ∨ before.getLast? = some '\n')

/-! ## Trimming -/

variable {e s : List Char}

theorem trim_eq_self (he : IsRecord e) : trim e = e := by
  have hdrop : e.dropWhile isWhitespace = e := by
    cases e with
    | nil => rfl
    | cons c e => simp [he.first c rfl]
  unfold trim
  rw [hdrop, rdropWhile_eq_self_iff]
  intro hne
  rw [he.last _ (List.getLast?_eq_some_getLast hne)]
  exact Bool.false_ne_true

theorem mem_trim {c : Char} (hc : c ∈ s) (hws : isWhitespace c = false) : c ∈ trim s := by
  have hdrop : ∀ l : List Char, c ∈ l → c ∈ l.dropWhile isWhitespace := by
    intro l hl
    rw [← takeWhile_append_dropWhile (p := isWhitespace) (l := l), mem_append] at hl
    rcases hl with htaken | hleft
    · rw [mem_takeWhile_imp htaken] at hws
      cases hws
    · exact hleft
  rw [trim, List.rdropWhile, mem_reverse]
  exact hdrop _ (mem_reverse.mpr (hdrop s hc))

theorem trim_append_record (he : IsRecord e) (tail : List Char) :
    trim (tail ++ e) = tail.dropWhile isWhitespace ++ e := by
  obtain ⟨c, t, rfl⟩ := exists_cons_of_ne_nil he.nonempty
  have hdrop : (tail ++ c :: t).dropWhile isWhitespace =
      tail.dropWhile isWhitespace ++ c :: t := by
    rw [dropWhile_append]
    split
    · rename_i hblank
      rw [isEmpty_iff.mp hblank, dropWhile_cons_of_neg (by simp [he.first c rfl])]
      rfl
    · rfl
  unfold trim
  rw [hdrop, rdropWhile_eq_self_iff]
  intro hne
  have hlast := List.getLast?_eq_some_getLast hne
  rw [List.getLast?_append_of_ne_nil _ he.nonempty] at hlast
  rw [he.last _ hlast]
  exact Bool.false_ne_true

theorem stripCr_eq_self (he : IsRecord e) : stripCr e = e := by
  unfold stripCr
  split
  · rename_i h
    exact absurd (he.last _ h) (by decide)
  · rfl

/-! ## Splitting -/

theorem linesFrom_noNewline (he : '\n' ∉ e) (current rest : List Char) :
    linesFrom current (e ++ '\n' :: rest) = stripCr (current ++ e) :: lines rest := by
  induction e generalizing current with
  | nil => simp [linesFrom, lines]
  | cons c e ih =>
    rw [mem_cons, not_or] at he
    rw [cons_append, linesFrom, if_neg (Ne.symm he.1), ih he.2]
    simp

theorem linesFrom_append_newline (a current b : List Char) :
    linesFrom current (a ++ '\n' :: b) = linesFrom current (a ++ ['\n']) ++ lines b := by
  induction a generalizing current with
  | nil => simp [linesFrom, lines]
  | cons c a ih =>
    simp only [cons_append, linesFrom]
    split
    · rw [ih, cons_append]
    · rw [ih]

theorem lines_record (he : IsRecord e) (rest : List Char) :
    lines (e ++ '\n' :: rest) = e :: lines rest := by
  unfold lines
  rw [linesFrom_noNewline he.one_line, nil_append, stripCr_eq_self he]
  rfl

theorem mem_lines_of_hasLine (he : IsRecord e) (h : HasLine s e) : e ∈ lines s := by
  obtain ⟨before, after, rfl, hbefore⟩ := h
  have hself : e ∈ lines (e ++ '\n' :: after) := by
    rw [lines_record he]
    exact mem_cons_self
  rcases hbefore with rfl | hlast
  · exact hself
  · obtain ⟨b, rfl⟩ := List.getLast?_eq_some_iff.mp hlast
    unfold lines
    rw [append_assoc, append_assoc, singleton_append,
      linesFrom_append_newline]
    exact mem_append_right _ hself

/-! ## Writing -/

def unlines (es : List (List Char)) : List Char := es.flatMap fun e => e ++ ['\n']

variable {es : List (List Char)} {tail : List Char}

theorem unlines_getLast? (h : es ≠ []) : (unlines es).getLast? = some '\n' := by
  rcases eq_nil_or_concat es with rfl | ⟨init, e, rfl⟩
  · exact absurd rfl h
  · simp [unlines]

theorem hasLine_unlines (h : e ∈ es) : HasLine (unlines es) e := by
  obtain ⟨pre, post, rfl⟩ := append_of_mem h
  refine ⟨unlines pre, unlines post, ?_, ?_⟩
  · simp [unlines]
  · cases pre with
    | nil => exact Or.inl rfl
    | cons x pre => exact Or.inr (unlines_getLast? (cons_ne_nil _ _))

theorem HasLine.append (h : HasLine s e) (t : List Char) : HasLine (s ++ t) e := by
  obtain ⟨before, after, rfl, hbefore⟩ := h
  exact ⟨before, after ++ t, by simp, hbefore⟩

variable (hs : s = [] ∨ s.getLast? = some '\n')
include hs

theorem hasLine_append_record (e : List Char) : HasLine (s ++ (e ++ ['\n'])) e :=
  ⟨s, [], by simp, hs⟩

theorem lines_append_line {x : List Char} (hx : '\n' ∉ x) :
    lines (s ++ (x ++ ['\n'])) = lines s ++ [stripCr x] := by
  have hself : lines (x ++ ['\n']) = [stripCr x] := linesFrom_noNewline hx [] []
  rcases hs with rfl | hlast
  · exact hself
  · obtain ⟨b, rfl⟩ := List.getLast?_eq_some_iff.mp hlast
    have hcut := linesFrom_append_newline b [] (x ++ ['\n'])
    rw [hself] at hcut
    rw [append_assoc, singleton_append]
    exact hcut

theorem lines_append_record (he : IsRecord e) : lines (s ++ (e ++ ['\n'])) = lines s ++ [e] := by
  rw [lines_append_line hs he.one_line, stripCr_eq_self he]

omit hs

/-! ## An unfinished line at the end -/

theorem exists_unfinished (s : List Char) :
    ∃ front tail, s = front ++ tail ∧ (front = [] ∨ front.getLast? = some '\n') ∧ '\n' ∉ tail := by
  induction s using List.reverseRecOn with
  | nil => exact ⟨[], [], rfl, .inl rfl, not_mem_nil⟩
  | append_singleton s c ih =>
    obtain ⟨front, tail, rfl, hfront, htail⟩ := ih
    by_cases hc : c = '\n'
    · subst hc
      exact ⟨front ++ tail ++ ['\n'], [], (append_nil _).symm,
        .inr List.getLast?_concat, not_mem_nil⟩
    · refine ⟨front, tail ++ [c], append_assoc _ _ _, hfront, ?_⟩
      rw [mem_append, mem_singleton, not_or]
      exact ⟨htail, Ne.symm hc⟩

theorem linesFrom_unfinished (h : '\n' ∉ tail) (current : List Char) :
    linesFrom current tail = if current ++ tail = [] then [] else [current ++ tail] := by
  induction tail generalizing current with
  | nil => rw [linesFrom, append_nil]
  | cons c tail ih =>
    rw [mem_cons, not_or] at h
    rw [linesFrom, if_neg (Ne.symm h.1), ih h.2, append_assoc, singleton_append]

theorem lines_append_unfinished (hs : s = [] ∨ s.getLast? = some '\n') (h : '\n' ∉ tail) :
    lines (s ++ tail) = lines s ++ if tail = [] then [] else [tail] := by
  have hself : lines tail = if tail = [] then [] else [tail] := linesFrom_unfinished h []
  rcases hs with rfl | hlast
  · exact hself
  · obtain ⟨b, rfl⟩ := List.getLast?_eq_some_iff.mp hlast
    have hcut := linesFrom_append_newline b [] tail
    rw [hself] at hcut
    rw [append_assoc, singleton_append]
    exact hcut

end Lines
