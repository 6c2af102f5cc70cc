import Mathlib.Tactic.TypeStar

/-!
# Terminated pieces

A sequence read as pieces that each end with a separator. What follows the last
separator is not a piece. On a sequence that ends with a separator, or is empty,
nothing is left over, and reading commutes with concatenation; this is what
lets a text be assembled from lines and taken apart again.
-/

namespace Split

open List

variable {α : Type*} [BEq α] [LawfulBEq α] {sep : α}

/-- The pieces of `l`, each without the separator that ends it. -/
def pieces (sep : α) (l : List α) : List (List α) := (l.splitOn sep).dropLast

def Terminated (sep : α) (l : List α) : Prop := l = [] ∨ l.getLast? = some sep

omit [LawfulBEq α] in
@[simp] theorem pieces_nil : pieces sep ([] : List α) = [] := rfl

variable {l a : List α}

theorem pieces_append_sep (a b : List α) :
    pieces sep (a ++ sep :: b) = a.splitOn sep ++ pieces sep b := by
  unfold pieces
  rw [splitOn_append_cons_self, dropLast_append_of_ne_nil (splitOn_ne_nil _ b)]

theorem pieces_cons_piece (h : sep ∉ a) (b : List α) :
    pieces sep (a ++ sep :: b) = a :: pieces sep b := by
  rw [pieces_append_sep, splitOn_eq_singleton h]
  rfl

theorem pieces_concat_sep (a : List α) : pieces sep (a ++ [sep]) = a.splitOn sep := by
  rw [pieces_append_sep, pieces_nil, append_nil]

/-- **Reading commutes with concatenation** where the first part is complete. -/
theorem pieces_append (h : Terminated sep a) (b : List α) :
    pieces sep (a ++ b) = pieces sep a ++ pieces sep b := by
  rcases h with rfl | hlast
  · rfl
  · obtain ⟨a', rfl⟩ := List.getLast?_eq_some_iff.mp hlast
    rw [append_assoc, singleton_append, pieces_append_sep, pieces_concat_sep]

theorem pieces_flatMap {ls : List (List α)} (h : ∀ l ∈ ls, sep ∉ l) (b : List α) :
    pieces sep (ls.flatMap (fun l => l ++ [sep]) ++ b) = ls ++ pieces sep b := by
  induction ls with
  | nil => rfl
  | cons l ls ih =>
    rw [forall_mem_cons] at h
    rw [flatMap_cons, append_assoc, append_assoc, singleton_append,
      pieces_cons_piece h.1, ih h.2, cons_append]

theorem splitOn_of_terminated (h : Terminated sep l) : l.splitOn sep = pieces sep l ++ [[]] := by
  rcases h with rfl | hlast
  · rfl
  · obtain ⟨a, rfl⟩ := List.getLast?_eq_some_iff.mp hlast
    rw [pieces_concat_sep, splitOn_append_cons_self]
    rfl

variable {piece b : List α}

theorem not_mem_of_mem_splitOn (h : piece ∈ l.splitOn sep) : sep ∉ piece := by
  induction l generalizing piece with
  | nil =>
    rw [mem_singleton.mp h]
    exact not_mem_nil
  | cons x l ih =>
    by_cases hx : x = sep
    · subst hx
      rw [← nil_append (x :: l), splitOn_append_cons_self] at h
      rcases mem_cons.mp h with rfl | hmem
      · exact not_mem_nil
      · exact ih hmem
    · have hne : l.splitOn sep ≠ [] := splitOn_ne_nil _ l
      obtain ⟨first, rest, hsplit⟩ := exists_cons_of_ne_nil hne
      have hcons : (x :: l).splitOn sep = (x :: first) :: rest := by
        unfold List.splitOn at hsplit ⊢
        rw [splitOnP_cons_eq_if_modifyHead, if_neg (by simpa using hx), hsplit]
        rfl
      rw [hcons] at h
      rcases mem_cons.mp h with rfl | hmem
      · rw [mem_cons, not_or]
        exact ⟨Ne.symm hx, ih (by rw [hsplit]; exact mem_cons_self)⟩
      · exact ih (by rw [hsplit]; exact mem_cons_of_mem _ hmem)

theorem not_mem_of_mem_pieces (h : piece ∈ pieces sep l) : sep ∉ piece :=
  not_mem_of_mem_splitOn (dropLast_subset _ h)

/-! ## At one separator -/

omit [LawfulBEq α] in
/-- `split_once`: before and after the first separator. -/
def splitOnce (sep : α) (l : List α) : Option (List α × List α) :=
  match l with
  | [] => none
  | x :: xs => if x == sep then some ([], xs) else (splitOnce sep xs).map fun p => (x :: p.1, p.2)

/-- `rsplit_once`: before and after the last separator. -/
def rsplitOnce (sep : α) (l : List α) : Option (List α × List α) :=
  (splitOnce sep l.reverse).map fun p => (p.2.reverse, p.1.reverse)

theorem splitOnce_eq_some : splitOnce sep l = some (a, b) ↔ l = a ++ sep :: b ∧ sep ∉ a := by
  induction l generalizing a with
  | nil => simp [splitOnce]
  | cons x xs ih =>
    unfold splitOnce
    by_cases hx : x = sep
    · subst hx
      rw [if_pos (beq_self_eq_true x)]
      cases a with
      | nil => simp
      | cons y a => simp +contextual
    · rw [if_neg (by simpa using hx)]
      simp only [Option.map_eq_some_iff, Prod.exists, Prod.mk.injEq]
      constructor
      · rintro ⟨a', b', hsplit, rfl, rfl⟩
        obtain ⟨rfl, hmem⟩ := ih.mp hsplit
        refine ⟨rfl, ?_⟩
        rw [mem_cons, not_or]
        exact ⟨Ne.symm hx, hmem⟩
      · rintro ⟨hl, hmem⟩
        cases a with
        | nil => exact absurd (List.cons.inj hl).1 hx
        | cons y a =>
          obtain ⟨rfl, hrest⟩ := List.cons.inj hl
          have htail : sep ∉ a := fun h => hmem (mem_cons_of_mem _ h)
          exact ⟨a, b, ih.mpr ⟨hrest, htail⟩, rfl, rfl⟩

theorem rsplitOnce_eq_some : rsplitOnce sep l = some (a, b) ↔ l = a ++ sep :: b ∧ sep ∉ b := by
  have hrev : rsplitOnce sep l = some (a, b) ↔ splitOnce sep l.reverse = some (b.reverse, a.reverse) := by
    simp only [rsplitOnce, Option.map_eq_some_iff, Prod.exists, Prod.mk.injEq]
    constructor
    · rintro ⟨before, after, hsplit, rfl, rfl⟩
      rw [hsplit, reverse_reverse, reverse_reverse]
    · intro hsplit
      exact ⟨_, _, hsplit, reverse_reverse _, reverse_reverse _⟩
  rw [hrev, splitOnce_eq_some, mem_reverse, reverse_eq_iff]
  simp

end Split
