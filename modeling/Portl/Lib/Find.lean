import Mathlib.Data.List.Infix

/-!
# The first occurrence of a mark

A text is searched for a mark. `splitAt` cuts it at the first one; that no earlier
one stands in what comes before is a property of that part alone (`Fresh`), so the
cut stays where it is when the rest of the text is rewritten.

A mark whose first element does not come again in it does not overlap with itself:
every occurrence is the first one or lies in the rest.
-/

namespace Find

open List

variable {α : Type*} [DecidableEq α]

def splitAt (mark : List α) : List α → Option (List α × List α)
  | [] => if mark = [] then some ([], []) else none
  | x :: xs =>
    if mark.isPrefixOf (x :: xs) then some ([], (x :: xs).drop mark.length)
    else (splitAt mark xs).map fun p => (x :: p.1, p.2)

/-- The mark after `a` is the first one. -/
def Fresh (mark a : List α) : Prop := ∀ a', a' ++ mark <+: a ++ mark → a' = a

variable {mark l a b : List α} {x : α}

omit [DecidableEq α] in
theorem fresh_nil : Fresh mark [] := by
  intro a' h
  have hlength := h.length_le
  rw [length_append, nil_append] at hlength
  exact length_eq_zero_iff.mp (by omega)

omit [DecidableEq α] in
theorem fresh_cons (h : ¬ mark <+: x :: a ++ mark) (ha : Fresh mark a) : Fresh mark (x :: a) := by
  intro a' hprefix
  cases a' with
  | nil => exact absurd hprefix h
  | cons y a' =>
    rw [cons_append, cons_append, cons_prefix_cons] at hprefix
    obtain ⟨rfl, hrest⟩ := hprefix
    rw [ha a' hrest]

omit [DecidableEq α] in
theorem Fresh.tail (h : Fresh mark (x :: a)) : Fresh mark a := by
  intro a' hprefix
  have hcons : x :: a' ++ mark <+: x :: a ++ mark := cons_prefix_cons.mpr ⟨rfl, hprefix⟩
  exact (List.cons.inj (h (x :: a') hcons)).2

theorem splitAt_eq_some : splitAt mark l = some (a, b) ↔ l = a ++ mark ++ b ∧ Fresh mark a := by
  induction l generalizing a with
  | nil =>
    unfold splitAt
    constructor
    · intro h
      split at h
      · next hmark =>
          cases h
          rw [hmark]
          exact ⟨rfl, fresh_nil⟩
      · cases h
    · rintro ⟨hl, -⟩
      have hempty := append_eq_nil_iff.mp hl.symm
      obtain ⟨rfl, rfl⟩ := append_eq_nil_iff.mp hempty.1
      rw [if_pos rfl, hempty.2]
  | cons x xs ih =>
    unfold splitAt
    by_cases hprefix : mark <+: x :: xs
    · rw [if_pos (List.isPrefixOf_iff_prefix.mpr hprefix)]
      obtain ⟨rest, hrest⟩ := hprefix
      rw [← hrest, drop_left]
      constructor
      · intro h
        cases h
        exact ⟨rfl, fresh_nil⟩
      · rintro ⟨hl, ha⟩
        -- both `mark` and `a ++ mark` begin the text, and the shorter begins the longer
        have hshort : [] ++ mark <+: a ++ mark := by
          refine prefix_of_prefix_length_le (prefix_append mark rest) ?_ ?_
          · rw [hl]
            exact prefix_append _ _
          · simp
        have hnil := ha [] hshort
        subst hnil
        rw [nil_append] at hl
        rw [append_cancel_left hl]
    · rw [if_neg (fun h => hprefix (List.isPrefixOf_iff_prefix.mp h))]
      simp only [Option.map_eq_some_iff, Prod.exists, Prod.mk.injEq]
      constructor
      · rintro ⟨a', b', hsplit, rfl, rfl⟩
        obtain ⟨rfl, hfresh⟩ := ih.mp hsplit
        refine ⟨rfl, fresh_cons ?_ hfresh⟩
        intro hbegins
        exact hprefix (hbegins.trans (prefix_append (x :: a' ++ mark) b'))
      · rintro ⟨hl, ha⟩
        cases a with
        | nil => exact absurd (hl ▸ prefix_append mark b) hprefix
        | cons y a =>
          obtain ⟨rfl, hxs⟩ := List.cons.inj hl
          exact ⟨a, b, ih.mpr ⟨hxs, ha.tail⟩, rfl, rfl⟩

theorem splitAt_eq_none : splitAt mark l = none ↔ ¬ mark <:+: l := by
  induction l with
  | nil =>
    unfold splitAt
    rw [infix_nil]
    split <;> simp_all
  | cons x xs ih =>
    unfold splitAt
    rw [infix_cons_iff, not_or, ← ih]
    split
    · next h => simp [List.isPrefixOf_iff_prefix.mp h]
    · next h =>
        rw [List.isPrefixOf_iff_prefix] at h
        simp [h]

/-! ## Marks that do not overlap -/

section Clear

variable {c d : α} {t u y before after : List α}

omit [DecidableEq α] in
theorem Fresh.eq_or_later (hc : c ∉ t) (ha : Fresh (c :: t) a)
    (h : a ++ c :: t ++ b = before ++ c :: t ++ after) :
    (before = a ∧ after = b) ∨
      ∃ m, before = a ++ c :: t ++ m ∧ b = m ++ c :: t ++ after := by
  by_cases hlength : before.length < a.length
  · -- such an occurrence would stand in `a ++ c :: t`
    have hearlier : before ++ c :: t <+: a ++ c :: t := by
      refine prefix_of_prefix_length_le (h ▸ prefix_append _ _)
        (prefix_append (a ++ c :: t) b) ?_
      simp only [length_append]
      omega
    rw [ha before hearlier] at hlength
    exact absurd hlength (lt_irrefl _)
  · rw [append_assoc, append_assoc] at h
    obtain ⟨w, rfl⟩ : a <+: before :=
      prefix_of_prefix_length_le (prefix_append a _)
        (h.symm ▸ prefix_append before _) (Nat.le_of_not_lt hlength)
    rw [append_assoc] at h
    have hmark := append_cancel_left h
    cases w with
    | nil => exact .inl ⟨append_nil a, (append_cancel_left hmark).symm⟩
    | cons z w =>
      obtain ⟨rfl, hrest⟩ := List.cons.inj hmark
      rcases append_eq_append_iff.mp hrest with ⟨m, rfl, hb⟩ | ⟨v, hv, hb⟩
      · exact .inr ⟨m, by simp, by rw [hb, append_assoc]⟩
      · cases v with
        | nil =>
          rw [append_nil] at hv
          exact .inr ⟨[], by simp [hv], by simpa using hb.symm⟩
        | cons z' v =>
          obtain ⟨rfl, -⟩ := List.cons.inj hb
          exact absurd (hv ▸ mem_append_right w mem_cons_self) hc

omit [DecidableEq α] in
theorem skip (hu : d ∉ u) (hy : y.head? ≠ some d)
    (h : u ++ y = before ++ c :: d :: t ++ after) :
    ∃ m, before = u ++ m ∧ y = m ++ c :: d :: t ++ after := by
  rw [append_assoc] at h
  rcases append_eq_append_iff.mp h with ⟨m, rfl, hm⟩ | ⟨w, rfl, hmark⟩
  · exact ⟨m, rfl, by rw [hm, append_assoc]⟩
  · cases w with
    | nil => exact ⟨[], by simp, by simpa using hmark.symm⟩
    | cons z w =>
      exfalso
      have hrest : d :: t ++ after = w ++ y := (List.cons.inj hmark).2
      cases w with
      | nil => exact hy (congrArg List.head? hrest).symm
      | cons z' w =>
        obtain ⟨rfl, -⟩ := List.cons.inj hrest
        exact hu (by simp)

end Clear

end Find
