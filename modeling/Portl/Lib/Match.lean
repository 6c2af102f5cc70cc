import Mathlib.Data.List.Basic
import Mathlib.Data.List.Infix
import Mathlib.Data.List.Induction

/-!
# Finding a mark by counting

A scanner that looks for a mark in a stream and keeps one number: how much of the
mark the last bytes make. When a byte does not go on with the mark, it falls back
to the first byte of the mark or to nothing, and never to a shorter match that is
under way. That is right for a mark whose first byte does not come again in it:
`Tracks` is the invariant, that the number is the longest match.
-/

namespace Match

open List

variable {α : Type*} [DecidableEq α]

/-- The count after one more byte; `none` when the mark is complete. -/
def next (mark : List α) (n : ℕ) (b : α) : Option ℕ :=
  if mark[n]? = some b then
    if n + 1 = mark.length then none else some (n + 1)
  else some (if mark.head? = some b then 1 else 0)

/-- The bytes read so far end with the first `n` of the mark, with no more of it,
and do not hold the mark. -/
structure Tracks (mark ys : List α) (n : ℕ) : Prop where
  lt : n < mark.length
  suffix : mark.take n <:+ ys
  longest : ∀ m ≤ mark.length, mark.take m <:+ ys → m ≤ n
  absent : ¬ mark <:+: ys

variable {mark ys : List α} {n : ℕ} {b : α}

omit [DecidableEq α] in
theorem tracks_nil (h : mark ≠ []) : Tracks mark [] 0 where
  lt := length_pos_iff.mpr h
  suffix := nil_suffix
  longest := by
    intro m hm hsuffix
    have hnil := suffix_nil.mp hsuffix
    have hlength := congrArg List.length hnil
    rw [length_take, Nat.min_eq_left hm] at hlength
    exact hlength.le
  absent := fun hempty => h (infix_nil.mp hempty)

omit [DecidableEq α] in
/-- A part of the mark that ends with the byte just read is one byte longer than
a part that ended before it. -/
theorem take_succ_suffix_concat {k : ℕ} (hk : k < mark.length) :
    mark.take (k + 1) <:+ ys ++ [b] ↔ mark.take k <:+ ys ∧ mark[k] = b := by
  rw [← take_concat_get' mark k hk]
  constructor
  · rintro ⟨t, ht⟩
    rw [← append_assoc] at ht
    obtain ⟨hbefore, hlast⟩ := append_inj' ht rfl
    exact ⟨⟨t, hbefore⟩, singleton_inj.mp hlast⟩
  · rintro ⟨⟨t, rfl⟩, rfl⟩
    exact ⟨t, (append_assoc _ _ _).symm⟩

omit [DecidableEq α] in
theorem Tracks.le_succ (h : Tracks mark ys n) {m : ℕ} (hm : m ≤ mark.length)
    (hsuffix : mark.take m <:+ ys ++ [b]) : m ≤ n + 1 := by
  cases m with
  | zero => exact Nat.zero_le _
  | succ k =>
    have hbefore := ((take_succ_suffix_concat hm).mp hsuffix).1
    exact Nat.succ_le_succ (h.longest k (Nat.le_of_succ_le hm) hbefore)

omit [DecidableEq α] in
theorem Tracks.absent_concat (h : Tracks mark ys n)
    (hpart : ∀ m ≤ mark.length, mark.take m <:+ ys ++ [b] → m < mark.length) :
    ¬ mark <:+: ys ++ [b] := by
  intro hfound
  rcases infix_concat_iff.mp hfound with hsuffix | hbefore
  · have hfull := hpart mark.length le_rfl (by rw [take_length]; exact hsuffix)
    exact lt_irrefl _ hfull
  · exact h.absent hbefore

omit [DecidableEq α] in
theorem part_eq_zero {c : α} {t : List α} (hc : c ∉ t) {k m : ℕ} (hkm : k < m)
    (hm : m ≤ (c :: t).length) (hk : (c :: t).take k <:+ ys) (hys : (c :: t).take m <:+ ys) :
    k = 0 := by
  cases k with
  | zero => rfl
  | succ k =>
    exfalso
    have hinside : (c :: t).take (k + 1) <:+ (c :: t).take m := by
      refine suffix_of_suffix_length_le hk hys ?_
      simp only [length_take]
      omega
    obtain ⟨before, hbefore⟩ := hinside
    cases m with
    | zero => exact absurd hkm (Nat.not_lt_zero _)
    | succ m =>
      rw [take_succ_cons, take_succ_cons] at hbefore
      cases before with
      | nil =>
        have hlength := congrArg List.length hbefore
        simp only [nil_append, length_cons, length_take] at hlength hm
        omega
      | cons x before =>
        rw [cons_append] at hbefore
        have htail := (List.cons.inj hbefore).2
        have hmem : c ∈ t.take m := by
          rw [← htail]
          exact mem_append_right _ mem_cons_self
        exact hc (mem_of_mem_take hmem)

/-- **The count is right**: it goes on, or the mark has just been completed. -/
theorem tracks_next {c : α} {t : List α} (hc : c ∉ t) (h : Tracks (c :: t) ys n) (b : α) :
    (∃ n', next (c :: t) n b = some n' ∧ Tracks (c :: t) (ys ++ [b]) n') ∨
      (next (c :: t) n b = none ∧ c :: t <:+ ys ++ [b]) := by
  have hin : n < (c :: t).length := h.lt
  have hget : (c :: t)[n]? = some (c :: t)[n] := List.getElem?_eq_getElem hin
  by_cases hb : (c :: t)[n]? = some b
  · have hbyte : (c :: t)[n] = b := Option.some.inj (hget.symm.trans hb)
    have hgrown : (c :: t).take (n + 1) <:+ ys ++ [b] :=
      (take_succ_suffix_concat h.lt).mpr ⟨h.suffix, hbyte⟩
    by_cases hfull : n + 1 = (c :: t).length
    · right
      refine ⟨by simp only [next, if_pos hb, if_pos hfull], ?_⟩
      rw [hfull, take_length] at hgrown
      exact hgrown
    · left
      have hlt : n + 1 < (c :: t).length := Nat.lt_of_le_of_ne h.lt hfull
      refine ⟨n + 1, by simp only [next, if_pos hb, if_neg hfull], hlt, hgrown, ?_, ?_⟩
      · intro m hm hsuffix
        exact h.le_succ hm hsuffix
      · refine h.absent_concat ?_
        intro m hm hsuffix
        exact Nat.lt_of_le_of_lt (h.le_succ hm hsuffix) hlt
  · left
    -- the match under way is lost, and no shorter one is under way
    have hstart : ∀ m ≤ (c :: t).length, (c :: t).take m <:+ ys ++ [b] →
        m ≤ if (c :: t).head? = some b then 1 else 0 := by
      intro m hm hsuffix
      cases m with
      | zero => exact Nat.zero_le _
      | succ k =>
        obtain ⟨hbefore, hbyte⟩ := (take_succ_suffix_concat hm).mp hsuffix
        have hle := h.longest k (Nat.le_of_succ_le hm) hbefore
        have hne : k ≠ n := by
          rintro rfl
          exact hb (by rw [hget, hbyte])
        have hzero := part_eq_zero hc (Nat.lt_of_le_of_ne hle hne) h.lt.le hbefore h.suffix
        subst hzero
        rw [if_pos]
        rw [List.head?_cons, ← hbyte]
        rfl
    have hlt : (if (c :: t).head? = some b then 1 else 0) < (c :: t).length := by
      split_ifs with hhead
      · -- a mark of one byte would have gone on with it
        rcases Nat.eq_or_lt_of_le (Nat.succ_le_of_lt (Nat.zero_lt_of_lt h.lt)) with hone | hlong
        · have hn : n = 0 := by
            have := h.lt
            omega
          subst hn
          exact absurd hhead hb
        · exact hlong
      · exact Nat.zero_lt_of_lt h.lt
    refine ⟨_, by simp only [next, if_neg hb], hlt, ?_, hstart, ?_⟩
    · split_ifs with hhead
      · rw [List.head?_cons, Option.some.injEq] at hhead
        rw [hhead]
        exact suffix_append ys [b]
      · exact nil_suffix
    · refine h.absent_concat ?_
      intro m hm hsuffix
      exact Nat.lt_of_le_of_lt (hstart m hm hsuffix) hlt

end Match
