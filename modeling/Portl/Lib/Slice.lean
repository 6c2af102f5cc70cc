import Mathlib.Data.List.Basic

/-!
# Pieces of a sequence

A reader that follows a sequence gets it in pieces and keeps a position. `slice`
is a piece, and `without` what lies before the position when some pieces were left
out: a piece that begins at the position extends it, a piece that is left out
becomes a gap.
-/

namespace Slice

open List

variable {α : Type*}

def slice (xs : List α) (first last : ℕ) : List α := (xs.take last).drop first

def inGap (gaps : List (ℕ × ℕ)) (i : ℕ) : Bool := gaps.any fun gap => gap.1 ≤ i ∧ i < gap.2

def without (xs : List α) (last : ℕ) (gaps : List (ℕ × ℕ)) : List α :=
  (List.range last).filterMap fun i => if inGap gaps i then none else xs[i]?

theorem inGap_concat (gaps : List (ℕ × ℕ)) (gap : ℕ × ℕ) (i : ℕ) :
    inGap (gaps ++ [gap]) i = (inGap gaps i || decide (gap.1 ≤ i ∧ i < gap.2)) := by
  simp [inGap]

theorem drop_slice (xs : List α) (first last n : ℕ) :
    (slice xs first last).drop n = slice xs (first + n) last :=
  drop_drop

theorem slice_self (xs : List α) (n : ℕ) : slice xs n n = [] :=
  drop_eq_nil_of_le (length_take_le n xs)

variable {last first position : ℕ} {gaps : List (ℕ × ℕ)}

theorem le_of_slice_ne_nil {xs : List α} (h : slice xs first last ≠ []) : first ≤ last := by
  rcases Nat.le_total first last with hle | hge
  · exact hle
  · exact absurd (drop_eq_nil_of_le (Nat.le_trans (length_take_le last xs) hge)) h

theorem slice_succ (xs : List α) (h : first ≤ last) :
    slice xs first (last + 1) = slice xs first last ++ xs[last]?.toList := by
  unfold slice
  rw [take_add_one]
  rcases Nat.lt_or_ge last xs.length with hlt | hge
  · have hfirst : first ≤ (xs.take last).length := by
      rw [length_take]
      omega
    rw [drop_append_of_le_length hfirst]
  · rw [List.getElem?_eq_none hge, Option.toList_none, append_nil, append_nil]

theorem without_succ (xs : List α) (last : ℕ) (h : ∀ gap ∈ gaps, gap.2 ≤ last) :
    without xs (last + 1) gaps = without xs last gaps ++ xs[last]?.toList := by
  have hnone : ¬ inGap gaps last = true := by
    rw [inGap, any_eq_true]
    rintro ⟨gap, hgap, hin⟩
    have hlast := h gap hgap
    have hlt := (of_decide_eq_true hin).2
    omega
  unfold without
  rw [range_succ, filterMap_append, filterMap_cons, if_neg hnone]
  cases xs[last]? with
  | none => rfl
  | some x => rfl

theorem without_extend (xs : List α) (h : ∀ gap ∈ gaps, gap.2 ≤ position) (hle : position ≤ last) :
    without xs last gaps = without xs position gaps ++ slice xs position last := by
  induction hle with
  | refl => rw [slice_self, append_nil]
  | @step last hle ih =>
    have hgaps : ∀ gap ∈ gaps, gap.2 ≤ last := fun gap hgap => Nat.le_trans (h gap hgap) hle
    rw [without_succ xs last hgaps, ih, slice_succ xs hle, append_assoc]

theorem without_nil (xs : List α) (last : ℕ) : without xs last [] = xs.take last := by
  have hgaps : ∀ gap ∈ ([] : List (ℕ × ℕ)), gap.2 ≤ 0 := nofun
  exact without_extend xs hgaps (Nat.zero_le last)

theorem without_gap (xs : List α) (gaps : List (ℕ × ℕ)) (hle : position ≤ last) :
    without xs last (gaps ++ [(position, last)]) = without xs position gaps := by
  obtain ⟨n, rfl⟩ := Nat.exists_eq_add_of_le hle
  unfold without
  rw [range_add, filterMap_append]
  have hbefore : (List.range position).filterMap (fun i =>
        if inGap (gaps ++ [(position, position + n)]) i then none else xs[i]?) =
      (List.range position).filterMap fun i => if inGap gaps i then none else xs[i]? := by
    refine filterMap_congr fun i hi => ?_
    have hlt := mem_range.mp hi
    have hout : ¬ (position ≤ i ∧ i < position + n) := by omega
    rw [inGap_concat, decide_eq_false hout, Bool.or_false]
  have hafter : ((List.range n).map (position + ·)).filterMap (fun i =>
        if inGap (gaps ++ [(position, position + n)]) i then none else xs[i]?) = [] := by
    rw [filterMap_eq_nil_iff]
    intro i hi
    obtain ⟨k, hk, rfl⟩ := mem_map.mp hi
    have hin : position ≤ position + k ∧ position + k < position + n :=
      ⟨Nat.le_add_right _ _, Nat.add_lt_add_left (mem_range.mp hk) _⟩
    rw [inGap_concat, decide_eq_true hin, Bool.or_true, if_pos rfl]
  rw [hbefore, hafter, append_nil]

end Slice
