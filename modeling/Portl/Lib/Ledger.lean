import Mathlib.Algebra.BigOperators.Group.List.Basic
import Mathlib.Algebra.GroupWithZero.Nat
import Portl.Lib.Tally

/-!
# Sums over a map

What the entries of a map weigh together, and what each operation on the map does to
that sum. Each rule is an equation between sums, so that a ledger of what was handed
out is kept without subtraction.
-/

namespace Ledger

open List

variable {κ ν : Type*} [DecidableEq κ] {w u v : ν → ℕ} {m : AList fun _ : κ => ν} {k : κ}
  {x old : ν}

def total (w : ν → ℕ) (m : AList fun _ : κ => ν) : ℕ := (m.entries.map fun e => w e.2).sum

theorem total_erase (h : m.lookup k = some old) : total w (m.erase k) + w old = total w m := by
  have hsum := ((Tally.perm_of_lookup h).map fun e => w e.2).sum_eq
  rw [map_cons, sum_cons] at hsum
  rw [total, total, hsum, Nat.add_comm]

theorem total_insert_fresh (h : m.lookup k = none) : total w (m.insert k x) = total w m + w x := by
  rw [total, AList.entries_insert_of_notMem (AList.lookup_eq_none.mp h), map_cons,
    sum_cons, Nat.add_comm, total]

theorem total_insert (h : m.lookup k = some old) :
    total w (m.insert k x) + w old = total w m + w x := by
  have hinsert : total w (m.insert k x) = total w (m.erase k) + w x := by
    rw [total, AList.entries_insert, map_cons, sum_cons, Nat.add_comm]
    rfl
  rw [hinsert, ← total_erase h]
  omega

theorem total_add (h : ∀ k x, m.lookup k = some x → w x = u x + v x) :
    total w m = total u m + total v m := by
  rw [total, total, total, ← sum_map_add]
  apply congrArg List.sum
  apply map_congr_left
  rintro ⟨k, x⟩ hmem
  exact h k x (AList.mem_lookup_iff.mpr hmem)

theorem total_eq_zero (h : ∀ k x, m.lookup k = some x → w x = 0) : total w m = 0 := by
  apply sum_eq_zero
  intro n hn
  obtain ⟨⟨k, x⟩, hmem, rfl⟩ := mem_map.mp hn
  exact h k x (AList.mem_lookup_iff.mpr hmem)

end Ledger
