import Mathlib.Data.List.AList
import Mathlib.Data.List.Count
import Mathlib.Tactic.Common

/-!
# Counters beside a map

A map whose values belong to groups, and a second map that is meant to hold the
size of each group without counting it again: an entry is counted up and down as
values come, go and change their group, and taken out when it would become zero.

`size` is the truth, `Holds` says that the counters agree with it, and the rules
say what each operation on either map does to the other side.
-/

namespace Tally

open List

variable {κ ν γ : Type*} [DecidableEq κ] [DecidableEq γ]

/-! ## Groups of a map -/

def size (group : ν → Option γ) (m : AList fun _ : κ => ν) (c : γ) : ℕ :=
  m.entries.countP fun e => group e.2 = some c

def weight (group : ν → Option γ) (v : ν) (c : γ) : ℕ := if group v = some c then 1 else 0

section Size

variable {group : ν → Option γ} {m : AList fun _ : κ => ν} {k : κ} {v old : ν}

theorem weight_of_eq_none (h : group v = none) (c : γ) : weight group v c = 0 := by
  simp [weight, h]

theorem size_of_lookup_eq_none (h : ∀ k, m.lookup k = none) (c : γ) : size group m c = 0 := by
  rw [size, countP_eq_zero]
  rintro ⟨k, v⟩ hmem
  rw [← AList.mem_lookup_iff, h k] at hmem
  cases hmem

theorem perm_of_lookup (h : m.lookup k = some v) :
    m.entries.Perm (⟨k, v⟩ :: (m.erase k).entries) := by
  have hmem : k ∈ m.entries.keys := AList.mem_keys.mp (AList.lookup_isSome.mp (by rw [h]; rfl))
  obtain ⟨b, l₁, l₂, hk, heq, hrest⟩ := exists_of_kerase hmem
  have hb : b = v := by
    have hin : (⟨k, b⟩ : Sigma fun _ : κ => ν) ∈ m.entries := by
      rw [heq]
      exact mem_append_right _ mem_cons_self
    exact Option.some.inj ((AList.mem_lookup_iff.mpr hin).symm.trans h)
  subst hb
  show m.entries.Perm (⟨k, b⟩ :: m.entries.kerase k)
  rw [hrest, heq]
  exact perm_middle

theorem size_erase (h : m.lookup k = some old) (c : γ) :
    size group (m.erase k) c + weight group old c = size group m c := by
  rw [size, size, (perm_of_lookup h).countP_eq, countP_cons]
  simp [weight]

theorem size_insert_fresh (h : m.lookup k = none) (c : γ) :
    size group (m.insert k v) c = size group m c + weight group v c := by
  rw [size, AList.entries_insert_of_notMem (AList.lookup_eq_none.mp h), countP_cons]
  simp [size, weight]

variable (h : m.lookup k = some old)
include h

theorem size_insert (c : γ) :
    size group (m.insert k v) c + weight group old c = size group m c + weight group v c := by
  have hinsert : size group (m.insert k v) c = size group (m.erase k) c + weight group v c := by
    rw [size, AList.entries_insert, countP_cons]
    simp only [decide_eq_true_eq]
    rfl
  rw [hinsert, ← size_erase h c]
  omega

theorem size_insert_same (hgroup : group v = group old) (c : γ) :
    size group (m.insert k v) c = size group m c := by
  have hsize : size group (m.insert k v) c + weight group old c =
      size group m c + weight group v c := size_insert h c
  rw [weight, weight, hgroup] at hsize
  omega

theorem size_insert_join (hnone : group old = none) (c : γ) :
    size group (m.insert k v) c = size group m c + weight group v c := by
  rw [← size_insert h c, weight_of_eq_none hnone, Nat.add_zero]

theorem size_insert_leave (hnone : group v = none) (c : γ) :
    size group (m.insert k v) c + weight group old c = size group m c := by
  rw [size_insert h c, weight_of_eq_none hnone, Nat.add_zero]

end Size

/-! ## Counters -/

def count (counters : AList fun _ : γ => ℕ) (c : γ) : ℕ := (counters.lookup c).getD 0

def increment (counters : AList fun _ : γ => ℕ) (c : γ) : AList fun _ : γ => ℕ :=
  match counters.lookup c with
  | some n => counters.insert c (n + 1)
  | none => counters.insert c 1

def decrement (counters : AList fun _ : γ => ℕ) (c : γ) : AList fun _ : γ => ℕ :=
  match counters.lookup c with
  | some n => if n ≤ 1 then counters.erase c else counters.insert c (n - 1)
  | none => counters

def Holds (counters : AList fun _ : γ => ℕ) (n : γ → ℕ) : Prop :=
  ∀ c, counters.lookup c = if n c = 0 then none else some (n c)

section Counters

variable {counters : AList fun _ : γ => ℕ} {n n' : γ → ℕ} {c : γ}

theorem Holds.empty : Holds (∅ : AList fun _ : γ => ℕ) fun _ => 0 := fun _ => rfl

variable (h : Holds counters n)
include h

theorem Holds.count_eq (c : γ) : count counters c = n c := by
  rw [count, h c]
  split_ifs with hzero
  · exact hzero.symm
  · rfl

theorem Holds.lookup_ne_zero (c : γ) : counters.lookup c ≠ some 0 := by
  rw [h c]
  split_ifs with hzero
  · exact nofun
  · intro heq
    exact hzero (Option.some.inj heq)

theorem Holds.congr (heq : ∀ c, n' c = n c) : Holds counters n' := by
  intro c
  rw [h c, heq c]

theorem Holds.increment (hc : n' c = n c + 1) (hother : ∀ d, d ≠ c → n' d = n d) :
    Holds (increment counters c) n' := by
  have hinsert : Tally.increment counters c = counters.insert c (n c + 1) := by
    unfold Tally.increment
    rw [h c]
    split_ifs with hzero
    · rw [hzero]
    · rfl
  intro d
  rw [hinsert]
  by_cases hd : d = c
  · subst hd
    rw [AList.lookup_insert, hc, if_neg (Nat.succ_ne_zero _)]
  · rw [AList.lookup_insert_ne hd, hother d hd]
    exact h d

theorem Holds.decrement (hc : n' c + 1 = n c) (hother : ∀ d, d ≠ c → n' d = n d) :
    Holds (decrement counters c) n' := by
  have hlookup : counters.lookup c = some (n' c + 1) := by
    rw [h c, ← hc, if_neg (Nat.succ_ne_zero _)]
  intro d
  unfold Tally.decrement
  simp only [hlookup, Nat.add_sub_cancel]
  split_ifs with hlast hzero hzero
  · -- the entry goes, and the others stay
    by_cases hd : d = c
    · rw [hd, AList.lookup_erase]
    · rw [AList.lookup_erase_ne hd, h d, if_pos]
      rw [← hother d hd, hzero]
  · by_cases hd : d = c
    · subst hd
      omega
    · rw [AList.lookup_erase_ne hd, h d, ← hother d hd, if_neg hzero]
  · by_cases hd : d = c
    · subst hd
      omega
    · rw [AList.lookup_insert_ne hd, h d, ← hother d hd, if_pos hzero]
  · by_cases hd : d = c
    · subst hd
      rw [AList.lookup_insert]
    · rw [AList.lookup_insert_ne hd, h d, ← hother d hd, if_neg hzero]

end Counters

end Tally
