import Mathlib.Algebra.Group.Nat.Defs
import Mathlib.Data.Nat.Basic

/-!
# Saturating and checked word arithmetic

The three operations of fixed-width arithmetic that do not wrap, on the word
sizes in use, each with the exact-integer fact callers want; and the plain sum,
whose overflow is a panic or a wrap, whichever the program was compiled for.
-/

namespace Word

/-- `a.saturating_add(b)` on `u64`. -/
def saturatingAdd (a b : UInt64) : UInt64 :=
  if a.toNat + b.toNat < 2 ^ 64 then a + b else UInt64.ofNat (2 ^ 64 - 1)

/-- `a.saturating_add(1)` on `u32`. -/
def saturatingIncr (a : UInt32) : UInt32 :=
  if a.toNat + 1 < UInt32.size then a + 1 else a

/-- `a.saturating_sub(b)` on `u64`. -/
def saturatingSub (a b : UInt64) : UInt64 :=
  if b ≤ a then a - b else 0

/-- `a.checked_add(b)` on `u64`. -/
def checkedAdd (a b : UInt64) : Option UInt64 :=
  if a.toNat + b.toNat < UInt64.size then some (a + b) else none

/-- `u64::try_from(n).unwrap_or(u64::MAX)`. -/
def clamp (n : ℕ) : UInt64 :=
  if n < UInt64.size then UInt64.ofNat n else UInt64.ofNat (UInt64.size - 1)

/-- `a.checked_sub(b)` on `u8`. -/
def checkedSub (a b : UInt8) : Option UInt8 :=
  if b ≤ a then some (a - b) else none

inductive Overflow where
  | panics
  | wraps
deriving DecidableEq

/-- `a + b` on `u64`; `none` is a panic. -/
def Overflow.add (mode : Overflow) (a b : UInt64) : Option UInt64 :=
  match mode with
  | .panics => checkedAdd a b
  | .wraps => some (a + b)

/-- `a + b` on `u8`. -/
def Overflow.addByte (mode : Overflow) (a b : UInt8) : Option UInt8 :=
  match mode with
  | .panics => if a.toNat + b.toNat < UInt8.size then some (a + b) else none
  | .wraps => some (a + b)

/-- `a * b` on `u8`. -/
def Overflow.mulByte (mode : Overflow) (a b : UInt8) : Option UInt8 :=
  match mode with
  | .panics => if a.toNat * b.toNat < UInt8.size then some (a * b) else none
  | .wraps => some (a * b)

variable {a b : UInt64}

theorem Overflow.add_of_lt (mode : Overflow) (h : a.toNat + b.toNat < UInt64.size) :
    mode.add a b = some (a + b) := by
  cases mode with
  | panics => exact if_pos h
  | wraps => rfl

theorem Overflow.panics_add_eq_none (h : ¬ a.toNat + b.toNat < UInt64.size) :
    panics.add a b = none := if_neg h

theorem saturatingAdd_lt_iff {c : UInt64} :
    saturatingAdd a b < c ↔ a.toNat + b.toNat < c.toNat := by
  have hc := c.toNat_lt
  unfold saturatingAdd
  split
  · rename_i h
    rw [UInt64.lt_iff_toNat_lt, UInt64.toNat_add, Nat.mod_eq_of_lt h]
  · rename_i h
    rw [UInt64.lt_iff_toNat_lt]
    simp
    omega

theorem checkedSub_eq_some {a b d : UInt8} :
    checkedSub a b = some d ↔ d.toNat + b.toNat = a.toNat := by
  unfold checkedSub
  constructor
  · intro h
    split at h
    · rename_i hle
      rw [Option.some.injEq] at h
      subst h
      rw [UInt8.toNat_sub_of_le _ _ hle]
      have := UInt8.le_iff_toNat_le.mp hle
      omega
    · cases h
  · intro h
    have hle : b ≤ a := by
      rw [UInt8.le_iff_toNat_le]
      omega
    rw [if_pos hle, Option.some.injEq, ← UInt8.toNat_inj, UInt8.toNat_sub_of_le _ _ hle]
    omega

theorem toNat_saturatingIncr (a : UInt32) :
    (saturatingIncr a).toNat = if a.toNat + 1 < UInt32.size then a.toNat + 1 else a.toNat := by
  unfold saturatingIncr
  split_ifs with h
  · rw [UInt32.toNat_add]
    exact Nat.mod_eq_of_lt h
  · rfl

theorem saturatingIncr_pos (a : UInt32) : 0 < (saturatingIncr a).toNat := by
  rw [toNat_saturatingIncr]
  split_ifs with h
  · exact Nat.succ_pos _
  · have hsize : UInt32.size = 2 ^ 32 := rfl
    omega

theorem saturatingIncr_le (a : UInt32) : (saturatingIncr a).toNat ≤ a.toNat + 1 := by
  rw [toNat_saturatingIncr]
  split_ifs
  · exact le_refl _
  · exact Nat.le_succ _

end Word
