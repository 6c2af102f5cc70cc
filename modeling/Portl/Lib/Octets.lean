import Mathlib.Algebra.Group.Nat.Defs

/-!
# Numbers and exact reads over octets

A number in a fixed count of octets, the lowest first, and the read that takes a fixed
count from the front of a stream or fails.
-/

namespace Octets

open List

/-! ## Little-endian numbers -/

def toLe : ℕ → ℕ → List UInt8
  | 0, _ => []
  | width + 1, n => UInt8.ofNat n :: toLe width (n / 256)

def ofLe : List UInt8 → ℕ
  | [] => 0
  | b :: bs => b.toNat + 256 * ofLe bs

@[simp] theorem length_toLe (width n : ℕ) : (toLe width n).length = width := by
  induction width generalizing n with
  | zero => rfl
  | succ width ih => rw [toLe, length_cons, ih]

variable {n : ℕ}

theorem ofLe_toLe {width : ℕ} (h : n < 256 ^ width) : ofLe (toLe width n) = n := by
  induction width generalizing n with
  | zero =>
    rw [Nat.pow_zero] at h
    obtain rfl : n = 0 := by omega
    rfl
  | succ width ih =>
    have hdiv : n / 256 < 256 ^ width := by
      apply Nat.div_lt_of_lt_mul
      rwa [Nat.pow_succ, Nat.mul_comm] at h
    rw [toLe, ofLe, ih hdiv, UInt8.toNat_ofNat']
    omega

theorem toLe_ofLe (bs : List UInt8) : toLe bs.length (ofLe bs) = bs := by
  induction bs with
  | nil => rfl
  | cons b bs ih =>
    have hb := b.toNat_lt
    have hlow : UInt8.ofNat (b.toNat + 256 * ofLe bs) = b := by
      apply UInt8.toNat_inj.mp
      rw [UInt8.toNat_ofNat']
      omega
    have hhigh : (b.toNat + 256 * ofLe bs) / 256 = ofLe bs := by omega
    rw [length_cons, ofLe, toLe, hlow, hhigh, ih]

theorem ofLe_lt (bs : List UInt8) : ofLe bs < 256 ^ bs.length := by
  induction bs with
  | nil => exact Nat.one_pos
  | cons b bs ih =>
    have hb := b.toNat_lt
    rw [ofLe, length_cons, Nat.pow_succ]
    omega

/-! ## Exact reads -/

variable {α : Type*}

/-- The first `n` elements and the rest; `none` where there are fewer. -/
def readExact (n : ℕ) (stream : List α) : Option (List α × List α) :=
  if n ≤ stream.length then some (stream.take n, stream.drop n) else none

theorem readExact_eq_some {stream a b : List α} :
    readExact n stream = some (a, b) ↔ stream = a ++ b ∧ a.length = n := by
  unfold readExact
  constructor
  · intro h
    split at h
    · next hle =>
        obtain ⟨rfl, rfl⟩ := Prod.mk.inj (Option.some.inj h)
        rw [take_append_drop, length_take]
        exact ⟨rfl, Nat.min_eq_left hle⟩
    · cases h
  · rintro ⟨rfl, rfl⟩
    rw [if_pos (by rw [length_append]; omega), take_left, drop_left]

theorem readExact_append {a : List α} (h : a.length = n) (b : List α) :
    readExact n (a ++ b) = some (a, b) :=
  readExact_eq_some.mpr ⟨rfl, h⟩

end Octets
