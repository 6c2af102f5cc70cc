import Mathlib.Data.List.Basic
import Mathlib.Data.Nat.Init

/-!
# Decimal numerals

What a string library reads as an unsigned number: decimal digits, at least one, with
an optional plus sign in front, below a limit. Leading zeros are read too, so a number
has many spellings, and one of them is plain.
-/

namespace Numeral

open List

def decimal (s : List Char) : Option ℕ :=
  if s ≠ [] ∧ s.all Char.isDigit = true then some (Nat.ofDigitChars 10 s 0) else none

/-- `str::parse` at an unsigned type of `limit` values. -/
def unsigned (limit : ℕ) (s : List Char) : Option ℕ :=
  (decimal (if s.head? = some '+' then s.tail else s)).filter fun n => decide (n < limit)

def Plain (s : List Char) : Prop := s.head? ≠ some '+' ∧ (s.head? = some '0' → s = ['0'])

instance (s : List Char) : Decidable (Plain s) := inferInstanceAs (Decidable (_ ∧ _))

variable {n limit : ℕ} {s : List Char} {c : Char}

theorem decimal_eq_some :
    decimal s = some n ↔
      s ≠ [] ∧ (∀ c ∈ s, c.isDigit = true) ∧ Nat.ofDigitChars 10 s 0 = n := by
  unfold decimal
  split
  · next h =>
      rw [Option.some.injEq]
      constructor
      · intro hvalue
        exact ⟨h.1, all_eq_true.mp h.2, hvalue⟩
      · rintro ⟨-, -, hvalue⟩
        exact hvalue
  · next h =>
      constructor
      · rintro ⟨⟩
      · rintro ⟨hne, hdigits, -⟩
        exact absurd ⟨hne, all_eq_true.mpr hdigits⟩ h

theorem unsigned_eq_some :
    unsigned limit s = some n ↔
      decimal (if s.head? = some '+' then s.tail else s) = some n ∧ n < limit := by
  simp [unsigned, Option.filter_eq_some_iff]

theorem mem_of_unsigned (h : unsigned limit s = some n) (hc : c ∈ s) :
    c.isDigit = true ∨ c = '+' := by
  obtain ⟨-, hdigits, -⟩ := decimal_eq_some.mp (unsigned_eq_some.mp h).1
  cases s with
  | nil => cases hc
  | cons x s =>
    by_cases hx : x = '+'
    · rcases mem_cons.mp hc with rfl | hmem
      · exact .inr hx
      · simp only [List.head?_cons, hx, if_true, tail_cons] at hdigits
        exact .inl (hdigits c hmem)
    · simp only [List.head?_cons, Option.some.injEq, hx, if_false] at hdigits
      exact .inl (hdigits c hc)

/-! ## The plain spelling -/

theorem isDigit_bounds (h : c.isDigit = true) : 48 ≤ c.toNat ∧ c.toNat ≤ 57 := by
  simp only [Char.isDigit, ge_iff_le, Bool.and_eq_true, decide_eq_true_eq] at h
  exact h

theorem digitChar_value (h : c.isDigit = true) : Nat.digitChar (c.toNat - '0'.toNat) = c := by
  obtain ⟨hlow, hhigh⟩ := isDigit_bounds h
  have hzero : '0'.toNat = 48 := rfl
  apply Char.toNat_inj.mp
  rw [Nat.toNat_digitChar_of_lt_ten (by omega)]
  omega

theorem toDigits_append (hdigits : ∀ c ∈ s, c.isDigit = true) (hn : 0 < n) :
    Nat.toDigits 10 (Nat.ofDigitChars 10 s n) = Nat.toDigits 10 n ++ s := by
  induction s generalizing n with
  | nil => simp
  | cons c s ih =>
    rw [forall_mem_cons] at hdigits
    have hzero : '0'.toNat = 48 := rfl
    obtain ⟨hlow, hhigh⟩ := isDigit_bounds hdigits.1
    have hvalue : c.toNat - '0'.toNat < 10 := by omega
    have hnext := Nat.toDigits_append_toDigits (b := 10) (by decide) hn hvalue
    rw [Nat.toDigits_of_lt_base hvalue, digitChar_value hdigits.1] at hnext
    rw [Nat.ofDigitChars_cons, ih hdigits.2 (by omega), ← hnext, append_assoc,
      singleton_append]

theorem toDigits_value (hne : s ≠ []) (hdigits : ∀ c ∈ s, c.isDigit = true)
    (hplain : s.head? = some '0' → s = ['0']) : Nat.toDigits 10 (Nat.ofDigitChars 10 s 0) = s := by
  cases s with
  | nil => exact absurd rfl hne
  | cons c s =>
    by_cases hc : c = '0'
    · rw [hplain (by rw [hc]; rfl)]
      decide
    · rw [forall_mem_cons] at hdigits
      have hzero : '0'.toNat = 48 := rfl
      obtain ⟨hlow, hhigh⟩ := isDigit_bounds hdigits.1
      have hpos : c.toNat ≠ '0'.toNat := fun h => hc (Char.toNat_inj.mp h)
      rw [Nat.ofDigitChars_cons, Nat.mul_zero, Nat.zero_add, toDigits_append hdigits.2 (by omega),
        Nat.toDigits_of_lt_base (by omega), digitChar_value hdigits.1, singleton_append]

theorem toDigits_head (h : (Nat.toDigits 10 n).head? = some '0') : Nat.toDigits 10 n = ['0'] := by
  induction n using Nat.strong_induction_on with
  | _ n ih =>
    by_cases hn : n < 10
    · rw [Nat.toDigits_of_lt_base hn] at h ⊢
      rw [List.head?_cons, Option.some.injEq] at h
      rw [h]
    · rw [Nat.toDigits_of_base_le (by decide) (Nat.le_of_not_lt hn),
        List.head?_append_of_ne_nil _ Nat.toDigits_ne_nil] at h
      have hzero := congrArg (Nat.ofDigitChars 10 · 0) (ih (n / 10) (by omega) h)
      simp only [Nat.ofDigitChars_ten_toDigits] at hzero
      have hvalue : Nat.ofDigitChars 10 ['0'] 0 = 0 := by decide
      omega

theorem plain_repr (n : ℕ) : Plain n.repr.toList := by
  rw [Nat.toList_repr]
  refine ⟨?_, toDigits_head⟩
  intro hsign
  have hdigit : '+'.isDigit = true :=
    Nat.isDigit_of_mem_toDigits (by decide) (by decide) (mem_of_head? hsign)
  exact absurd hdigit (by decide)

theorem decimal_repr (n : ℕ) : decimal n.repr.toList = some n := by
  rw [Nat.toList_repr, decimal_eq_some]
  refine ⟨Nat.toDigits_ne_nil, ?_, Nat.ofDigitChars_toDigits (by decide) (by decide)⟩
  intro c hc
  exact Nat.isDigit_of_mem_toDigits (by decide) (by decide) hc

theorem plain_iff (h : unsigned limit s = some n) : Plain s ↔ s = n.repr.toList := by
  obtain ⟨hdecimal, -⟩ := unsigned_eq_some.mp h
  constructor
  · rintro ⟨hsign, hzero⟩
    rw [if_neg hsign] at hdecimal
    obtain ⟨hne, hdigits, hvalue⟩ := decimal_eq_some.mp hdecimal
    rw [Nat.toList_repr, ← hvalue, toDigits_value hne hdigits hzero]
  · rintro rfl
    exact plain_repr n

theorem unsigned_repr (h : n < limit) : unsigned limit n.repr.toList = some n := by
  rw [unsigned_eq_some, if_neg (plain_repr n).1]
  exact ⟨decimal_repr n, h⟩

end Numeral
