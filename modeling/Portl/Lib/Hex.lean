import Mathlib.Data.Nat.Notation

/-!
# Hexadecimal

Lower-case encoding and case-blind decoding of byte strings, as the `hex` crate
documents them. Decoding asks for an even number of digits; encoding never
produces anything else, so the round trip is unconditional.
-/

namespace Hex

def digit (n : ℕ) : Char :=
  if n < 10 then Char.ofNat (48 + n) else Char.ofNat (87 + n)

def value (c : Char) : Option ℕ :=
  if 48 ≤ c.toNat ∧ c.toNat ≤ 57 then some (c.toNat - 48)
  else if 97 ≤ c.toNat ∧ c.toNat ≤ 102 then some (c.toNat - 87)
  else if 65 ≤ c.toNat ∧ c.toNat ≤ 70 then some (c.toNat - 55)
  else none

def encodeByte (b : UInt8) : List Char := [digit (b.toNat / 16), digit (b.toNat % 16)]

def encode (bytes : List UInt8) : String := String.ofList (bytes.flatMap encodeByte)

def decodeChars : List Char → Option (List UInt8)
  | [] => some []
  | [_] => none
  | hi :: lo :: rest =>
    match value hi, value lo, decodeChars rest with
    | some h, some l, some bytes => some (UInt8.ofNat (h * 16 + l) :: bytes)
    | _, _, _ => none

def decode (s : String) : Option (List UInt8) := decodeChars s.toList

theorem value_digit {n : ℕ} (h : n < 16) : value (digit n) = some n := by
  have : ∀ m : Fin 16, value (digit m) = some m.val := by decide
  exact this ⟨n, h⟩

theorem decodeChars_encodeByte (b : UInt8) (rest : List Char) :
    decodeChars (encodeByte b ++ rest) = (decodeChars rest).map (b :: ·) := by
  have hb : b.toNat < 256 := b.toNat_lt
  have hhi : b.toNat / 16 < 16 := by omega
  have hlo : b.toNat % 16 < 16 := by omega
  have hsum : b.toNat / 16 * 16 + b.toNat % 16 = b.toNat := by omega
  simp only [encodeByte, List.cons_append, List.nil_append, decodeChars, value_digit hhi,
    value_digit hlo]
  cases decodeChars rest with
  | none => rfl
  | some bytes => simp [hsum]

/-- **Round trip.** -/
theorem decode_encode (bytes : List UInt8) : decode (encode bytes) = some bytes := by
  simp only [decode, encode, String.toList_ofList]
  induction bytes with
  | nil => rfl
  | cons b bytes ih =>
    rw [List.flatMap_cons, decodeChars_encodeByte, ih]
    rfl

/-! ## Case -/

theorem toNat_toLower (c : Char) :
    c.toLower.toNat = if 65 ≤ c.toNat ∧ c.toNat ≤ 90 then c.toNat + 32 else c.toNat := by
  unfold Char.toLower
  by_cases h : c.val ≥ 'A'.val ∧ c.val ≤ 'Z'.val
  · have hnat : 65 ≤ c.toNat ∧ c.toNat ≤ 90 :=
      ⟨UInt32.le_iff_toNat_le.mp h.1, UInt32.le_iff_toNat_le.mp h.2⟩
    rw [dif_pos h, if_pos hnat]
    show (c.val + 32).toNat = c.toNat + 32
    rw [UInt32.toNat_add, Char.toNat_val]
    exact Nat.mod_eq_of_lt (by simp; omega)
  · rw [dif_neg h, if_neg]
    exact fun hnat => h ⟨UInt32.le_iff_toNat_le.mpr hnat.1, UInt32.le_iff_toNat_le.mpr hnat.2⟩

theorem value_toLower (c : Char) : value c.toLower = value c := by
  by_cases hupper : 65 ≤ c.toNat ∧ c.toNat ≤ 90
  · have hlower : c.toLower.toNat = c.toNat + 32 := by rw [toNat_toLower, if_pos hupper]
    unfold value
    rw [hlower, if_neg (by omega : ¬ (48 ≤ c.toNat + 32 ∧ c.toNat + 32 ≤ 57)),
      if_neg (by omega : ¬ (48 ≤ c.toNat ∧ c.toNat ≤ 57)),
      if_neg (by omega : ¬ (97 ≤ c.toNat ∧ c.toNat ≤ 102)),
      if_neg (by omega : ¬ (65 ≤ c.toNat + 32 ∧ c.toNat + 32 ≤ 70))]
    -- the letters up to F and no others are digits, in both cases
    by_cases hdigit : c.toNat ≤ 70
    · rw [if_pos (by omega), if_pos (by omega)]
      congr 1
    · rw [if_neg (by omega), if_neg (by omega)]
  · have hsame : c.toLower.toNat = c.toNat := by rw [toNat_toLower, if_neg hupper]
    unfold value
    rw [hsame]

theorem decodeChars_map_toLower : ∀ s : List Char,
    decodeChars (s.map Char.toLower) = decodeChars s
  | [] => rfl
  | [_] => rfl
  | hi :: lo :: rest => by
    simp [decodeChars, value_toLower, decodeChars_map_toLower rest]

theorem decode_congr {s t : String}
    (h : s.toList.map Char.toLower = t.toList.map Char.toLower) : decode s = decode t := by
  unfold decode
  rw [← decodeChars_map_toLower s.toList, h, decodeChars_map_toLower]

end Hex
