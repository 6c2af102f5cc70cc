import Mathlib.Data.List.Basic
import Mathlib.Tactic.Common

/-!
# Bytes as letters and digits

A codec writes bytes as letters and digits and reads them back, without regard to the
case of a letter. `rfc4648` is the one with five bits to a symbol and no padding: the
bits of the bytes, the highest first, are cut anew, and a last short group is filled up
with zeros. Reading cuts them back and drops an incomplete byte, whatever its bits are.
-/

namespace Base32

open List

structure Codec where
  encode : List UInt8 → List Char
  decode : List Char → Option (List UInt8)
  decode_encode : ∀ bytes, decode (encode bytes) = some bytes
  decode_congr : ∀ {s t : List Char}, s.map Char.toLower = t.map Char.toLower → decode s = decode t
  isAlphanum : ∀ bytes, ∀ c ∈ encode bytes, c.isAlphanum = true

/-! ## Bits -/

def ofBits (bits : List Bool) : ℕ := bits.foldl (fun n b => 2 * n + b.toNat) 0

def quintet (n : ℕ) : List Bool :=
  [n.testBit 4, n.testBit 3, n.testBit 2, n.testBit 1, n.testBit 0]

def octet (b : UInt8) : List Bool :=
  [b.toNat.testBit 7, b.toNat.testBit 6, b.toNat.testBit 5, b.toNat.testBit 4, b.toNat.testBit 3,
    b.toNat.testBit 2, b.toNat.testBit 1, b.toNat.testBit 0]

def quintets : List Bool → List ℕ
  | b₁ :: b₂ :: b₃ :: b₄ :: b₅ :: rest => ofBits [b₁, b₂, b₃, b₄, b₅] :: quintets rest
  | [] => []
  | [b₁] => [ofBits [b₁, false, false, false, false]]
  | [b₁, b₂] => [ofBits [b₁, b₂, false, false, false]]
  | [b₁, b₂, b₃] => [ofBits [b₁, b₂, b₃, false, false]]
  | [b₁, b₂, b₃, b₄] => [ofBits [b₁, b₂, b₃, b₄, false]]

def octets : List Bool → List UInt8
  | b₁ :: b₂ :: b₃ :: b₄ :: b₅ :: b₆ :: b₇ :: b₈ :: rest =>
    UInt8.ofNat (ofBits [b₁, b₂, b₃, b₄, b₅, b₆, b₇, b₈]) :: octets rest
  | _ => []

theorem quintet_ofBits : ∀ b₁ b₂ b₃ b₄ b₅ : Bool,
    quintet (ofBits [b₁, b₂, b₃, b₄, b₅]) = [b₁, b₂, b₃, b₄, b₅] ∧
      ofBits [b₁, b₂, b₃, b₄, b₅] < 32 := by
  decide

theorem ofBits_octet (b : UInt8) : UInt8.ofNat (ofBits (octet b)) = b := by
  have hall : ∀ n : Fin 256, UInt8.ofNat (ofBits (octet (UInt8.ofNat n))) = UInt8.ofNat n := by
    decide +kernel
  have hb := hall ⟨b.toNat, b.toNat_lt⟩
  rwa [UInt8.ofNat_toNat] at hb

theorem flatMap_quintets (bits : List Bool) :
    ∃ zeros : List Bool, zeros.length < 8 ∧ (quintets bits).flatMap quintet = bits ++ zeros := by
  fun_induction quintets bits with
  | case1 b₁ b₂ b₃ b₄ b₅ rest ih =>
    obtain ⟨zeros, hlength, hbits⟩ := ih
    refine ⟨zeros, hlength, ?_⟩
    rw [flatMap_cons, (quintet_ofBits b₁ b₂ b₃ b₄ b₅).1, hbits]
    rfl
  | case2 => exact ⟨[], by decide, rfl⟩
  | case3 b₁ =>
    exact ⟨[false, false, false, false], by decide, (quintet_ofBits b₁ _ _ _ _).1⟩
  | case4 b₁ b₂ => exact ⟨[false, false, false], by decide, (quintet_ofBits b₁ b₂ _ _ _).1⟩
  | case5 b₁ b₂ b₃ => exact ⟨[false, false], by decide, (quintet_ofBits b₁ b₂ b₃ _ _).1⟩
  | case6 b₁ b₂ b₃ b₄ => exact ⟨[false], by decide, (quintet_ofBits b₁ b₂ b₃ b₄ _).1⟩

theorem quintets_lt (bits : List Bool) : ∀ n ∈ quintets bits, n < 32 := by
  fun_induction quintets bits with
  | case1 b₁ b₂ b₃ b₄ b₅ rest ih =>
    intro n hn
    rcases mem_cons.mp hn with rfl | hn
    · exact (quintet_ofBits b₁ b₂ b₃ b₄ b₅).2
    · exact ih n hn
  | case2 => exact nofun
  | case3 b₁ => simpa using (quintet_ofBits b₁ _ _ _ _).2
  | case4 b₁ b₂ => simpa using (quintet_ofBits b₁ b₂ _ _ _).2
  | case5 b₁ b₂ b₃ => simpa using (quintet_ofBits b₁ b₂ b₃ _ _).2
  | case6 b₁ b₂ b₃ b₄ => simpa using (quintet_ofBits b₁ b₂ b₃ b₄ _).2

theorem octets_short {bits : List Bool} (h : bits.length < 8) : octets bits = [] := by
  unfold octets
  split
  · simp only [length_cons] at h
    omega
  · rfl

theorem octets_flatMap (bytes : List UInt8) {rest : List Bool} (h : rest.length < 8) :
    octets (bytes.flatMap octet ++ rest) = bytes := by
  induction bytes with
  | nil => exact octets_short h
  | cons b bytes ih =>
    rw [flatMap_cons, append_assoc]
    show UInt8.ofNat (ofBits (octet b)) :: octets (bytes.flatMap octet ++ rest) = _
    rw [ofBits_octet, ih]

/-! ## Symbols -/

/-- `A` to `Z`, then `2` to `7`. -/
def symbol (n : ℕ) : Char := if n < 26 then Char.ofNat (65 + n) else Char.ofNat (24 + n)

def value (c : Char) : Option ℕ :=
  let l := c.toLower
  if 'a' ≤ l ∧ l ≤ 'z' then some (l.toNat - 97)
  else if '2' ≤ l ∧ l ≤ '7' then some (l.toNat - 24)
  else none

theorem value_symbol {n : ℕ} (h : n < 32) :
    value (symbol n) = some n ∧ (symbol n).isAlphanum = true := by
  have hall : ∀ n : Fin 32, value (symbol n) = some n.val ∧ (symbol n).isAlphanum = true := by
    decide
  exact hall ⟨n, h⟩

theorem mapM_value_symbols {ns : List ℕ} (h : ∀ n ∈ ns, n < 32) :
    (ns.map symbol).mapM value = some ns := by
  induction ns with
  | nil => rfl
  | cons n ns ih =>
    rw [map_cons, mapM_cons, (value_symbol (h n mem_cons_self)).1,
      ih fun m hm => h m (mem_cons_of_mem _ hm)]
    rfl

theorem mapM_value_congr {s t : List Char} (h : s.map Char.toLower = t.map Char.toLower) :
    s.mapM value = t.mapM value := by
  induction s generalizing t with
  | nil =>
    obtain rfl : t = [] := map_eq_nil_iff.mp h.symm
    rfl
  | cons c s ih =>
    cases t with
    | nil => cases h
    | cons d t =>
      obtain ⟨hc, hs⟩ := List.cons.inj h
      have hvalue : value c = value d := by
        unfold value
        rw [hc]
      rw [mapM_cons, mapM_cons, hvalue, ih hs]

def rfc4648 : Codec where
  encode bytes := (quintets (bytes.flatMap octet)).map symbol
  decode s := (s.mapM value).map fun ns => octets (ns.flatMap quintet)
  decode_encode bytes := by
    obtain ⟨zeros, hlength, hbits⟩ := flatMap_quintets (bytes.flatMap octet)
    rw [mapM_value_symbols (quintets_lt _), Option.map_some, hbits, octets_flatMap bytes hlength]
  decode_congr h := by rw [mapM_value_congr h]
  isAlphanum bytes c hc := by
    obtain ⟨n, hn, rfl⟩ := mem_map.mp hc
    exact (value_symbol (quintets_lt _ n hn)).2

end Base32
