import Portl.Lib.Lines
import Portl.Lib.Word
import Portl.Terminal.QueryStripper

/-!
# tmux control mode

`terminal/tmux_cc.rs`: tmux writes what a pane prints as lines of text in which
control bytes and the backslash are written as a backslash and three octal digits.
`unescape_tmux_bytes` takes the escapes back.

The value of an escape is computed in a `u8` from three *decimal* digits, so an escape
that tmux never writes may overflow it.
-/

namespace Portl

open Word (Overflow)

namespace TmuxControl

def backslash : UInt8 := 0x5c

/-- `(d₁ - b'0') * 64 + (d₂ - b'0') * 8 + (d₃ - b'0')`. -/
def octalValue (mode : Overflow) (d₁ d₂ d₃ : UInt8) : Option UInt8 := do
  let high ← mode.mulByte (d₁ - 48) 64
  let middle ← mode.mulByte (d₂ - 48) 8
  let upper ← mode.addByte high middle
  mode.addByte upper (d₃ - 48)

/-- `unescape_tmux_bytes`; `none` is a panic. A backslash with three digits behind it is
an escape, one with anything else stands for the next byte, and a last one for itself. -/
def unescapeTmuxBytes (mode : Overflow) : Bytes → Option Bytes
  | [] => some []
  | [byte] => some [byte]
  | byte :: d₁ :: d₂ :: d₃ :: rest =>
    if byte = backslash then
      if isAsciiDigit d₁ && isAsciiDigit d₂ && isAsciiDigit d₃ then do
        let value ← octalValue mode d₁ d₂ d₃
        let out ← unescapeTmuxBytes mode rest
        some (value :: out)
      else do
        let out ← unescapeTmuxBytes mode (d₂ :: d₃ :: rest)
        some (d₁ :: out)
    else do
      let out ← unescapeTmuxBytes mode (d₁ :: d₂ :: d₃ :: rest)
      some (byte :: out)
  | byte :: next :: rest =>
    if byte = backslash then do
      let out ← unescapeTmuxBytes mode rest
      some (next :: out)
    else do
      let out ← unescapeTmuxBytes mode (next :: rest)
      some (byte :: out)

def escapeByte (byte : UInt8) : Bytes :=
  if byte < 32 ∨ byte = backslash then
    [backslash, 48 + byte / 64, 48 + byte / 8 % 8, 48 + byte % 8]
  else [byte]

def escapeTmux (bytes : Bytes) : Bytes := bytes.flatMap escapeByte

/-! ## Escapes in range -/

inductive Token where
  | octal (d₁ d₂ d₃ : UInt8)
  | quoted (byte : UInt8)
  | plain (byte : UInt8)
deriving DecidableEq

def tokens : Bytes → List Token
  | [] => []
  | [byte] => [.plain byte]
  | byte :: d₁ :: d₂ :: d₃ :: rest =>
    if byte = backslash then
      if isAsciiDigit d₁ && isAsciiDigit d₂ && isAsciiDigit d₃ then .octal d₁ d₂ d₃ :: tokens rest
      else .quoted d₁ :: tokens (d₂ :: d₃ :: rest)
    else .plain byte :: tokens (d₁ :: d₂ :: d₃ :: rest)
  | byte :: next :: rest =>
    if byte = backslash then .quoted next :: tokens rest
    else .plain byte :: tokens (next :: rest)

def octalNumber (d₁ d₂ d₃ : UInt8) : ℕ :=
  (d₁.toNat - 48) * 64 + (d₂.toNat - 48) * 8 + (d₃.toNat - 48)

def Token.Fits : Token → Prop
  | .octal d₁ d₂ d₃ => octalNumber d₁ d₂ d₃ < 256
  | _ => True

instance : DecidablePred Token.Fits
  | .octal d₁ d₂ d₃ => inferInstanceAs (Decidable (octalNumber d₁ d₂ d₃ < 256))
  | .quoted _ => isTrue trivial
  | .plain _ => isTrue trivial

theorem sub_zero_toNat {d : UInt8} (h : isAsciiDigit d = true) :
    (d - 48).toNat = d.toNat - 48 ∧ d.toNat - 48 ≤ 9 := by
  unfold isAsciiDigit at h
  simp only [Bool.and_eq_true, decide_eq_true_eq] at h
  obtain ⟨hlow, hhigh⟩ := h
  have htop := UInt8.le_iff_toNat_le.mp hhigh
  refine ⟨UInt8.toNat_sub_of_le _ _ hlow, ?_⟩
  have hnine : (0x39 : UInt8).toNat = 57 := rfl
  omega

theorem octalValue_isSome_iff {d₁ d₂ d₃ : UInt8} (h₁ : isAsciiDigit d₁ = true)
    (h₂ : isAsciiDigit d₂ = true) (h₃ : isAsciiDigit d₃ = true) :
    (octalValue .panics d₁ d₂ d₃).isSome = true ↔ octalNumber d₁ d₂ d₃ < 256 := by
  obtain ⟨e₁, b₁⟩ := sub_zero_toNat h₁
  obtain ⟨e₂, b₂⟩ := sub_zero_toNat h₂
  obtain ⟨e₃, b₃⟩ := sub_zero_toNat h₃
  have hsize : UInt8.size = 256 := rfl
  have h64 : (64 : UInt8).toNat = 64 := rfl
  have h8 : (8 : UInt8).toNat = 8 := rfl
  have hmiddle : (d₂ - 48).toNat * (8 : UInt8).toNat < UInt8.size := by rw [e₂, h8]; omega
  unfold octalValue octalNumber Overflow.mulByte Overflow.addByte
  rw [if_pos hmiddle]
  by_cases hhigh : (d₁ - 48).toNat * (64 : UInt8).toNat < UInt8.size
  · rw [if_pos hhigh]
    have ehigh : ((d₁ - 48) * 64).toNat = (d₁.toNat - 48) * 64 := by
      rw [UInt8.toNat_mul, Nat.mod_eq_of_lt hhigh, e₁, h64]
    have emiddle : ((d₂ - 48) * 8).toNat = (d₂.toNat - 48) * 8 := by
      rw [UInt8.toNat_mul, Nat.mod_eq_of_lt hmiddle, e₂, h8]
    simp only [Option.bind_eq_bind, Option.bind_some]
    by_cases hupper : ((d₁ - 48) * 64).toNat + ((d₂ - 48) * 8).toNat < UInt8.size
    · rw [if_pos hupper, Option.bind_some]
      have eupper : ((d₁ - 48) * 64 + (d₂ - 48) * 8).toNat =
          (d₁.toNat - 48) * 64 + (d₂.toNat - 48) * 8 := by
        rw [UInt8.toNat_add, Nat.mod_eq_of_lt hupper, ehigh, emiddle]
      rw [eupper, e₃, hsize]
      split_ifs with hall
      · exact iff_of_true rfl hall
      · exact iff_of_false Bool.false_ne_true hall
    · rw [if_neg hupper]
      rw [ehigh, emiddle] at hupper
      exact iff_of_false Bool.false_ne_true (by omega)
  · rw [if_neg hhigh]
    rw [e₁, h64] at hhigh
    exact iff_of_false Bool.false_ne_true (by omega)

/-- **No overflow exactly where every escape the scan meets spells a byte.** -/
theorem unescape_isSome_iff (input : Bytes) :
    (unescapeTmuxBytes .panics input).isSome = true ↔ ∀ token ∈ tokens input, token.Fits := by
  fun_induction tokens input with
  | case1 => simp [unescapeTmuxBytes]
  | case2 byte => simp [unescapeTmuxBytes, Token.Fits]
  | case3 d₁ d₂ d₃ rest hdigits ih =>
    simp only [Bool.and_eq_true] at hdigits
    have hvalue := octalValue_isSome_iff hdigits.1.1 hdigits.1.2 hdigits.2
    rw [unescapeTmuxBytes, if_pos rfl, if_pos (by simp [hdigits]), List.forall_mem_cons, ← ih]
    show _ ↔ octalNumber d₁ d₂ d₃ < 256 ∧ _
    rw [← hvalue]
    cases octalValue .panics d₁ d₂ d₃ with
    | none => simp
    | some value => cases unescapeTmuxBytes .panics rest <;> simp
  | case4 d₁ d₂ d₃ rest hdigits ih =>
    rw [unescapeTmuxBytes, if_pos rfl, if_neg hdigits, List.forall_mem_cons, ← ih]
    cases unescapeTmuxBytes .panics (d₂ :: d₃ :: rest) <;> simp [Token.Fits]
  | case5 byte d₁ d₂ d₃ rest hplain ih =>
    rw [unescapeTmuxBytes, if_neg hplain, List.forall_mem_cons, ← ih]
    cases unescapeTmuxBytes .panics (d₁ :: d₂ :: d₃ :: rest) <;> simp [Token.Fits]
  | case6 next rest hshort ih =>
    rw [unescapeTmuxBytes, if_pos rfl, List.forall_mem_cons, ← ih]
    · cases unescapeTmuxBytes .panics rest <;> simp [Token.Fits]
    · exact hshort
  | case7 byte next rest hshort hplain ih =>
    rw [unescapeTmuxBytes, if_neg hplain, List.forall_mem_cons, ← ih]
    · cases unescapeTmuxBytes .panics (next :: rest) <;> simp [Token.Fits]
    · exact hshort

/-! ## Taking the escapes back -/

variable {byte : UInt8}

theorem unescape_plain (mode : Overflow) (h : byte ≠ backslash) (rest : Bytes) :
    unescapeTmuxBytes mode (byte :: rest) =
      (unescapeTmuxBytes mode rest).bind fun out => some (byte :: out) := by
  rcases rest with _ | ⟨a, _ | ⟨b, _ | ⟨c, rest⟩⟩⟩
  · rfl
  · simp [unescapeTmuxBytes, h]
  · simp [unescapeTmuxBytes, h]
  · rw [unescapeTmuxBytes, if_neg h]
    rfl

theorem octalValue_digits (mode : Overflow) (byte : UInt8) :
    (isAsciiDigit (48 + byte / 64) && isAsciiDigit (48 + byte / 8 % 8) &&
        isAsciiDigit (48 + byte % 8)) = true ∧
      octalValue mode (48 + byte / 64) (48 + byte / 8 % 8) (48 + byte % 8) = some byte := by
  have hall : ∀ n : Fin 256, ∀ mode ∈ [Overflow.panics, Overflow.wraps],
      (isAsciiDigit (48 + UInt8.ofNat n / 64) && isAsciiDigit (48 + UInt8.ofNat n / 8 % 8) &&
          isAsciiDigit (48 + UInt8.ofNat n % 8)) = true ∧
        octalValue mode (48 + UInt8.ofNat n / 64) (48 + UInt8.ofNat n / 8 % 8)
          (48 + UInt8.ofNat n % 8) = some (UInt8.ofNat n) := by
    decide +kernel
  have hmode : mode ∈ [Overflow.panics, Overflow.wraps] := by cases mode <;> simp
  have hbyte := hall ⟨byte.toNat, byte.toNat_lt⟩ mode hmode
  rwa [UInt8.ofNat_toNat] at hbyte

/-- **Unescaping takes the escaping back**, whatever the bytes. -/
theorem unescape_escape (mode : Overflow) (bytes : Bytes) :
    unescapeTmuxBytes mode (escapeTmux bytes) = some bytes := by
  induction bytes with
  | nil => rfl
  | cons byte bytes ih =>
    have hsplit : escapeTmux (byte :: bytes) = escapeByte byte ++ escapeTmux bytes := rfl
    rw [hsplit]
    unfold escapeByte
    split
    · obtain ⟨hdigits, hvalue⟩ := octalValue_digits mode byte
      show unescapeTmuxBytes mode (backslash :: _ :: _ :: _ :: escapeTmux bytes) = _
      rw [unescapeTmuxBytes, if_pos rfl, if_pos hdigits, hvalue, ih]
      rfl
    · next hplain =>
        show unescapeTmuxBytes mode (byte :: escapeTmux bytes) = _
        rw [unescape_plain mode fun h => hplain (.inr h), ih]
        rfl

/-- **Unescaping is total exactly where no escape spells a number above 255, and takes
every escaping back.** -/
theorem unescape_total_iff (input bytes : Bytes) (mode : Overflow) :
    (unescapeTmuxBytes .panics input ≠ none ↔ ∀ token ∈ tokens input, token.Fits) ∧
      unescapeTmuxBytes mode (escapeTmux bytes) = some bytes := by
  refine ⟨?_, unescape_escape mode bytes⟩
  rw [← Option.isSome_iff_ne_none]
  exact unescape_isSome_iff input

/-- `hi\377\\`. -/
theorem unescape_total_hi :
    unescapeTmuxBytes .panics [0x68, 0x69, 0x5c, 0x33, 0x37, 0x37, 0x5c, 0x5c] ≠ none :=
  (unescape_total_iff [0x68, 0x69, 0x5c, 0x33, 0x37, 0x37, 0x5c, 0x5c] [] .panics).1.mpr (by decide)

/-- `\400`: a panic where overflow is checked, a null byte where it is not. -/
theorem unescape_overflows :
    unescapeTmuxBytes .panics [0x5c, 0x34, 0x30, 0x30] = none ∧
      unescapeTmuxBytes .wraps [0x5c, 0x34, 0x30, 0x30] = some [0] := by
  decide

end TmuxControl

end Portl
