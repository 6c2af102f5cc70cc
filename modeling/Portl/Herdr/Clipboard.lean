import Portl.Herdr.Frames

/-!
# The layout of a clipboard image

`validate_clipboard_image` of `herdr_wire.rs` walks through a payload by offsets. What it
accepts is compared with what bincode writes for a `ClipboardImage`.
-/

namespace Portl.HerdrWire

open Checks Octets List

/-- A length as bincode writes it, in the fewest octets. -/
def compact (n : ℕ) : Bytes :=
  if n ≤ 250 then [UInt8.ofNat n]
  else if n ≤ 65535 then 251 :: toLe 2 n
  else if n < 2 ^ 32 then 252 :: toLe 4 n
  else 253 :: toLe 8 n

/-- The `match` of `parse_varint_usize` over the octets read; `none` stands for the arms
that panic. -/
def varintValue : Bytes → Option ℕ
  | [] => none
  | marker :: others =>
    if others = [] then some marker.toNat
    else if marker = 251 ∧ others.length = 2 ∨ marker = 252 ∧ others.length = 4 ∨
      marker = 253 ∧ others.length = 8 then some (ofLe others)
    else none

def clipboardImage (extension data : Bytes) : Bytes :=
  compact 2 ++ (compact extension.length ++ (extension ++ (compact data.length ++ data)))

variable {n value next width limit : ℕ} {marker : UInt8}
  {others bytes rest passed behind payload : Bytes}

theorem compactValue_wide (h : others.length ≠ 0) :
    compactValue (marker :: others) = ofLe others := if_neg fun hlength => h (Nat.succ.inj hlength)

theorem compactValue_toLe (hwidth : width ≠ 0) (h : n < 256 ^ width) :
    compactValue (marker :: toLe width n) = n := by
  rw [compactValue_wide (by rwa [length_toLe]), ofLe_toLe h]

theorem compact_spec (h : n < 2 ^ 64) : ∃ marker others, compact n = marker :: others ∧
    lengthWidth marker = .ok (others.length + 1) ∧ Canonical (others.length + 1) n ∧
    compactValue (marker :: others) = n := by
  unfold compact
  split_ifs with h1 h2 h4
  · have hbyte : (UInt8.ofNat n).toNat = n := by
      rw [UInt8.toNat_ofNat']
      omega
    have hle : UInt8.ofNat n ≤ 250 := UInt8.le_iff_toNat_le.mpr (hbyte.trans_le h1)
    refine ⟨_, [], rfl, if_pos hle, by simp [Canonical], ?_⟩
    simp [compactValue, ofLe, hbyte]
  all_goals
    refine ⟨_, _, rfl, by rw [length_toLe]; rfl, ?_, compactValue_toLe (by decide) (by omega)⟩
    simp [Canonical]
    omega

theorem eq_compact (hwidth : lengthWidth marker = .ok (others.length + 1))
    (h : Canonical (others.length + 1) (compactValue (marker :: others))) :
    marker :: others = compact (compactValue (marker :: others)) ∧
      compactValue (marker :: others) < 2 ^ 64 := by
  have hlt := ofLe_lt others
  have hle := toLe_ofLe others
  obtain ⟨h3, h5, h9⟩ := h
  unfold lengthWidth at hwidth
  split_ifs at hwidth with hbyte <;> rw [Except.ok.injEq] at hwidth
  · obtain rfl : others = [] := length_eq_zero_iff.mp (Nat.succ.inj hwidth).symm
    have hmarker : marker.toNat ≤ 250 := UInt8.le_iff_toNat_le.mp hbyte
    have hvalue : compactValue [marker] = marker.toNat := by simp [compactValue, ofLe]
    rw [hvalue, compact, if_pos hmarker, UInt8.ofNat_toNat]
    exact ⟨rfl, by omega⟩
  all_goals
    rw [compactValue_wide (by omega)] at h3 h5 h9 ⊢
    rw [← Nat.succ.inj hwidth] at hlt hle h3 h5 h9
    unfold compact
    split_ifs
    any_goals omega
    exact ⟨by rw [hle, ‹marker = _›], by omega⟩

theorem varintValue_eq (hwidth : lengthWidth marker = .ok (others.length + 1)) :
    varintValue (marker :: others) = some (compactValue (marker :: others)) := by
  unfold lengthWidth at hwidth
  split_ifs at hwidth <;> cases others <;> simp_all [varintValue, compactValue, ofLe]

theorem eq_cons_of_width {raw : Bytes} (hhead : (raw ++ rest).head? = some marker)
    (hwidth : lengthWidth marker = .ok raw.length) : ∃ others, raw = marker :: others := by
  cases raw with
  | nil =>
    unfold lengthWidth at hwidth
    split_ifs at hwidth <;> cases hwidth
  | cons first others =>
    cases hhead
    exact ⟨others, rfl⟩

theorem parseVarintUsize_eq_ok (h : (passed ++ behind).length < 2 ^ 63) :
    parseVarintUsize (passed ++ behind) passed.length = .ok (value, next) ↔ value < 2 ^ 64 ∧
      ∃ rest, behind = compact value ++ rest ∧ next = (passed ++ compact value).length := by
  simp only [parseVarintUsize, bind_eq_ok, okOr_eq_ok, Prod.exists, readExact_eq_some,
    exists_const, failIf_eq_ok, Except.ok.injEq, Prod.mk.injEq, drop_left, not_not]
  constructor
  · rintro ⟨marker, hmarker, width, hwidth, -, raw, rest, ⟨rfl, rfl⟩, hcanonical, rfl, rfl⟩
    obtain ⟨others, rfl⟩ := eq_cons_of_width hmarker hwidth
    obtain ⟨heq, hlt⟩ := eq_compact hwidth hcanonical
    exact ⟨hlt, rest, by rw [← heq], by rw [← heq, length_append]⟩
  · rintro ⟨hvalue, rest, rfl, rfl⟩
    obtain ⟨marker, others, heq, hwidth, hcanonical, hread⟩ := compact_spec hvalue
    rw [heq] at h ⊢
    rw [length_append, length_append, length_cons] at h
    refine ⟨marker, rfl, _, hwidth, ?_, _, rest, ⟨rfl, rfl⟩, ?_, hread, by simp⟩
    · unfold usizeMax
      omega
    · rwa [hread]

theorem decodeTagPrefix_two : decodeTagPrefix bytes = .ok (2, width) ↔
    ∃ rest, bytes = compact 2 ++ rest ∧ width = (compact 2).length := by
  rw [decodeTagPrefix_eq_ok]
  constructor
  · rintro ⟨encoded, rest, rfl, rfl, htag⟩
    unfold decodeCompactU32 at htag
    split at htag
    · next marker =>
      split_ifs at htag with hle
      have hmarker : marker = 2 := UInt8.toNat_inj.mp (Except.ok.inj htag)
      exact ⟨rest, by rw [hmarker]; rfl, rfl⟩
    any_goals
      split_ifs at htag with hmarker hlong
      rw [Except.ok.inj htag] at hlong
      omega
    cases htag
  · rintro ⟨rest, rfl, rfl⟩
    exact ⟨compact 2, rest, rfl, rfl, rfl⟩

theorem validateClipboardImage_eq_ok (h : payload.length < 2 ^ 63) :
    validateClipboardImage payload limit = .ok () ↔ ∃ extension data, (fromUtf8 extension).isSome ∧
      data.length ≤ limit ∧ payload = clipboardImage extension data := by
  simp only [validateClipboardImage, bind_eq_ok, okOr_eq_ok, Prod.exists, readExact_eq_some,
    exists_const, failIf_eq_ok, ne_eq, not_not]
  constructor
  · rintro ⟨tag, width, htag, rfl, extensionLen, start, hfirst, -, extension, rest,
      ⟨hextension, rfl⟩, hutf8, dataLen, next, hsecond, hlimit, -, hend⟩
    obtain ⟨behind, rfl, rfl⟩ := decodeTagPrefix_two.mp htag
    obtain ⟨-, behind, rfl, rfl⟩ := (parseVarintUsize_eq_ok h).mp hfirst
    rw [← append_assoc] at h hextension hsecond hend
    rw [drop_left] at hextension
    subst hextension
    rw [← append_assoc] at h hsecond hend
    rw [← length_append] at hsecond
    obtain ⟨-, data, rfl, rfl⟩ := (parseVarintUsize_eq_ok h).mp hsecond
    have hdata : data.length = dataLen := by
      simp only [length_append] at hend
      omega
    subst hdata
    rw [Bool.not_eq_true, Option.isNone_eq_false_iff] at hutf8
    exact ⟨extension, data, hutf8, Nat.not_lt.mp hlimit, by simp [clipboardImage]⟩
  · rintro ⟨extension, data, hutf8, hlimit, rfl⟩
    obtain ⟨start, hstart⟩ : ∃ start, start = compact 2 ++ compact extension.length := ⟨_, rfl⟩
    have hparts : clipboardImage extension data =
        start ++ extension ++ (compact data.length ++ data) := by
      simp [clipboardImage, hstart]
    have hlength := congrArg length hparts
    simp only [length_append] at hlength
    have hfirst : parseVarintUsize (clipboardImage extension data) (compact 2).length =
        .ok (extension.length, start.length) :=
      (parseVarintUsize_eq_ok h).mpr ⟨by omega, _, rfl, by rw [hstart]⟩
    have hdata : data.length < 2 ^ 64 := by omega
    have hsecond : parseVarintUsize (clipboardImage extension data) (start ++ extension).length =
        .ok (data.length, (start ++ extension ++ compact data.length).length) := by
      rw [hparts] at h ⊢
      exact (parseVarintUsize_eq_ok h).mpr ⟨hdata, data, rfl, rfl⟩
    rw [length_append] at hsecond
    refine ⟨2, _, decodeTagPrefix_two.mpr ⟨_, rfl, rfl⟩, rfl, _, _, hfirst, ?_, extension, _,
      ⟨by rw [hparts, append_assoc, drop_left], rfl⟩, ?_, _, _, hsecond,
      Nat.not_lt.mpr hlimit, ?_, ?_⟩
    case refine_2 => rwa [Bool.not_eq_true, Option.isNone_eq_false_iff]
    all_goals
      simp only [length_append, usizeMax]
      omega

theorem offsets_le (h : bytes.length < 2 ^ 63) (htag : decodeTagPrefix bytes = .ok (n, width)) :
    width ≤ bytes.length ∧ ∀ value next extension, parseVarintUsize bytes width = .ok (value, next) →
      readExact value (bytes.drop next) = some extension → next + value ≤ bytes.length := by
  obtain ⟨encoded, rest, rfl, rfl, -⟩ := decodeTagPrefix_eq_ok.mp htag
  refine ⟨length_append ▸ Nat.le_add_right _ _, ?_⟩
  intro value next extension hlength hread
  obtain ⟨-, behind, rfl, rfl⟩ := (parseVarintUsize_eq_ok h).mp hlength
  obtain ⟨hdrop, rfl⟩ := readExact_eq_some.mp hread
  rw [← append_assoc, drop_left] at hdrop
  rw [hdrop]
  simp only [length_append]
  omega

/-- A payload passes iff it is an image as bincode lays it out, with a name that is text
and data within the limit. The octets of a length, as many as the first says, take no arm
that panics, and both offsets at which one is read lie in the payload: the one unchecked
sum, such an offset and one more, fits a word. -/
theorem validateClipboardImage_exact (h : payload.length < 2 ^ 63) :
    (validateClipboardImage payload limit = .ok () ↔ ∃ extension data,
      (fromUtf8 extension).isSome ∧ data.length ≤ limit ∧ payload = clipboardImage extension data) ∧
    (∀ marker others, lengthWidth marker = .ok (others.length + 1) →
      varintValue (marker :: others) = some (compactValue (marker :: others))) ∧
    ∀ tag width, decodeTagPrefix payload = .ok (tag, width) → width ≤ payload.length ∧
      ∀ extensionLen start extension, parseVarintUsize payload width = .ok (extensionLen, start) →
        readExact extensionLen (payload.drop start) = some extension →
        start + extensionLen ≤ payload.length :=
  ⟨validateClipboardImage_eq_ok h, fun _ _ => varintValue_eq, fun _ _ => offsets_le h⟩

theorem validateClipboardImage_exact_png :
    validateClipboardImage [2, 3, 112, 110, 103, 2, 1, 0] 2 = .ok () :=
  (validateClipboardImage_exact (by decide)).1.mpr
    ⟨[112, 110, 103], [1, 0], by decide, by decide, rfl⟩

end Portl.HerdrWire
