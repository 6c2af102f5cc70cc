import Mathlib.Data.Vector.Defs
import Mathlib.Order.Lattice.Nat
import Mathlib.Tactic.NormNum
import Portl.Agent.Gateway
import Portl.Agent.Pairing
import Portl.Lib.Base32
import Portl.Lib.Octets

/-!
# Invite codes

`InviteCode` of `pair_code.rs` as text: a fixed row of fields, a hint behind its length,
and the whole in base32 behind `PORTLINV-`.

Everything is read back but one thing, and read from one spelling but for one reason: a
hint that is present and empty is read as absent, and what follows the hint is not
looked at. The base32 library is not part of the sources; any codec that reads back what
it writes will do.
-/

namespace Portl

open Octets
open List hiding Vector

namespace InitiatorMode

def toWireByte : InitiatorMode → UInt8
  | .mutual => 0
  | .me => 1
  | .them => 2

def fromWireByte (byte : UInt8) : Option InitiatorMode :=
  if byte = 0 then some .mutual
  else if byte = 1 then some .me
  else if byte = 2 then some .them
  else none

theorem fromWireByte_eq_some {byte : UInt8} {mode : InitiatorMode} :
    fromWireByte byte = some mode ↔ byte = mode.toWireByte := by
  unfold fromWireByte
  constructor
  · intro h
    split_ifs at h <;> cases h <;> assumption
  · rintro rfl
    cases mode <;> rfl

end InitiatorMode

namespace PairCode

def invitePrefixText : String := "PORTLINV-"

def inviteVersion : UInt8 := 1

def maxRelayHintLen : ℕ := 255

structure InviteCode where
  version : UInt8
  inviterEid : Bytes32
  nonce : Bytes16
  notAfterUnix : UInt64
  initiator : InitiatorMode
  relayHint : Option String
deriving DecidableEq

inductive InviteError where
  /-- "relay hint length {} exceeds cap {}" -/
  | hintTooLong (length : ℕ)
  /-- "invite codes must start with PORTLINV-" -/
  | noPrefix
  /-- "invite body is not valid base32" -/
  | notBase32
  /-- "invite code too short ({} bytes)" -/
  | tooShort (length : ℕ)
  /-- "unsupported invite version {version} (this build speaks 1)" -/
  | unsupportedVersion (version : UInt8)
  /-- "reserved initiator byte 0x{byte:02x}" -/
  | reservedInitiator (byte : UInt8)
  /-- "invite code truncated: want {hint_end} bytes, have {}" -/
  | truncated (hintEnd length : ℕ)
  /-- "relay hint is not valid UTF-8" -/
  | hintNotUtf8
deriving DecidableEq

/-! ## The bytes -/

def InviteCode.hintBytes (c : InviteCode) : Bytes := asciiBytes (c.relayHint.getD "")

def InviteCode.layout (c : InviteCode) : Bytes :=
  c.version :: (c.inviterEid.toList ++ (c.nonce.toList ++ (toLe 8 c.notAfterUnix.toNat ++
    (c.initiator.toWireByte :: UInt8.ofNat c.hintBytes.length :: c.hintBytes))))

/-- `copy_from_slice(&bytes[off..off + n])`. -/
def arrayAt (n off : ℕ) (bytes : Bytes) : Vector UInt8 n :=
  Vector.ofFn fun i => bytes.getD (off + i) 0

/-- `None` for a length of zero. -/
def hintOf (bytes : Bytes) (hintLen : ℕ) : Except InviteError (Option String) :=
  if hintLen = 0 then .ok none
  else
    match fromUtf8 ((bytes.drop 59).take hintLen) with
    | some hint => .ok (some hint)
    | none => .error .hintNotUtf8

/-- `decode` from the bytes on. -/
def decodeBytes (bytes : Bytes) : Except InviteError InviteCode :=
  if bytes.length < 1 + 32 + 16 + 8 + 1 + 1 then .error (.tooShort bytes.length)
  else
    let version := bytes.getD 0 0
    if version ≠ inviteVersion then .error (.unsupportedVersion version)
    else
      match InitiatorMode.fromWireByte (bytes.getD 57 0) with
      | none => .error (.reservedInitiator (bytes.getD 57 0))
      | some initiator =>
        let hintLen := (bytes.getD 58 0).toNat
        let hintEnd := 59 + hintLen
        if bytes.length < hintEnd then .error (.truncated hintEnd bytes.length)
        else
          match hintOf bytes hintLen with
          | .error e => .error e
          | .ok relayHint =>
            .ok { version, inviterEid := arrayAt 32 1 bytes, nonce := arrayAt 16 33 bytes,
                  notAfterUnix := UInt64.ofNat (ofLe ((bytes.drop 49).take 8)), initiator,
                  relayHint }

/-! ## The text -/

def InviteCode.encode (B : Base32.Codec) (c : InviteCode) : Except InviteError String :=
  if maxRelayHintLen < c.hintBytes.length then .error (.hintTooLong c.hintBytes.length)
  else .ok (invitePrefixText ++ String.ofList (B.encode c.layout))

/-- `s.trim()`. -/
def trimmed (s : String) : String := String.ofList (Lines.trim s.toList)

def decode (B : Base32.Codec) (s : String) : Except InviteError InviteCode :=
  match Str.stripPrefix (trimmed s) invitePrefixText with
  | none => .error .noPrefix
  | some body =>
    match B.decode body.toList with
    | none => .error .notBase32
    | some bytes => decodeBytes bytes

/-! ## Reading the bytes -/

theorem fromUtf8_asciiBytes (s : String) : fromUtf8 (asciiBytes s) = some s := by
  have hbytes : (⟨s.toUTF8.data.toList.toArray⟩ : ByteArray) = s.toByteArray := by simp
  unfold fromUtf8 asciiBytes String.fromUTF8?
  rw [hbytes, dif_pos (by simp [s.isValidUTF8])]
  simp [String.fromUTF8]

variable {n : ℕ}

theorem arrayAt_append {off : ℕ} {before : Bytes} (hbefore : before.length = off)
    (v : Vector UInt8 n) (after : Bytes) : arrayAt n off (before ++ (v.toList ++ after)) = v := by
  subst hbefore
  unfold arrayAt
  ext i hi
  rw [Vector.getElem_ofFn, getD_eq_getElem?_getD, getElem?_append_right (by omega),
    Nat.add_sub_cancel_left, getElem?_append_left (by simpa using hi)]
  simp [hi]

theorem exists_vector {l : Bytes} (h : n ≤ l.length) :
    ∃ (v : Vector UInt8 n) (rest : Bytes), l = v.toList ++ rest ∧ rest.length = l.length - n := by
  refine ⟨⟨(l.take n).toArray, by simpa using h⟩, l.drop n, ?_, length_drop⟩
  show l = (l.take n) ++ l.drop n
  rw [take_append_drop]

variable {bytes : Bytes} {s : String} {c : InviteCode} {B : Base32.Codec}

def row (version : UInt8) (eid : Bytes32) (nonce : Bytes16) (time : Vector UInt8 8)
    (mode hint : UInt8) (rest : Bytes) : Bytes :=
  version :: (eid.toList ++ (nonce.toList ++ (time.toList ++ mode :: hint :: rest)))

theorem exists_fields (h : 59 ≤ bytes.length) :
    ∃ version eid nonce time mode hint rest, bytes = row version eid nonce time mode hint rest := by
  cases bytes with
  | nil => exact absurd h (by decide)
  | cons version bytes =>
    rw [length_cons] at h
    obtain ⟨eid, afterEid, rfl, hEid⟩ := exists_vector (n := 32) (l := bytes) (by omega)
    obtain ⟨nonce, afterNonce, rfl, hNonce⟩ := exists_vector (n := 16) (l := afterEid) (by omega)
    obtain ⟨time, afterTime, rfl, hTime⟩ := exists_vector (n := 8) (l := afterNonce) (by omega)
    match afterTime, hTime with
    | [], hTime => simp only [length_nil] at hTime; omega
    | [_], hTime => simp only [length_singleton] at hTime; omega
    | mode :: hint :: rest, _ => exact ⟨version, eid, nonce, time, mode, hint, rest, rfl⟩

section Fields

variable {version : UInt8} {eid : Bytes32} {nonce : Bytes16} {time : Vector UInt8 8}
  {mode hint : UInt8} {rest : Bytes} (hrow : bytes = row version eid nonce time mode hint rest)

include hrow

theorem length_row : bytes.length = 59 + rest.length := by
  rw [hrow, row]
  simp only [length_cons, length_append, Vector.length_toList]
  omega

theorem row_eid : arrayAt 32 1 bytes = eid := by
  rw [hrow]
  exact @arrayAt_append _ _ [version] rfl eid _

theorem row_nonce : arrayAt 16 33 bytes = nonce := by
  rw [hrow]
  exact @arrayAt_append _ _ (version :: eid.toList) (by simp) nonce _

theorem row_drop49 : bytes.drop 49 = time.toList ++ mode :: hint :: rest := by
  have hsplit : bytes =
      (version :: (eid.toList ++ nonce.toList)) ++ (time.toList ++ mode :: hint :: rest) := by
    rw [hrow, row]
    simp
  rw [hsplit]
  exact drop_left' (by simp)

theorem row_drop57 : bytes.drop 57 = mode :: hint :: rest := by
  rw [show 57 = 49 + 8 from rfl, ← drop_drop, row_drop49 hrow]
  exact drop_left' Vector.length_toList

theorem row_time : (bytes.drop 49).take 8 = time.toList := by
  rw [row_drop49 hrow]
  exact take_left' Vector.length_toList

theorem row_mode : bytes.getD 57 0 = mode := by
  have hdrop := congrArg (fun l : Bytes => l[0]?) (row_drop57 hrow)
  simp only [getElem?_drop] at hdrop
  rw [getD_eq_getElem?_getD, hdrop]
  rfl

theorem row_hint : bytes.getD 58 0 = hint := by
  have hdrop := congrArg (fun l : Bytes => l[1]?) (row_drop57 hrow)
  simp only [getElem?_drop] at hdrop
  rw [getD_eq_getElem?_getD, hdrop]
  rfl

theorem row_rest : bytes.drop 59 = rest := by
  rw [show 59 = 57 + 2 from rfl, ← drop_drop, row_drop57 hrow]
  rfl

/-- **`decode` over a row of fields.** -/
theorem decodeBytes_row :
    decodeBytes bytes =
      if version ≠ inviteVersion then .error (.unsupportedVersion version)
      else
        match InitiatorMode.fromWireByte mode with
        | none => .error (.reservedInitiator mode)
        | some initiator =>
          if rest.length < hint.toNat then
            .error (.truncated (59 + hint.toNat) (59 + rest.length))
          else
            match hintOf bytes hint.toNat with
            | .error e => .error e
            | .ok relayHint =>
              .ok ⟨version, eid, nonce, UInt64.ofNat (ofLe time.toList), initiator, relayHint⟩ := by
  have hlength := length_row hrow
  have hhead : bytes.getD 0 0 = version := by rw [hrow]; rfl
  unfold decodeBytes
  rw [if_neg (by omega)]
  simp only [hhead, row_mode hrow, row_hint hrow, row_eid hrow, row_nonce hrow, row_time hrow,
    hlength]
  simp

theorem of_decodeBytes_row (h : decodeBytes bytes = .ok c) :
    version = inviteVersion ∧ hint.toNat ≤ rest.length ∧
      ∃ initiator relayHint, mode = initiator.toWireByte ∧
        hintOf bytes hint.toNat = .ok relayHint ∧
        c = ⟨version, eid, nonce, UInt64.ofNat (ofLe time.toList), initiator, relayHint⟩ := by
  rw [decodeBytes_row hrow] at h
  split_ifs at h with hversion hshort
  · split at h <;> cases h
  split at h
  · cases h
  next initiator hmode =>
    split at h
    · cases h
    next relayHint hhint =>
      exact ⟨not_not.mp hversion, Nat.not_lt.mp hshort, initiator, relayHint,
        InitiatorMode.fromWireByte_eq_some.mp hmode, hhint, (Except.ok.inj h).symm⟩

end Fields

/-! ## What is read -/

theorem toLe_eq_toList (n : UInt64) :
    ∃ time : Vector UInt8 8, time.toList = toLe 8 n.toNat :=
  ⟨⟨(toLe 8 n.toNat).toArray, by simp⟩, rfl⟩

theorem ofNat_ofLe_toLe (n : UInt64) : UInt64.ofNat (ofLe (toLe 8 n.toNat)) = n := by
  rw [ofLe_toLe (Nat.lt_of_lt_of_eq n.toNat_lt (by norm_num)), UInt64.ofNat_toNat]

theorem toLe_ofNat_ofLe (time : Vector UInt8 8) :
    toLe 8 (UInt64.ofNat (ofLe time.toList)).toNat = time.toList := by
  have hlt : ofLe time.toList < 2 ^ 64 := by
    have hle := ofLe_lt time.toList
    rw [Vector.length_toList] at hle
    exact Nat.lt_of_lt_of_eq hle (by norm_num)
  have hback := toLe_ofLe time.toList
  rw [Vector.length_toList] at hback
  rw [UInt64.toNat_ofNat', Nat.mod_eq_of_lt hlt, hback]

theorem asciiBytes_injective {t : String} (h : asciiBytes s = asciiBytes t) : s = t := by
  have hs := fromUtf8_asciiBytes s
  rw [h, fromUtf8_asciiBytes] at hs
  exact (Option.some.inj hs).symm

theorem hintOf_eq_ok {hint extra : Bytes} (hdrop : bytes.drop 59 = hint ++ extra)
    {relayHint : Option String} :
    hintOf bytes hint.length = .ok relayHint ↔
      asciiBytes (relayHint.getD "") = hint ∧ relayHint ≠ some "" := by
  unfold hintOf
  rw [hdrop, take_left]
  by_cases hempty : hint = []
  · subst hempty
    rw [if_pos length_nil]
    cases relayHint with
    | none => exact iff_of_true rfl ⟨rfl, nofun⟩
    | some text =>
      refine iff_of_false nofun fun h => h.2 ?_
      rw [asciiBytes_injective (show asciiBytes text = asciiBytes "" from h.1)]
  · rw [if_neg (fun hzero => hempty (length_eq_zero_iff.mp hzero))]
    cases hread : fromUtf8 hint with
    | none =>
      refine iff_of_false nofun fun h => ?_
      rw [← h.1, fromUtf8_asciiBytes] at hread
      cases hread
    | some text =>
      have htext := fromUtf8_eq_some hread
      constructor
      · intro h
        obtain rfl := Except.ok.inj h
        refine ⟨htext, fun hnone => hempty ?_⟩
        rw [← htext, Option.some.inj hnone]
        rfl
      · rintro ⟨hbytes, -⟩
        cases relayHint with
        | none => exact absurd hbytes.symm hempty
        | some other =>
          rw [asciiBytes_injective (show asciiBytes other = asciiBytes text from
            hbytes.trans htext.symm)]

theorem layout_eq_row (c : InviteCode) {time : Vector UInt8 8}
    (htime : time.toList = toLe 8 c.notAfterUnix.toNat) (extra : Bytes) :
    c.layout ++ extra = row c.version c.inviterEid c.nonce time c.initiator.toWireByte
      (UInt8.ofNat c.hintBytes.length) (c.hintBytes ++ extra) := by
  unfold InviteCode.layout row
  rw [htime]
  simp

/-- **What `decode` accepts**: the layout of an invite of this version whose hint is not
present and empty, with anything behind it. -/
theorem decodeBytes_eq_ok :
    decodeBytes bytes = .ok c ↔
      (∃ extra, bytes = c.layout ++ extra) ∧ c.version = inviteVersion ∧
        c.hintBytes.length ≤ maxRelayHintLen ∧ c.relayHint ≠ some "" := by
  constructor
  · intro h
    have hlong : 59 ≤ bytes.length := by
      by_contra hshort
      unfold decodeBytes at h
      rw [if_pos (by omega)] at h
      cases h
    obtain ⟨version, eid, nonce, time, mode, hint, rest, hrow⟩ := exists_fields hlong
    obtain ⟨rfl, hfits, initiator, relayHint, rfl, hhint, rfl⟩ := of_decodeBytes_row hrow h
    have hcount : (rest.take hint.toNat).length = hint.toNat := by
      rw [length_take]
      exact Nat.min_eq_left hfits
    have hdrop : bytes.drop 59 = rest.take hint.toNat ++ rest.drop hint.toNat := by
      rw [row_rest hrow, take_append_drop]
    rw [← hcount, hintOf_eq_ok hdrop] at hhint
    obtain ⟨htext, hsome⟩ := hhint
    refine ⟨⟨rest.drop hint.toNat, ?_⟩, rfl, ?_, hsome⟩
    · rw [hrow, layout_eq_row _ (toLe_ofNat_ofLe time).symm]
      unfold InviteCode.hintBytes
      rw [htext, hcount, UInt8.ofNat_toNat, take_append_drop]
    · unfold InviteCode.hintBytes
      rw [htext, hcount]
      exact Nat.le_of_lt_succ hint.toNat_lt
  · rintro ⟨⟨extra, rfl⟩, hversion, hlength, hhint⟩
    obtain ⟨time, htime⟩ := toLe_eq_toList c.notAfterUnix
    have hcount : (UInt8.ofNat c.hintBytes.length).toNat = c.hintBytes.length := by
      rw [UInt8.toNat_ofNat']
      exact Nat.mod_eq_of_lt (Nat.lt_succ_of_le hlength)
    have hmode : InitiatorMode.fromWireByte c.initiator.toWireByte = some c.initiator :=
      InitiatorMode.fromWireByte_eq_some.mpr rfl
    have hrow := layout_eq_row c htime extra
    have hread : hintOf (c.layout ++ extra) c.hintBytes.length = .ok c.relayHint :=
      (hintOf_eq_ok (row_rest hrow)).mpr ⟨rfl, hhint⟩
    rw [decodeBytes_row hrow, if_neg (not_not.mpr hversion), hmode]
    simp only [hcount]
    rw [if_neg (by rw [length_append]; omega), hread, htime, ofNat_ofLe_toLe]

/-! ## Reading the text -/

theorem isWhitespace_of_isAlphanum {c : Char} (h : c.isAlphanum = true) :
    Lines.isWhitespace c = false := by
  have hrange : 48 ≤ c.toNat ∧ c.toNat ≤ 122 := by
    delta Char.isAlphanum Char.isAlpha Char.isUpper Char.isLower Char.isDigit at h
    simp only [Bool.or_eq_true, Bool.and_eq_true, decide_eq_true_eq, ge_iff_le,
      UInt32.le_iff_toNat_le] at h
    show 48 ≤ c.val.toNat ∧ c.val.toNat ≤ 122
    have hA : 'A'.val.toNat = 65 := rfl
    have hZ : 'Z'.val.toNat = 90 := rfl
    have ha : 'a'.val.toNat = 97 := rfl
    have hz : 'z'.val.toNat = 122 := rfl
    have h0 : '0'.val.toNat = 48 := rfl
    have h9 : '9'.val.toNat = 57 := rfl
    omega
  unfold Lines.isWhitespace
  simp only [Bool.or_eq_false_iff, Bool.and_eq_false_iff, decide_eq_false_iff_not, beq_eq_false_iff_ne]
  omega

def spelled (B : Base32.Codec) (bytes : Bytes) : String :=
  invitePrefixText ++ String.ofList (B.encode bytes)

theorem trimmed_spelled (B : Base32.Codec) (bytes : Bytes) :
    trimmed (spelled B bytes) = spelled B bytes := by
  have hplain : ∀ c ∈ (spelled B bytes).toList, Lines.isWhitespace c = false := by
    intro c hc
    unfold spelled at hc
    rw [String.toList_append, String.toList_ofList, mem_append] at hc
    rcases hc with hfixed | hbody
    · have hall : invitePrefixText.toList.all (fun c => !Lines.isWhitespace c) = true := by decide
      simpa using all_eq_true.mp hall c hfixed
    · exact isWhitespace_of_isAlphanum (B.isAlphanum bytes c hbody)
  unfold trimmed
  rw [Lines.trim_eq_self, String.ofList_toList]
  refine ⟨fun hmem => absurd (hplain _ hmem) (by decide), fun c hc => ?_, fun c hc => ?_, ?_⟩
  · exact hplain c (mem_of_head? hc)
  · exact hplain c (mem_of_getLast? hc)
  · unfold spelled
    rw [String.toList_append]
    exact nofun

theorem decode_spelled (B : Base32.Codec) (bytes : Bytes) :
    decode B (spelled B bytes) = decodeBytes bytes := by
  have hstrip : Str.stripPrefix (spelled B bytes) invitePrefixText =
      some (String.ofList (B.encode bytes)) := Str.stripPrefix_eq_some.mpr rfl
  unfold decode
  rw [trimmed_spelled, hstrip]
  simp [B.decode_encode]

theorem encode_of_le (B : Base32.Codec) (h : c.hintBytes.length ≤ maxRelayHintLen) :
    c.encode B = .ok (spelled B c.layout) :=
  if_neg (Nat.not_lt.mpr h)

/-- **An invite is read back exactly where its hint is short enough to be written and
not present and empty.** -/
theorem decode_encode_iff (B : Base32.Codec) (hversion : c.version = inviteVersion) :
    (∃ t, c.encode B = .ok t ∧ decode B t = .ok c) ↔
      c.relayHint ≠ some "" ∧ c.hintBytes.length ≤ maxRelayHintLen := by
  constructor
  · rintro ⟨t, hencode, hdecode⟩
    by_cases hlong : maxRelayHintLen < c.hintBytes.length
    · unfold InviteCode.encode at hencode
      rw [if_pos hlong] at hencode
      cases hencode
    · have hle := Nat.not_lt.mp hlong
      rw [encode_of_le B hle] at hencode
      obtain rfl := Except.ok.inj hencode
      rw [decode_spelled, decodeBytes_eq_ok] at hdecode
      exact ⟨hdecode.2.2.2, hle⟩
  · rintro ⟨hhint, hle⟩
    refine ⟨spelled B c.layout, encode_of_le B hle, ?_⟩
    rw [decode_spelled, decodeBytes_eq_ok]
    exact ⟨⟨[], (append_nil _).symm⟩, hversion, hle, hhint⟩

/-! ## Spellings -/

/-- The text is what `encode` writes, up to the case of letters and blanks around it. -/
def Spells (B : Base32.Codec) (s : String) (c : InviteCode) : Prop :=
  ∃ t, c.encode B = .ok t ∧ Str.eqIgnoreAsciiCase (trimmed s) t = true

/-- Nothing follows the hint, and the body is how base32 writes the bytes it stands
for. -/
def Exact (B : Base32.Codec) (s : String) : Prop :=
  ∃ body bytes, trimmed s = invitePrefixText ++ body ∧ B.decode body.toList = some bytes ∧
    bytes.length = 59 + (bytes.getD 58 0).toNat ∧
    body.toList.map Char.toLower = (B.encode bytes).map Char.toLower

theorem layout_hint (c : InviteCode) (h : c.hintBytes.length ≤ maxRelayHintLen) (extra : Bytes) :
    ((c.layout ++ extra).getD 58 0).toNat = c.hintBytes.length ∧
      (c.layout ++ extra).length = 59 + c.hintBytes.length + extra.length := by
  obtain ⟨time, htime⟩ := toLe_eq_toList c.notAfterUnix
  have hrow := layout_eq_row c htime extra
  rw [row_hint hrow, length_row hrow, length_append, UInt8.toNat_ofNat', Nat.add_assoc]
  exact ⟨Nat.mod_eq_of_lt (Nat.lt_succ_of_le h), rfl⟩

theorem of_decode (h : decode B s = .ok c) :
    ∃ body extra, trimmed s = invitePrefixText ++ body ∧
      B.decode body.toList = some (c.layout ++ extra) ∧
      c.hintBytes.length ≤ maxRelayHintLen := by
  unfold decode at h
  split at h
  · cases h
  next body hstrip =>
    split at h
    · cases h
    next bytes hbytes =>
      obtain ⟨⟨extra, rfl⟩, -, hle, -⟩ := decodeBytes_eq_ok.mp h
      exact ⟨body, extra, Str.stripPrefix_eq_some.mp hstrip, hbytes, hle⟩

theorem eqIgnoreAsciiCase_spelled {body : String} :
    Str.eqIgnoreAsciiCase (invitePrefixText ++ body) (spelled B bytes) = true ↔
      body.toList.map Char.toLower = (B.encode bytes).map Char.toLower := by
  unfold Str.eqIgnoreAsciiCase spelled
  rw [beq_iff_eq, String.toList_append, String.toList_append, String.toList_ofList, map_append,
    map_append, append_cancel_left_eq]

/-- **A text that is accepted is a spelling of its invite exactly where it is exact.** -/
theorem spells_iff_exact (h : decode B s = .ok c) : Spells B s c ↔ Exact B s := by
  obtain ⟨body, extra, htrim, hbytes, hle⟩ := of_decode h
  obtain ⟨hhint, hlength⟩ := layout_hint c hle extra
  have hspells : Spells B s c ↔
      body.toList.map Char.toLower = (B.encode c.layout).map Char.toLower := by
    unfold Spells
    rw [encode_of_le B hle, htrim, ← eqIgnoreAsciiCase_spelled]
    constructor
    · rintro ⟨t, ht, heq⟩
      rwa [← Except.ok.inj ht] at heq
    · exact fun heq => ⟨_, rfl, heq⟩
  rw [hspells]
  constructor
  · intro heq
    -- the codec reads the same bytes from both, so nothing follows the layout
    have hsame := B.decode_congr heq
    rw [hbytes, B.decode_encode, Option.some.injEq] at hsame
    refine ⟨body, c.layout ++ extra, htrim, hbytes, ?_, by rw [hsame]; exact heq⟩
    have hnone : extra = [] := append_right_eq_self.mp hsame
    rw [hlength, hhint, hnone]
    rfl
  · rintro ⟨body', bytes', htrim', hbytes', hlength', heq⟩
    have hbody : body' = body := by
      have hboth := htrim'.symm.trans htrim
      rw [← String.toList_inj, String.toList_append, String.toList_append,
        append_cancel_left_eq] at hboth
      exact String.toList_inj.mp hboth
    subst hbody
    rw [hbytes, Option.some.injEq] at hbytes'
    subst hbytes'
    rw [hhint, hlength] at hlength'
    have hnone : extra = [] := length_eq_zero_iff.mp (by omega)
    rwa [hnone, append_nil] at heq

/-- **Invites are read back, and from one spelling, up to a hint that is present and
empty, one that is too long, bytes behind the hint, and base32 that no encoder
writes.** -/
theorem invites_roundtrip_iff (B : Base32.Codec) (c : InviteCode) (hversion : c.version = inviteVersion)
    (s : String) :
    ((∃ t, c.encode B = .ok t ∧ decode B t = .ok c) ↔
        c.relayHint ≠ some "" ∧ c.hintBytes.length ≤ maxRelayHintLen) ∧
      ∀ d, decode B s = .ok d → (Spells B s d ↔ Exact B s) :=
  ⟨decode_encode_iff B hversion, fun _ h => spells_iff_exact h⟩

def sample (hint : Option String) : InviteCode :=
  ⟨1, Vector.replicate 32 1, Vector.replicate 16 2, 1800000000, .mutual, hint⟩

theorem sample_roundtrip :
    ∃ t, (sample none).encode Base32.rfc4648 = .ok t ∧ decode Base32.rfc4648 t = .ok (sample none) ∧
      (Spells Base32.rfc4648 t (sample none) ↔ Exact Base32.rfc4648 t) := by
  obtain ⟨t, hencode, hdecode⟩ :=
    (invites_roundtrip_iff Base32.rfc4648 (sample none) rfl "").1.mpr ⟨nofun, Nat.zero_le _⟩
  exact ⟨t, hencode, hdecode, (invites_roundtrip_iff Base32.rfc4648 (sample none) rfl t).2 _ hdecode⟩

/-- An empty hint is read as none; and a byte more makes a second text for one invite. -/
theorem invites_malleable :
    (∃ t, (sample (some "")).encode Base32.rfc4648 = .ok t ∧
        decode Base32.rfc4648 t = .ok (sample none)) ∧
      decode Base32.rfc4648 (spelled Base32.rfc4648 ((sample none).layout ++ [7])) =
        .ok (sample none) ∧
      ¬ Spells Base32.rfc4648 (spelled Base32.rfc4648 ((sample none).layout ++ [7]))
        (sample none) := by
  have hlayout : (sample (some "")).layout = (sample none).layout := rfl
  have hread : ∀ extra, decodeBytes ((sample none).layout ++ extra) = .ok (sample none) :=
    fun extra => decodeBytes_eq_ok.mpr ⟨⟨extra, rfl⟩, rfl, Nat.zero_le _, nofun⟩
  refine ⟨⟨_, encode_of_le _ (Nat.zero_le _), ?_⟩, ?_, ?_⟩
  · rw [decode_spelled, hlayout, ← append_nil (sample none).layout]
    exact hread []
  · rw [decode_spelled]
    exact hread [7]
  · rintro ⟨t, ht, heq⟩
    rw [encode_of_le _ (Nat.zero_le _)] at ht
    obtain rfl := Except.ok.inj ht
    rw [trimmed_spelled] at heq
    have hbodies := eqIgnoreAsciiCase_spelled.mp heq
    rw [String.toList_ofList] at hbodies
    have hsame := Base32.rfc4648.decode_congr hbodies
    rw [Base32.Codec.decode_encode, Base32.Codec.decode_encode, Option.some.injEq] at hsame
    exact absurd (append_right_eq_self.mp hsame) nofun

end PairCode

end Portl
