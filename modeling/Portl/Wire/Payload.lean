import Mathlib.Algebra.Order.Group.Nat
import Mathlib.Algebra.Order.Monoid.NatCast
import Mathlib.Algebra.Ring.Nat
import Portl.Lib.Checks
import Portl.Lib.Word
import Portl.Ticket.Schema

/-!
# Payloads of attached sessions

`AttachV2Payload` of `wire/session.rs`. A large payload is compressed where that makes it
shorter. The reader is told two lengths by its peer and believes neither: the one is
compared with the bytes that came, the other with those that come out, of which it takes
at most one more than it allows.
-/

namespace Portl

open Checks

def attachV2CompressThreshold : ℕ := 16 * 1024

def attachV2ZstdLevel : ℤ := 3

/-- What is used of the `zstd` crate. `readToEnd` reads a decoder through `take`. -/
structure Zstd where
  Decoder : Type
  encodeAll : Bytes → ℤ → Except String Bytes
  newDecoder : Bytes → Except String Decoder
  readToEnd : UInt64 → Decoder → Except String Bytes
  bounded {cap : UInt64} {decoder : Decoder} {out : Bytes} :
    readToEnd cap decoder = .ok out → out.length ≤ cap.toNat
  round_trip (bytes : Bytes) (level : ℤ) : ∃ compressed, encodeAll bytes level = .ok compressed ∧
    ∀ cap : UInt64, bytes.length ≤ cap.toNat →
      ∃ decoder, newDecoder compressed = .ok decoder ∧ readToEnd cap decoder = .ok bytes

inductive AttachV2PayloadCodec where
  | none
  | zstd
deriving DecidableEq

structure AttachV2Payload where
  codec : AttachV2PayloadCodec
  dictionaryId : Option UInt32
  uncompressedLen : UInt64
  compressedLen : UInt64
  bytes : Bytes

namespace AttachV2Payload

def raw (bytes : Bytes) : AttachV2Payload :=
  let len := UInt64.ofNat bytes.length
  ⟨.none, none, len, len, bytes⟩

section Codec

variable (Z : Zstd)

def encodeAuto (bytes : Bytes) : Except String AttachV2Payload :=
  if bytes.length ≤ attachV2CompressThreshold then .ok (raw bytes)
  else do
    let compressed ← (Z.encodeAll bytes attachV2ZstdLevel).mapError
      fun _ => "zstd-compress attach v2 payload"
    if compressed.length ≥ bytes.length then .ok (raw bytes)
    else .ok ⟨.zstd, none, UInt64.ofNat bytes.length, UInt64.ofNat compressed.length, compressed⟩

/-- A length of bytes is a `usize`, which a `u64` holds. -/
def decode (payload : AttachV2Payload) (maxUncompressedLen : UInt64) : Except String Bytes := do
  failIf (payload.bytes.length ≠ payload.compressedLen.toNat)
    s!"attach v2 payload compressed length mismatch: declared {payload.compressedLen}, actual {payload.bytes.length}"
  failIf (payload.uncompressedLen > maxUncompressedLen)
    s!"attach v2 payload decoded length {payload.uncompressedLen} exceeds cap {maxUncompressedLen}"
  failIf (payload.dictionaryId.isSome = true) "attach v2 payload dictionary is not negotiated"
  match payload.codec with
  | .none => do
    failIf (payload.uncompressedLen ≠ payload.compressedLen)
      s!"raw attach v2 payload length mismatch: uncompressed {payload.uncompressedLen}, compressed {payload.compressedLen}"
    .ok payload.bytes
  | .zstd => do
    let cap := Word.saturatingAdd maxUncompressedLen 1
    let decoder ← (Z.newDecoder payload.bytes).mapError fun _ => "zstd-decode attach v2 payload"
    let decoded ← (Z.readToEnd cap decoder).mapError fun _ => "read zstd attach v2 payload"
    failIf (decoded.length ≠ payload.uncompressedLen.toNat)
      s!"attach v2 payload decoded length mismatch: declared {payload.uncompressedLen}, actual {decoded.length}"
    .ok decoded

variable {Z} {payload : AttachV2Payload} {bytes out : Bytes} {limit : UInt64}

theorem decode_eq_ok : payload.decode Z limit = .ok out ↔
    payload.bytes.length = payload.compressedLen.toNat ∧ payload.uncompressedLen ≤ limit ∧
      payload.dictionaryId = none ∧
      match payload.codec with
      | .none => payload.uncompressedLen = payload.compressedLen ∧ payload.bytes = out
      | .zstd => ∃ decoder, Z.newDecoder payload.bytes = .ok decoder ∧
          Z.readToEnd (Word.saturatingAdd limit 1) decoder = .ok out ∧
          out.length = payload.uncompressedLen.toNat := by
  obtain ⟨codec, dictionaryId, uncompressedLen, compressedLen, bytes⟩ := payload
  cases codec <;>
    simp only [decode, bind_eq_ok, failIf_eq_ok, exists_const, mapError_eq_ok, not_not, gt_iff_lt,
      UInt64.not_lt, Bool.not_eq_true, Option.isSome_eq_false_iff, Option.isNone_iff_eq_none]
  · simp
  · constructor
    · rintro ⟨hlen, hcap, hdictionary, decoder, hnew, decoded, hread, hdecoded, hout⟩
      cases hout
      exact ⟨hlen, hcap, hdictionary, decoder, hnew, hread, hdecoded⟩
    · rintro ⟨hlen, hcap, hdictionary, decoder, hnew, hread, hdecoded⟩
      exact ⟨hlen, hcap, hdictionary, decoder, hnew, out, hread, hdecoded, rfl⟩

variable (h : bytes.length ≤ limit.toNat)
include h

theorem toNat_ofNat_length : (UInt64.ofNat bytes.length).toNat = bytes.length :=
  UInt64.toNat_ofNat_of_lt' (h.trans_lt limit.toNat_lt)

theorem ofNat_length_le : UInt64.ofNat bytes.length ≤ limit := by
  rw [UInt64.le_iff_toNat_le, toNat_ofNat_length h]
  exact h

theorem decode_raw : (raw bytes).decode Z limit = .ok bytes :=
  decode_eq_ok.mpr ⟨(toNat_ofNat_length h).symm, ofNat_length_le h, rfl, rfl, rfl⟩

omit h

theorem length_decode (h : payload.decode Z limit = .ok out) :
    out.length = payload.uncompressedLen.toNat := by
  obtain ⟨hlen, -, -, hcodec⟩ := decode_eq_ok.mp h
  cases hc : payload.codec with
  | none =>
    rw [hc] at hcodec
    obtain ⟨hsame, rfl⟩ := hcodec
    rw [hlen, hsame]
  | zstd =>
    rw [hc] at hcodec
    obtain ⟨_, -, -, hout⟩ := hcodec
    exact hout

theorem decode_encodeAuto (Z : Zstd) (h : bytes.length ≤ limit.toNat) :
    ∃ payload, encodeAuto Z bytes = .ok payload ∧ payload.decode Z limit = .ok bytes := by
  unfold encodeAuto
  by_cases hsmall : bytes.length ≤ attachV2CompressThreshold
  · exact ⟨_, if_pos hsmall, decode_raw h⟩
  · rw [if_neg hsmall]
    obtain ⟨compressed, hencode, hdecode⟩ := Z.round_trip bytes attachV2ZstdLevel
    simp only [hencode, Except.mapError, bind, Except.bind]
    by_cases hlonger : compressed.length ≥ bytes.length
    · exact ⟨_, if_pos hlonger, decode_raw h⟩
    · -- the reader's allowance is one more than the limit, or all there is
      have hcap : bytes.length ≤ (Word.saturatingAdd limit 1).toNat := by
        have hlt := h.trans_lt limit.toNat_lt
        by_contra hnot
        have hword : Word.saturatingAdd limit 1 < UInt64.ofNat bytes.length := by
          rw [UInt64.lt_iff_toNat_lt, toNat_ofNat_length h]
          exact not_le.mp hnot
        rw [Word.saturatingAdd_lt_iff, toNat_ofNat_length h] at hword
        omega
      obtain ⟨decoder, hnew, hread⟩ := hdecode _ hcap
      refine ⟨_, if_neg hlonger, decode_eq_ok.mpr ⟨?_, ofNat_length_le h, rfl, decoder, hnew, hread, ?_⟩⟩
      · exact (toNat_ofNat_length ((not_le.mp hlonger).le.trans h)).symm
      · exact (toNat_ofNat_length h).symm

end Codec

/-- Whatever a limit allows comes back from the encoder under that limit. No payload,
however made, gives more than the limit, or another length than it declares. -/
theorem attachV2Payload_round_trip (Z : Zstd) (maxUncompressedLen : UInt64) :
    (∀ bytes : Bytes, bytes.length ≤ maxUncompressedLen.toNat →
      ∃ payload, encodeAuto Z bytes = .ok payload ∧
        payload.decode Z maxUncompressedLen = .ok bytes) ∧
    ∀ (payload : AttachV2Payload) (out : Bytes), payload.decode Z maxUncompressedLen = .ok out →
      out.length ≤ maxUncompressedLen.toNat ∧ out.length = payload.uncompressedLen.toNat := by
  refine ⟨fun bytes h => decode_encodeAuto Z h, ?_⟩
  intro payload out h
  obtain ⟨-, hcap, -⟩ := decode_eq_ok.mp h
  refine ⟨?_, length_decode h⟩
  rw [length_decode h]
  exact UInt64.le_iff_toNat_le.mp hcap

/-- Two equal halves are written once, anything else is stored. -/
def halvingZstd : Zstd where
  Decoder := Bytes
  encodeAll bytes _ :=
    let half := bytes.take (bytes.length / 2)
    .ok (if bytes = half ++ half then 2 :: half else 1 :: bytes)
  newDecoder
    | [] => .error "incomplete frame"
    | tag :: rest => .ok (if tag = 2 then rest ++ rest else rest)
  readToEnd cap bytes := .ok (bytes.take cap.toNat)
  bounded h := by
    cases h
    exact List.length_take_le _ _
  round_trip bytes _ := by
    refine ⟨_, rfl, fun cap h => ⟨bytes, ?_, by rw [List.take_of_length_le h]⟩⟩
    by_cases hhalves : bytes = bytes.take (bytes.length / 2) ++ bytes.take (bytes.length / 2)
    · rw [if_pos hhalves]
      exact congrArg _ hhalves.symm
    · rw [if_neg hhalves]
      rfl

theorem encodeAuto_halves (half : Bytes) (h : attachV2CompressThreshold < half.length + half.length) :
    ∃ payload, encodeAuto halvingZstd (half ++ half) = .ok payload ∧ payload.codec = .zstd ∧
      payload.bytes = 2 :: half := by
  have htake : (half ++ half).take ((half ++ half).length / 2) = half := by
    rw [List.length_append, ← two_mul, Nat.mul_div_cancel_left _ two_pos, List.take_left]
  have hencode : halvingZstd.encodeAll (half ++ half) attachV2ZstdLevel = .ok (2 :: half) := by
    simp only [halvingZstd, htake, if_true]
  have hshorter : ¬ (2 :: half).length ≥ (half ++ half).length := by
    rw [List.length_cons, List.length_append]
    unfold attachV2CompressThreshold at h
    omega
  rw [encodeAuto, if_neg (by rwa [List.length_append, not_le]), hencode]
  exact ⟨_, if_neg hshorter, rfl, rfl⟩

/-- Twenty thousand bytes come back from half as many. A payload of the peer that declares
three bytes and holds four is refused; of three it is read. -/
theorem attachV2Payload_round_trip_halves :
    let half : Bytes := List.replicate 10000 97
    (∃ payload, encodeAuto halvingZstd (half ++ half) = .ok payload ∧ payload.codec = .zstd ∧
      payload.bytes = 2 :: half ∧ payload.decode halvingZstd 20000 = .ok (half ++ half)) ∧
    (decode halvingZstd ⟨.zstd, none, 3, 3, [2, 1, 2]⟩ 3).isOk = false ∧
    ([1, 2, 3] : Bytes).length ≤ (3 : UInt64).toNat ∧
      ([1, 2, 3] : Bytes).length = (3 : UInt64).toNat := by
  intro half
  have hlength : half.length = 10000 := List.length_replicate
  refine ⟨?_, by decide,
    (attachV2Payload_round_trip halvingZstd 3).2 ⟨.zstd, none, 3, 4, [1, 1, 2, 3]⟩ [1, 2, 3] rfl⟩
  obtain ⟨payload, hencode, hcodec, hbytes⟩ := encodeAuto_halves half (by rw [hlength]; decide)
  obtain ⟨payload', hencode', hdecode⟩ := (attachV2Payload_round_trip halvingZstd 20000).1
    (half ++ half) (by rw [List.length_append, hlength]; decide)
  cases hencode.symm.trans hencode'
  exact ⟨payload, hencode, hcodec, hbytes, hdecode⟩

end AttachV2Payload

end Portl
