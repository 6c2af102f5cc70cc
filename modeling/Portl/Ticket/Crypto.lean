import Portl.Ticket.Canonical

/-!
# Hashes, signatures and the wire codec

`ticket/hash.rs`, `ticket/sign.rs` and `ticket/codec.rs`. Ed25519, SHA-256 and
postcard are other people's code; `Primitives` is the part of their interface
these files call, and every statement below is for an arbitrary one. What a
statement needs of them is a named hypothesis (`Signs`), never a definition
made up here.
-/

namespace Portl

open Checks

structure Primitives where
  SigningKey : Type
  /-- `sk.verifying_key().to_bytes()` -/
  verifyingKey : SigningKey → Bytes32
  /-- `sk.sign(bytes).to_bytes()` -/
  sign : SigningKey → Bytes → Bytes64
  /-- `VerifyingKey::from_bytes(pk).is_ok()` -/
  keyFromBytes : Bytes32 → Bool
  /-- `verifying_key.verify_strict(bytes, signature).is_ok()` -/
  verifyStrict : Bytes32 → Bytes → Bytes64 → Bool
  /-- `Sha256::digest(bytes)` -/
  sha256 : Bytes → Bytes32
  /-- `postcard::to_stdvec(&body)` -/
  bodyToStdvec : PortlBody → Option Bytes
  /-- `postcard::to_stdvec(&ticket)` -/
  ticketToStdvec : PortlTicket → Option Bytes
  /-- `postcard::from_bytes::<PortlTicket>(bytes)` -/
  ticketFromBytes : Bytes → Option PortlTicket

/-- Correctness of signing: the public half of a signing key is a valid key,
and a signature made with it verifies. -/
def Primitives.Signs (P : Primitives) : Prop :=
  ∀ sk bytes, P.keyFromBytes (P.verifyingKey sk) = true ∧
    P.verifyStrict (P.verifyingKey sk) bytes (P.sign sk bytes) = true

variable (P : Primitives)

/-! ## Hashes -/

def asciiBytes (s : String) : Bytes := s.toUTF8.data.toList

def ticketIdDomain : Bytes := asciiBytes "portl/ticket-id/v1"
def parentTicketIdDomain : Bytes := asciiBytes "portl/parent/v1"
def popDomain : Bytes := asciiBytes "portl/ticket-pop/v1"

/-- `digest[..16]`. -/
def first16 (digest : Bytes32) : Bytes16 :=
  Vector.ofFn fun i : Fin 16 => digest[i.val]

def hash16 (domain : Bytes) (sig : Bytes64) : Bytes16 :=
  first16 (P.sha256 (domain ++ sig.toList))

def ticketId (sig : Bytes64) : Bytes16 := hash16 P ticketIdDomain sig

def parentTicketId (sig : Bytes64) : Bytes16 := hash16 P parentTicketIdDomain sig

/-! ## Signatures -/

def bodySigningBytes (body : PortlBody) : Except PortlError Bytes := do
  canonicalCheck body
  okOr (P.bodyToStdvec body) .postcard

def signBody (sk : P.SigningKey) (body : PortlBody) : Except PortlError Bytes64 := do
  let bytes ← bodySigningBytes P body
  .ok (P.sign sk bytes)

def verifyBody (pk : Bytes32) (body : PortlBody) (sig : Bytes64) :
    Except PortlError Unit := do
  let bytes ← bodySigningBytes P body
  failIf (P.keyFromBytes pk = false) (.signature "invalid public key")
  failIf (P.verifyStrict pk bytes sig = false) (.signature "verify_strict failed")

/-- `pk` is a valid key, and `sig` is its signature over the canonical bytes of
`body`. -/
def SignatureValid (pk : Bytes32) (body : PortlBody) (sig : Bytes64) : Prop :=
  canonicalCheck body = .ok () ∧ P.keyFromBytes pk = true ∧
    ∃ bytes, P.bodyToStdvec body = some bytes ∧ P.verifyStrict pk bytes sig = true

variable {P} {body : PortlBody}

theorem bodySigningBytes_eq_ok {bytes : Bytes} :
    bodySigningBytes P body = .ok bytes ↔
      canonicalCheck body = .ok () ∧ P.bodyToStdvec body = some bytes := by
  simp only [bodySigningBytes, bind_eq_ok, exists_unit_ok, okOr_eq_ok]

variable {sig : Bytes64}

theorem verifyBody_eq_ok {pk : Bytes32} :
    verifyBody P pk body sig = .ok () ↔ SignatureValid P pk body sig := by
  simp only [verifyBody, SignatureValid, bind_eq_ok, bodySigningBytes_eq_ok, failIf_eq_ok,
    exists_const, Bool.not_eq_false]
  constructor
  · rintro ⟨bytes, ⟨hcan, henc⟩, hkey, hver⟩
    exact ⟨hcan, hkey, bytes, henc, hver⟩
  · rintro ⟨hcan, hkey, bytes, henc, hver⟩
    exact ⟨bytes, ⟨hcan, henc⟩, hkey, hver⟩

theorem signatureValid_of_signBody (hP : P.Signs) {sk : P.SigningKey}
    (h : signBody P sk body = .ok sig) : SignatureValid P (P.verifyingKey sk) body sig := by
  simp only [signBody, bind_eq_ok, bodySigningBytes_eq_ok] at h
  obtain ⟨bytes, ⟨hcan, henc⟩, hsig⟩ := h
  obtain ⟨hkey, hver⟩ := hP sk bytes
  rw [← Except.ok.inj hsig]
  exact ⟨hcan, hkey, bytes, henc, hver⟩

/-! ## A transparent instance

Signatures that show their key and their message, and a digest that keeps the
end of its input: nothing secret, but honest signing verifies, so runs of the
definitions can be evaluated. Wire bytes are positions in a table. -/

def transparentSign (key : Bytes32) (bytes : Bytes) : Bytes64 :=
  Vector.ofFn fun i : Fin 64 =>
    if h : i.val < 32 then key[i.val] else bytes.getD (i.val - 32) 0

def Primitives.transparent (table : List PortlTicket) : Primitives where
  SigningKey := Bytes32
  verifyingKey := id
  sign := transparentSign
  keyFromBytes _ := true
  verifyStrict pk bytes sig := decide (sig = transparentSign pk bytes)
  sha256 bytes := Vector.ofFn fun i : Fin 32 =>
    bytes.getD (bytes.length - 32 + i.val) 0 + bytes.length.toUInt8
  bodyToStdvec body := some body.nonce.toList
  ticketToStdvec ticket := some [(table.idxOf ticket).toUInt8]
  ticketFromBytes bytes :=
    match bytes with
    | [i] => table[i.toNat]?
    | _ => none

theorem Primitives.transparent_verifyStrict (table : List PortlTicket) (key : Bytes32)
    (bytes : Bytes) :
    (transparent table).verifyStrict key bytes (transparentSign key bytes) = true := by
  unfold transparent
  simp

theorem Primitives.transparent_signs (table : List PortlTicket) :
    (transparent table).Signs :=
  fun sk bytes => ⟨rfl, transparent_verifyStrict table sk bytes⟩

end Portl
