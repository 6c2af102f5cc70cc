import Portl.Rendezvous.Mailbox
import Portl.Store.SessionShare

/-!
# The exchange over a mailbox

`rendezvous/backend.rs` and `rendezvous/wormhole_crypto.rs`. Two parties that know
one short code meet in a mailbox, agree on a key with SPAKE2, and hand an envelope
over: the recipient sends a hello under phase `0`, the offerer the envelope under
phase `1`.

SPAKE2, the secretbox, the hash functions and JSON are other people's code;
`Wormhole` is the part of them that is called, with the random numbers as
arguments. `Wormhole.Ideal` says what the honest run needs of them.
-/

namespace Portl

open Checks MailboxClient

/-! ## Keys and ciphertexts -/

abbrev Bytes24 := Vector UInt8 24

structure RecipientHelloV1 where
  schema : String
  endpointIdHex : Option String
  labelHint : Option String
deriving DecidableEq

/-- `PortlExchangeEnvelopeV1` as it travels: what an import reads of it, and the
fields that are only shown. -/
structure OfferedEnvelope where
  envelope : PortlExchangeEnvelopeV1
  senderLabel : Option String
  workspaceId : String
  conflictHandle : String
deriving DecidableEq

structure Wormhole where
  /-- `Spake2<Ed25519Group>`, and the random numbers it starts from. -/
  Spake : Type
  Random : Type
  startSymmetric : Bytes → Bytes → Random → Spake × Bytes
  finish : Spake → Bytes → Except String Bytes
  sha256 : Bytes → Bytes32
  /-- `Hkdf::new(None, key).expand(purpose)` -/
  hkdf : Bytes32 → Bytes → Bytes32
  /-- XSalsa20Poly1305 -/
  encrypt : Bytes32 → Bytes24 → Bytes → Bytes
  decrypt : Bytes32 → Bytes24 → Bytes → Option Bytes
  /-- `serde_json` on the body of a `pake` message, a hello and an envelope; the
  last reads the shadow struct, before it is validated -/
  pakeToVec : String → Bytes
  pakeFromSlice : Bytes → Except String String
  helloToVec : RecipientHelloV1 → Except String Bytes
  helloFromSlice : Bytes → Except String RecipientHelloV1
  envelopeToVec : OfferedEnvelope → Except String Bytes
  envelopeFromSlice : Bytes → Except String OfferedEnvelope

inductive WormholeCryptoError where
  | invalidJson (error : String)
  | invalidHex
  | spake (error : String)
  | keyLength (length : Nat)
  | decrypt
  | truncated
deriving DecidableEq

section Crypto

variable (W : Wormhole)

def startPake (password appid : String) (random : W.Random) : W.Spake × Bytes :=
  let started := W.startSymmetric (asciiBytes password) (asciiBytes appid) random
  (started.1, W.pakeToVec (Hex.encode started.2))

theorem size_toArray_of_length {n : Nat} {bytes : Bytes} (h : bytes.length = n) :
    bytes.toArray.size = n := by
  rw [List.size_toArray, h]

def asArray (n : Nat) (bytes : Bytes) : Option (Vector UInt8 n) :=
  if h : bytes.length = n then some ⟨bytes.toArray, size_toArray_of_length h⟩ else none

def finishPake (state : W.Spake) (peerBody : Bytes) : Except WormholeCryptoError Bytes32 := do
  let pake ← (W.pakeFromSlice peerBody).mapError .invalidJson
  let peerMsg ← okOr (Hex.decode pake) .invalidHex
  let shared ← (W.finish state peerMsg).mapError .spake
  okOr (asArray 32 shared) (.keyLength shared.length)

def phasePurpose : Bytes := asciiBytes "wormhole:phase:"

def derivePhaseKey (key : Bytes32) (side phase : String) : Bytes32 :=
  W.hkdf key (phasePurpose ++ (W.sha256 (asciiBytes side)).toList ++
    (W.sha256 (asciiBytes phase)).toList)

/-- `encrypt_phase_with_nonce`; the nonce of `encrypt_phase` is a random one. -/
def encryptPhase (nonce : Bytes24) (key : Bytes32) (side phase : String) (plaintext : Bytes) :
    Bytes :=
  nonce.toList ++ W.encrypt (derivePhaseKey W key side phase) nonce plaintext

def decryptPhase (key : Bytes32) (side phase : String) (encrypted : Bytes) :
    Except WormholeCryptoError Bytes := do
  let nonce ← okOr (asArray 24 (encrypted.take 24)) .truncated
  okOr (W.decrypt (derivePhaseKey W key side phase) nonce (encrypted.drop 24)) .decrypt

end Crypto

/-! ## Payloads -/

/-- `InvalidPayload`, with its texts kept apart by what they report. -/
inductive PayloadError where
  | json (error : String)
  | helloSchema (schema : String)
  | endpointIdLength (length : Nat)
  | endpointIdHex
  | endpointIdBytes (length : Nat)
  | labelHintLength (length : Nat)
  | envelope (error : EnvelopeValidationError)
deriving DecidableEq

inductive RendezvousError where
  | mailbox (error : MailboxError)
  | crypto (error : WormholeCryptoError)
  | invalidPayload (error : PayloadError)
deriving DecidableEq

def portlExchangeAppidV1 : String := "portl.exchange.v1"

def portlRecipientHelloSchemaV1 : String := "portl.recipient_hello.v1"

def RecipientHelloV1.anonymous : RecipientHelloV1 := ⟨portlRecipientHelloSchemaV1, none, none⟩

def RecipientHelloV1.validate (hello : RecipientHelloV1) : Except PayloadError Unit := do
  failIf (hello.schema ≠ portlRecipientHelloSchemaV1) (.helloSchema hello.schema)
  whenSome hello.endpointIdHex fun hexed => do
    failIf (hexed.utf8ByteSize ≠ 64) (.endpointIdLength hexed.utf8ByteSize)
    let decoded ← okOr (Hex.decode hexed) .endpointIdHex
    failIf (decoded.length ≠ 32) (.endpointIdBytes decoded.length)
  whenSome hello.labelHint fun label =>
    failIf (label.utf8ByteSize > 128) (.labelHintLength label.utf8ByteSize)

/-- `Deserialize` of an envelope: the shadow struct, then `validate`. -/
def deserializeEnvelope (W : Wormhole) (bytes : Bytes) : Except PayloadError OfferedEnvelope := do
  let offered ← (W.envelopeFromSlice bytes).mapError .json
  offered.envelope.validate.mapError .envelope
  return offered

structure ShortCode where
  nameplate : String
  words : List String
deriving DecidableEq

def ShortCode.password (code : ShortCode) : String :=
  code.words.foldl (fun out word => out ++ "-" ++ word) code.nameplate

/-! ## The two sides -/

/-- `?` on a call of the mailbox client. -/
def mailbox {α : Type} (x : ClientM MailboxError α) : ClientM RendezvousError α :=
  x.liftError .mailbox

def bestEffortCloseScary (reason : String) : ClientM RendezvousError Unit :=
  (closeScary reason).ignore

def bestEffortCloseHappy : ClientM RendezvousError Unit := closeHappy.ignore

/-- The `match` that closes the mailbox before an error is returned. -/
def orCloseScary {α : Type} (reason : String) (result : Except RendezvousError α) :
    ClientM RendezvousError α :=
  match result with
  | .ok a => ClientM.pure a
  | .error e => (bestEffortCloseScary reason).bind fun _ => ClientM.fail e

/-- `?` on a result that is there already. -/
def orReturn {α : Type} (result : Except RendezvousError α) : ClientM RendezvousError α :=
  match result with
  | .ok a => ClientM.pure a
  | .error e => ClientM.fail e

section Sides

variable (W : Wormhole)

structure SideRandom where
  side : String
  spake : W.Random
  nonce : Bytes24

def offerPakeAndRecvHello (code : ShortCode) (spake : W.Random) :
    ClientM RendezvousError (Bytes32 × RecipientHelloV1) := do
  let started := startPake W code.password portlExchangeAppidV1 spake
  mailbox (sendPhase "pake" started.2)
  let peerPake ← mailbox (recvPhaseFromPeer "pake")
  let key ← orCloseScary "pake failed" ((finishPake W started.1 peerPake.body).mapError .crypto)
  let helloMsg ← mailbox (recvPhaseFromPeer "0")
  let helloPlain ← orCloseScary "hello decrypt failed"
    ((decryptPhase W key helloMsg.side "0" helloMsg.body).mapError .crypto)
  let hello ← orCloseScary "hello deserialize failed"
    ((W.helloFromSlice helloPlain).mapError fun e => .invalidPayload (.json e))
  orCloseScary "hello validation failed" (hello.validate.mapError .invalidPayload)
  ClientM.pure (key, hello)

def offerSendEnvelope (key : Bytes32) (offered : OfferedEnvelope) (side : String)
    (nonce : Bytes24) : ClientM RendezvousError Unit := do
  let envelopeJson ← orReturn
    ((W.envelopeToVec offered).mapError fun e => .invalidPayload (.json e))
  mailbox (sendPhase "1" (encryptPhase W nonce key side "1" envelopeJson))
  bestEffortCloseHappy

/-- `offer_over_mailbox`, on the client it makes. -/
def offerOverMailbox (random : SideRandom W) (code : ShortCode) (offered : OfferedEnvelope) :
    ClientM RendezvousError Unit := do
  let _ ← mailbox (claimAndOpen code.nameplate)
  let agreed ← offerPakeAndRecvHello W code random.spake
  offerSendEnvelope W agreed.1 offered random.side random.nonce

/-- `accept_over_mailbox`, on the client it makes. -/
def acceptOverMailbox (random : SideRandom W) (code : ShortCode) (hello : RecipientHelloV1) :
    ClientM RendezvousError OfferedEnvelope := do
  orReturn (hello.validate.mapError .invalidPayload)
  let _ ← mailbox (claimAndOpen code.nameplate)
  let started := startPake W code.password portlExchangeAppidV1 random.spake
  mailbox (sendPhase "pake" started.2)
  let peerPake ← mailbox (recvPhaseFromPeer "pake")
  let key ← orCloseScary "pake failed" ((finishPake W started.1 peerPake.body).mapError .crypto)
  let helloJson ← orReturn ((W.helloToVec hello).mapError fun e => .invalidPayload (.json e))
  mailbox (sendPhase "0" (encryptPhase W random.nonce key random.side "0" helloJson))
  let envMsg ← mailbox (recvPhaseFromPeer "1")
  let envPlain ← orCloseScary "envelope decrypt failed"
    ((decryptPhase W key envMsg.side "1" envMsg.body).mapError .crypto)
  let offered ← orCloseScary "envelope deserialize failed"
    ((deserializeEnvelope W envPlain).mapError .invalidPayload)
  bestEffortCloseHappy
  ClientM.pure offered

end Sides

/-! ## Ideal primitives -/

/-- What the honest run needs: SPAKE2 gives two parties with one password the same
key, the secretbox opens what it sealed, and JSON reads back what it wrote, of the
hello and the envelope that are exchanged. -/
structure Wormhole.Ideal (W : Wormhole) (hello : RecipientHelloV1) (offered : OfferedEnvelope) :
    Prop where
  agrees : ∀ password identity r r', ∃ shared, shared.length = 32 ∧
    W.finish (W.startSymmetric password identity r).1 (W.startSymmetric password identity r').2 =
      .ok shared ∧
    W.finish (W.startSymmetric password identity r').1 (W.startSymmetric password identity r).2 =
      .ok shared
  opens : ∀ key nonce plaintext,
    W.decrypt key nonce (W.encrypt key nonce plaintext) = some plaintext
  pakeJson : ∀ bytes, W.pakeFromSlice (W.pakeToVec (Hex.encode bytes)) = .ok (Hex.encode bytes)
  helloJson : ∃ bytes, W.helloToVec hello = .ok bytes ∧ W.helloFromSlice bytes = .ok hello
  envelopeJson : ∃ bytes, W.envelopeToVec offered = .ok bytes ∧
    W.envelopeFromSlice bytes = .ok offered

theorem asArray_toList {n : Nat} (v : Vector UInt8 n) : asArray n v.toList = some v := by
  unfold asArray
  rw [dif_pos v.length_toList]
  rfl

section Ideal

variable {W : Wormhole} {hello : RecipientHelloV1} {offered : OfferedEnvelope}

variable (hW : W.Ideal hello offered)
include hW

theorem finishPake_eq_ok {password appid : String} {r : W.Random} {state : W.Spake} {shared : Bytes}
    {key : Bytes32}
    (hfinish : W.finish state (W.startSymmetric (asciiBytes password) (asciiBytes appid) r).2 =
      .ok shared) (hkey : asArray 32 shared = some key) :
    finishPake W state (startPake W password appid r).2 = .ok key := by
  simp only [finishPake, startPake, bind_eq_ok, mapError_eq_ok, okOr_eq_ok]
  exact ⟨_, hW.pakeJson _, _, Hex.decode_encode _, shared, hfinish, hkey⟩

theorem Wormhole.Ideal.key (password appid : String) (r r' : W.Random) :
    ∃ key, finishPake W (startPake W password appid r).1 (startPake W password appid r').2 =
        .ok key ∧
      finishPake W (startPake W password appid r').1 (startPake W password appid r).2 =
        .ok key := by
  obtain ⟨shared, hlen, h, h'⟩ := hW.agrees (asciiBytes password) (asciiBytes appid) r r'
  have hkey : asArray 32 shared = some ⟨shared.toArray, by simpa using hlen⟩ := dif_pos hlen
  exact ⟨_, finishPake_eq_ok hW h hkey, finishPake_eq_ok hW h' hkey⟩

theorem Wormhole.Ideal.decrypt_encrypt (nonce : Bytes24) (key : Bytes32) (side phase : String)
    (plaintext : Bytes) :
    decryptPhase W key side phase (encryptPhase W nonce key side phase plaintext) =
      .ok plaintext := by
  have htake : (encryptPhase W nonce key side phase plaintext).take 24 = nonce.toList :=
    List.take_left' nonce.length_toList
  have hdrop : (encryptPhase W nonce key side phase plaintext).drop 24 =
      W.encrypt (derivePhaseKey W key side phase) nonce plaintext :=
    List.drop_left' nonce.length_toList
  unfold decryptPhase
  rw [htake, hdrop, asArray_toList]
  show okOr (W.decrypt _ nonce (W.encrypt _ nonce plaintext)) _ = _
  rw [hW.opens]
  rfl

theorem Wormhole.Ideal.deserialize (hvalid : offered.envelope.validate = .ok ()) :
    ∃ bytes, W.envelopeToVec offered = .ok bytes ∧ deserializeEnvelope W bytes = .ok offered := by
  obtain ⟨bytes, hto, hfrom⟩ := hW.envelopeJson
  refine ⟨bytes, hto, ?_⟩
  simp only [deserializeEnvelope, bind_eq_ok, mapError_eq_ok]
  exact ⟨offered, hfrom, (), hvalid, rfl⟩

end Ideal

end Portl
