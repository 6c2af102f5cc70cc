import Portl.Ticket.Crypto

/-!
# Offers and proof of possession

`ticket/offer.rs`: what a client sends, and the signature by which the holder
of a `to`-bound ticket shows that it holds the key.
-/

namespace Portl

open Checks

structure TicketOffer where
  ticket : Bytes
  chain : List Bytes
  proof : Option Bytes64
  clientNonce : Bytes16
deriving DecidableEq

variable (P : Primitives)

def popDigest (ticketId clientNonce : Bytes16) : Bytes32 :=
  P.sha256 (popDomain ++ ticketId.toList ++ clientNonce.toList)

def computePopSig (opSk : P.SigningKey) (ticketId clientNonce : Bytes16) : Bytes64 :=
  P.sign opSk (popDigest P ticketId clientNonce).toList

def verifyPop (opPk : Bytes32) (ticketId clientNonce : Bytes16) (proof : Bytes64) :
    Except PortlError Unit := do
  failIf (P.keyFromBytes opPk = false) (.signature "invalid proof public key")
  failIf (P.verifyStrict opPk (popDigest P ticketId clientNonce).toList proof = false)
    (.signature "bad proof")

def validateTicketProof (ticket : PortlTicket) (clientNonce : Bytes16)
    (proof : Option Bytes64) : Except PortlError Unit :=
  match ticket.body.holder, proof with
  | some holder, some sig => verifyPop P holder (ticketId P ticket.sig) clientNonce sig
  | none, none => .ok ()
  | none, some _ => .error (.ticket "proof not expected for bearer ticket")
  | some _, none => .error (.ticket "proof required for to-bound ticket")

variable {P}

theorem validateTicketProof_eq_ok {ticket : PortlTicket} {clientNonce : Bytes16}
    {proof : Option Bytes64} :
    validateTicketProof P ticket clientNonce proof = .ok () ↔
      (ticket.body.holder = none → proof = none) ∧
      ∀ holder, ticket.body.holder = some holder → ∃ sig, proof = some sig ∧
        verifyPop P holder (ticketId P ticket.sig) clientNonce sig = .ok () := by
  unfold validateTicketProof
  cases ticket.body.holder <;> cases proof <;> simp

end Portl
