import Portl.Ticket.Crypto

/-!
# Wire bytes

`ticket/codec.rs`. Postcard may read several byte strings as one ticket, so a
decoder that trusted it would let a ticket travel under many names. Each
decoder therefore encodes what it read once more and compares: whatever
postcard accepts, only the bytes it would write itself get through.

The same four steps are written out three times in the source, with other
errors: here, in the `Ticket` trait of the transport library, and in the
agent's pipeline. `decodeWith` is the common shape.
-/

namespace Portl

open Checks

/-- The one law asked of postcard: it reads back what it wrote. Nothing is said
about the other byte strings it may read. -/
def Primitives.PostcardRoundTrips (P : Primitives) : Prop :=
  ∀ ticket bytes, P.ticketToStdvec ticket = some bytes → P.ticketFromBytes bytes = some ticket

variable (P : Primitives)

def encode (ticket : PortlTicket) : Except PortlError Bytes := do
  canonicalCheckTicket ticket
  okOr (P.ticketToStdvec ticket) .postcard

def decodeWith {ε : Type} (malformed : ε) (violated : PortlError → ε) (mismatch : ε)
    (bytes : Bytes) : Except ε PortlTicket := do
  let ticket ← okOr (P.ticketFromBytes bytes) malformed
  (canonicalCheckTicket ticket).mapError violated
  let reencoded ← okOr (P.ticketToStdvec ticket) malformed
  failIf (reencoded ≠ bytes) mismatch
  .ok ticket

def decode (bytes : Bytes) : Except PortlError PortlTicket :=
  decodeWith P .postcard id (.canonical "re-encode mismatch") bytes

/-- `iroh_tickets::ParseError`, as far as it is raised here. -/
inductive ParseError where
  | postcard
  | verify (message : String)
deriving DecidableEq

def decodeBytes (bytes : Bytes) : Except ParseError PortlTicket :=
  decodeWith P .postcard (fun _ => .verify "canonical form violated")
    (.verify "re-encode mismatch") bytes

/-! ## What is accepted -/

/-- `bytes` is the wire form of `ticket`: read as it, canonical, and exactly what
encoding it gives. -/
structure WireForm (bytes : Bytes) (ticket : PortlTicket) : Prop where
  reads : P.ticketFromBytes bytes = some ticket
  canonical : canonicalCheckTicket ticket = .ok ()
  writes : P.ticketToStdvec ticket = some bytes

variable {P} {bytes : Bytes} {ticket : PortlTicket}

theorem encode_eq_ok :
    encode P ticket = .ok bytes ↔
      canonicalCheckTicket ticket = .ok () ∧ P.ticketToStdvec ticket = some bytes := by
  simp only [encode, bind_eq_ok, exists_unit_ok, okOr_eq_ok]

/-- **The four steps accept wire forms**, whatever their errors are. -/
theorem decodeWith_eq_ok {ε : Type} {malformed mismatch : ε} {violated : PortlError → ε} :
    decodeWith P malformed violated mismatch bytes = .ok ticket ↔ WireForm P bytes ticket := by
  simp only [decodeWith, bind_eq_ok, okOr_eq_ok, mapError_eq_ok, failIf_eq_ok,
    exists_unit_ok, exists_const, ne_eq, not_not]
  constructor
  · rintro ⟨t, hfrom, hcan, encoded, hto, rfl, hok⟩
    obtain rfl := Except.ok.inj hok
    exact ⟨hfrom, hcan, hto⟩
  · rintro ⟨hfrom, hcan, hto⟩
    exact ⟨ticket, hfrom, hcan, bytes, hto, rfl, rfl⟩

theorem decode_eq_ok : decode P bytes = .ok ticket ↔ WireForm P bytes ticket :=
  decodeWith_eq_ok

theorem decodeBytes_eq_ok : decodeBytes P bytes = .ok ticket ↔ WireForm P bytes ticket :=
  decodeWith_eq_ok

theorem WireForm.encode_eq (h : WireForm P bytes ticket) : encode P ticket = .ok bytes :=
  encode_eq_ok.mpr ⟨h.canonical, h.writes⟩

/-- **No malleability**: a ticket has one wire form. -/
theorem WireForm.unique {bytes' : Bytes} (h : WireForm P bytes ticket)
    (h' : WireForm P bytes' ticket) : bytes = bytes' :=
  Option.some.inj (h.writes.symm.trans h'.writes)

theorem wireForm_of_encode (hP : P.PostcardRoundTrips) (h : encode P ticket = .ok bytes) :
    WireForm P bytes ticket := by
  obtain ⟨hcan, hto⟩ := encode_eq_ok.mp h
  exact ⟨hP ticket bytes hto, hcan, hto⟩

end Portl
