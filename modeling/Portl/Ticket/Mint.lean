import Portl.Ticket.Verify

/-!
# Minting

`ticket/mint.rs` and `ticket/master.rs`. Minting repeats the rules of
`verify_chain` from the other side, in code of its own. The question is whether
the two agree: can a ticket that was minted below a verified one be used?

The random nonce is an argument. `fresh_nonce` redraws until it is non-zero, so
its results are a subtype; the wall clock of `mint_master` is an argument too,
absent when it reads before the epoch.
-/

namespace Portl

open Checks

/-- What `fresh_nonce` can return. -/
abbrev FreshNonce : Type := { nonce : Bytes8 // nonce ≠ Vector.replicate 8 0 }

/-- `MAX_MASTER_TTL_SECS`: thirty days. -/
def maxMasterTtlSecs : UInt64 := 30 * 24 * 60 * 60

variable (P : Primitives)

def issuerFor (sk : P.SigningKey) (addr : EndpointAddr) : Option Bytes32 :=
  if P.verifyingKey sk = addr.id then none else some (P.verifyingKey sk)

def sealTicket (sk : P.SigningKey) (addr : EndpointAddr) (body : PortlBody) :
    Except PortlError PortlTicket := do
  let sig ← signBody P sk body
  let ticket : PortlTicket := { v := 1, addr := addr, body := body, sig := sig }
  canonicalCheckTicket ticket
  .ok ticket

def mintRoot (nonce : FreshNonce) (sk : P.SigningKey) (addr : EndpointAddr)
    (caps : Capabilities) (notBefore notAfter : UInt64) (holder : Option Bytes32) :
    Except PortlError PortlTicket :=
  sealTicket P sk addr
    { caps := caps, target := addr.id, alpnsExtra := [], notBefore := notBefore,
      notAfter := notAfter, issuer := issuerFor P sk addr, parent := none,
      nonce := nonce.val, bearer := none, holder := holder }

/-- The body of a delegated ticket. The bearer of the parent is not handed
down. -/
def delegatedBody (nonce : FreshNonce) (parentSk : P.SigningKey) (parent : PortlTicket)
    (childCaps : Capabilities) (notBefore notAfter : UInt64) (holder : Option Bytes32)
    (depthRemaining : UInt8) : PortlBody :=
  { caps := childCaps, target := parent.body.target, alpnsExtra := [],
    notBefore := notBefore, notAfter := notAfter, issuer := issuerFor P parentSk parent.addr,
    parent := some ⟨parentTicketId P parent.sig, depthRemaining⟩, nonce := nonce.val,
    bearer := none, holder := holder }

def mintDelegated (nonce : FreshNonce) (parentSk : P.SigningKey) (parent : PortlTicket)
    (childCaps : Capabilities) (notBefore notAfter : UInt64) (holder : Option Bytes32) :
    Except PortlError PortlTicket := do
  canonicalCheckTicket parent
  failIf (isNarrowing parent.body.caps childCaps = false)
    (.ticket "child capabilities widen parent")
  failIf (notBefore < parent.body.notBefore ∨ notAfter > parent.body.notAfter)
    (.ticket "child validity window escapes parent")
  let depthRemaining ← okOr (expectedDepth parent) (.ticket "parent depth exhausted")
  sealTicket P parentSk parent.addr
    (delegatedBody P nonce parentSk parent childCaps notBefore notAfter holder depthRemaining)

def mintMaster (nonce : FreshNonce) (clock : Option UInt64) (sk : P.SigningKey)
    (addr : EndpointAddr) (caps : Capabilities) (bearer : Bytes) (ttlSecs : UInt64)
    (holder : Bytes32) : Except PortlError PortlTicket := do
  failIf (bearer = []) (.ticket "master ticket bearer must be non-empty")
  failIf (ttlSecs = 0) (.ticket "master ticket ttl must be > 0")
  failIf (ttlSecs > maxMasterTtlSecs) (.ticket "master ticket ttl exceeds 30 days")
  let now ← okOr clock (.clock "system clock is before unix epoch")
  let notAfter ← okOr (Word.checkedAdd now ttlSecs) (.ticket "master ticket ttl overflows u64")
  sealTicket P sk addr
    { caps := caps, target := addr.id, alpnsExtra := [], notBefore := now,
      notAfter := notAfter, issuer := issuerFor P sk addr, parent := none,
      nonce := nonce.val, bearer := some bearer, holder := some holder }

variable {P}

theorem issuerFor_getD (sk : P.SigningKey) (addr : EndpointAddr) :
    (issuerFor P sk addr).getD addr.id = P.verifyingKey sk := by
  unfold issuerFor
  split
  · rename_i h
    exact h.symm
  · rfl

variable {sk : P.SigningKey} {ticket : PortlTicket} {addr : EndpointAddr} {caps : Capabilities}
  {holder : Option Bytes32} {nonce : FreshNonce} {notAfter notBefore now : UInt64}
  {roots : TrustRoots} {chain : List PortlTicket}

theorem sealTicket_eq_ok {body : PortlBody} :
    sealTicket P sk addr body = .ok ticket ↔
      ∃ sig, signBody P sk body = .ok sig ∧ ticket = ⟨1, addr, body, sig⟩ ∧
        canonicalCheckTicket ticket = .ok () := by
  simp only [sealTicket, bind_eq_ok, exists_unit_ok]
  constructor
  · rintro ⟨sig, hsig, hcan, hticket⟩
    obtain rfl := Except.ok.inj hticket
    exact ⟨sig, hsig, rfl, hcan⟩
  · rintro ⟨sig, hsig, rfl, hcan⟩
    exact ⟨sig, hsig, hcan, rfl⟩

/-- **A minted child is linked to its parent.** All that `verify_chain` asks of
the pair, bearer aside, is in place when minting succeeds. -/
theorem mintDelegated_linked (hP : P.Signs) {parent child : PortlTicket}
    (hsk : P.verifyingKey sk = resolvedIssuer parent)
    (h : mintDelegated P nonce sk parent caps notBefore notAfter holder = .ok child) :
    HopLinked P parent child ∧ TicketShape parent.addr.id child ∧
      child.body.caps = caps ∧ child.body.notBefore = notBefore ∧
      child.body.notAfter = notAfter ∧ child.body.bearer = none := by
  simp only [mintDelegated, bind_eq_ok, exists_unit_ok, failIf_eq_ok, exists_const,
    okOr_eq_ok, sealTicket_eq_ok, Bool.not_eq_false, not_or] at h
  obtain ⟨-, hcaps, ⟨hnb, hna⟩, depth, hdepth, sig, hsig, rfl, hcan⟩ := h
  have hsigned := signatureValid_of_signBody hP hsig
  rw [hsk] at hsigned
  refine ⟨⟨⟨_, rfl, rfl, hdepth⟩, hsigned, ?_, hcaps, ?_⟩, ⟨hcan, rfl, rfl⟩,
    rfl, rfl, rfl, rfl⟩
  · rw [← hsk]
    exact issuerFor_getD sk parent.addr
  · exact ⟨UInt64.not_lt.mp hnb, UInt64.not_lt.mp hna⟩

/-- **When a minted delegation can be used.** Below a verified ticket, the
minted child verifies in turn exactly when the parent carries no bearer. -/
theorem mintDelegated_verifies_iff (hP : P.Signs) {nonce : FreshNonce} {sk : P.SigningKey}
    {parent child : PortlTicket} {chain : List PortlTicket} {roots : TrustRoots}
    {parentCaps caps : Capabilities} {now notBefore notAfter : UInt64}
    {holder : Option Bytes32}
    (hv : verifyChain P parent chain roots now = .ok parentCaps)
    (hsk : P.verifyingKey sk = resolvedIssuer parent)
    (hmint : mintDelegated P nonce sk parent caps notBefore notAfter holder = .ok child)
    (hnb : notBefore ≤ now) (hna : now < notAfter) :
    verifyChain P child (chain ++ [parent]) roots now = .ok caps ↔
      parent.body.bearer = none := by
  obtain ⟨hhop, hshape, hcaps, hnb', hna', hbearer⟩ := mintDelegated_linked hP hsk hmint
  have hwin : InWindow now child := by
    refine ⟨?_, by rw [hna']; exact hna⟩
    have hle : notBefore.toNat ≤ now.toNat := UInt64.le_iff_toNat_le.mp hnb
    rw [hnb']
    omega
  rw [verifyChain_extend hv hhop hshape hwin, hbearer]
  constructor
  · rintro ⟨hb, -⟩
    exact hb.symm
  · intro hb
    exact ⟨hb.symm, hcaps.symm⟩

def sampleNonce (b : UInt8) (h : b ≠ 0) : FreshNonce :=
  ⟨Vector.replicate 8 b, fun heq => h (by
    have hget := congrArg (fun v : Bytes8 => v[0]) heq
    simpa using hget)⟩

theorem mintDelegated_verifies_plain :
    verifyChain (.transparent []) sampleRoot [] {sampleKey 1} 150 = .ok sampleCaps ∧
    mintDelegated (.transparent []) (sampleNonce 2 (by decide)) (sampleKey 1) sampleRoot
      sampleCaps 100 200 none = .ok (sampleChild none) ∧
    verifyChain (.transparent []) (sampleChild none) ([] ++ [sampleRoot]) {sampleKey 1} 150 =
      .ok sampleCaps := by
  have hv : verifyChain (.transparent []) sampleRoot [] {sampleKey 1} 150 = .ok sampleCaps := by
    decide +kernel
  have hmint : mintDelegated (.transparent []) (sampleNonce 2 (by decide)) (sampleKey 1)
      sampleRoot sampleCaps 100 200 none = .ok (sampleChild none) := by decide +kernel
  exact ⟨hv, hmint, (mintDelegated_verifies_iff (Primitives.transparent_signs []) hv
    (by decide +kernel) hmint (by decide) (by decide)).mpr rfl⟩

/-- A master ticket, as `mint_master` makes it. -/
def sampleMaster : PortlTicket :=
  let ticket := sampleTicket (sampleKey 1) 1 none (some [7])
  { ticket with body := { ticket.body with holder := some (sampleKey 9) } }

/-- Delegating a master ticket succeeds and gives a ticket no verifier takes. -/
theorem mintDelegated_master_rejected :
    mintMaster (.transparent []) (sampleNonce 1 (by decide)) (some 100) (sampleKey 1)
      ⟨sampleKey 1, []⟩ sampleCaps [7] 100 (sampleKey 9) = .ok sampleMaster ∧
    (Primitives.transparent []).Signs ∧ resolvedIssuer sampleMaster = sampleKey 1 ∧
    verifyChain (.transparent []) sampleMaster [] {sampleKey 1} 150 = .ok sampleCaps ∧
    mintDelegated (.transparent []) (sampleNonce 2 (by decide)) (sampleKey 1) sampleMaster
      sampleCaps 100 200 none = .ok (sampleChild none) ∧
    verifyChain (.transparent []) (sampleChild none) [sampleMaster] {sampleKey 1} 150 =
      .error (.chain "child bearer differs from parent") := by
  refine ⟨?_, Primitives.transparent_signs [], ?_, ?_, ?_, ?_⟩ <;> decide +kernel

end Portl
