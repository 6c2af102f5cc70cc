import Portl.Agent.Revocations
import Portl.Ticket.Codec
import Portl.Ticket.Offer
import Portl.Ticket.Verify

/-!
# The acceptance pipeline

`pipeline.rs`: what stands between a ticket offer and a session. The agent does
not call `verify_chain`; it carries a copy of its loops
(`verify_chain_without_time`), moves the clock to a later pass, and has a proof
check of its own. The copy is read here against the predicates of
`Ticket/Verify.lean`: `HopLinked` and `ChainShape` describe it exactly, and
what `verify_chain` asks beyond them is what the copy leaves out.

The rate limiter is third-party code; a check is its answer for the source.
-/

namespace Portl

open Checks List

inductive AckReason where
  | badSignature
  | badChain
  | capsExceedParent
  | notYetValid
  | expired
  | revoked
  | proofMissing
  | proofInvalid
  | rateLimited
  | internalError (detail : Option String)
deriving DecidableEq

inductive AgentMode where
  | listener
  | gateway (upstreamUrl upstreamHost : String) (upstreamPort : UInt16)
deriving DecidableEq

def AgentMode.isGateway (mode : AgentMode) : Bool :=
  match mode with
  | .listener => false
  | .gateway .. => true

structure AcceptanceInput where
  offer : TicketOffer
  sourceId : Bytes32
  trustRoots : TrustRoots
  revocations : RevocationSet
  now : UInt64
  rateLimit : Bytes32 → Bool
  mode : AgentMode

structure Accepted where
  peerToken : Bytes16
  caps : Capabilities
  ticketId : Bytes16
  ticketChainIds : List Bytes16
  ticketIssuerId : Bytes32
  ticketHolderId : Option Bytes32
  bearer : Option Bytes
deriving DecidableEq

inductive AcceptanceOutcome where
  | accepted (session : Accepted)
  | rejected (reason : AckReason)
deriving DecidableEq

def clockSkewSecs : UInt64 := 60

def peerTokenDomain : Bytes := asciiBytes "portl/peer-token/v1"

variable (P : Primitives)

def derivePeerToken (sourceId : Bytes32) (ticketId : Bytes16) : Bytes16 :=
  first16 (P.sha256 (sourceId.toList ++ ticketId.toList ++ peerTokenDomain))

def decodeOfferTicket (bytes : Bytes) : Except AckReason PortlTicket := do
  let ticket ← okOr (P.ticketFromBytes bytes) (.internalError (some "malformed offer"))
  (canonicalCheckTicket ticket).mapError fun _ => .internalError (some "non-canonical ticket")
  let reencoded ← okOr (P.ticketToStdvec ticket) (.internalError (some "malformed offer"))
  failIf (reencoded ≠ bytes) (.internalError (some "non-canonical ticket"))
  .ok ticket

/-! ## The agent's copy of the chain walk -/

structure VerifiedChain where
  caps : Capabilities
  rootIssuer : Bytes32

def checkOfferTicket (target : Bytes32) (ticket : PortlTicket) : Except AckReason Unit := do
  (canonicalCheckTicket ticket).mapError fun _ => .badSignature
  failIf (ticket.v ≠ 1) .badChain
  failIf (ticket.addr.id ≠ target) .badChain

def verifyHopWithoutTime (parent child : PortlTicket) : Except AckReason Unit := do
  let parentRef ← okOr child.body.parent .badChain
  let parentKey := resolvedIssuer parent
  (verifyBody P parentKey child.body child.sig).mapError fun _ => .badSignature
  failIf (resolvedIssuer child ≠ parentKey) .badChain
  failIf (parentRef.parentTicketId ≠ parentTicketId P parent.sig) .badChain
  failIf (isNarrowing parent.body.caps child.body.caps = false) .capsExceedParent
  failIf (child.body.notBefore < parent.body.notBefore ∨
    child.body.notAfter > parent.body.notAfter) .badChain
  let expected ← okOr (expectedDepth parent) .badChain
  failIf (parentRef.depthRemaining ≠ expected) .badChain

def verifyChainWithoutTime (terminal : PortlTicket) (chain : List PortlTicket)
    (roots : TrustRoots) : Except AckReason VerifiedChain :=
  match chain ++ [terminal] with
  | [] => .error .badChain
  | root :: rest => do
    failIf ((root :: rest).length > maxDelegationDepth.toNat + 1) .badChain
    forEach (checkOfferTicket root.addr.id) (root :: rest)
    failIf (root.body.parent.isSome = true) .badChain
    failIf (resolvedIssuer root ∉ roots) .badChain
    (verifyBody P (resolvedIssuer root) root.body root.sig).mapError fun _ => .badSignature
    walk (verifyHopWithoutTime P) root rest
    .ok { caps := terminal.body.caps, rootIssuer := resolvedIssuer root }

/-! ## The later passes -/

def checkValidityWindows (terminal : PortlTicket) (chain : List PortlTicket) (now : UInt64) :
    Option AckReason :=
  (chain ++ [terminal]).findSome? fun ticket =>
    if Word.saturatingAdd now clockSkewSecs < ticket.body.notBefore then some .notYetValid
    else if now ≥ ticket.body.notAfter then some .expired
    else none

def checkProof (terminal : PortlTicket) (offer : TicketOffer) : Option AckReason :=
  match terminal.body.holder with
  | none => none
  | some holder =>
    match offer.proof with
    | none => some .proofMissing
    | some proof =>
      match verifyPop P holder (ticketId P terminal.sig) offer.clientNonce proof with
      | .ok () => none
      | .error _ => some .proofInvalid

def checkMode (mode : AgentMode) (bearer : Option Bytes) : Option AckReason :=
  match mode, bearer.isSome with
  | .listener, true => some (.internalError (some "listener mode refuses master tickets"))
  | .gateway .., false => some (.internalError (some "gateway mode requires a master ticket"))
  | _, _ => none

def acceptOffer (input : AcceptanceInput) : Except AckReason Accepted := do
  failIf (input.rateLimit input.sourceId = false) .rateLimited
  let terminal ← decodeOfferTicket P input.offer.ticket
  let chain ← collect (decodeOfferTicket P) input.offer.chain
  let verified ← verifyChainWithoutTime P terminal chain input.trustRoots
  -- revocation comes before the clock: a revoked ticket is never called expired
  failIf ((chain ++ [terminal]).any fun ticket =>
    input.revocations.contains (ticketId P ticket.sig)) .revoked
  failSome (checkValidityWindows terminal chain input.now)
  failSome (checkProof P terminal input.offer)
  failSome (checkMode input.mode terminal.body.bearer)
  .ok
    { peerToken := derivePeerToken P input.sourceId (ticketId P terminal.sig)
      caps := verified.caps
      ticketId := ticketId P terminal.sig
      ticketChainIds := chain.map (fun ticket => ticketId P ticket.sig) ++
        [ticketId P terminal.sig]
      ticketIssuerId := verified.rootIssuer
      ticketHolderId := terminal.body.holder
      bearer := terminal.body.bearer }

def evaluateOffer (input : AcceptanceInput) : AcceptanceOutcome :=
  match acceptOffer P input with
  | .ok session => .accepted session
  | .error reason => .rejected reason

/-! ## What each pass says -/

variable {P} {ticket terminal : PortlTicket} {chain : List PortlTicket} {input : AcceptanceInput}
  {session : Accepted} {bytes : Bytes}

theorem decodeOfferTicket_eq_ok :
    decodeOfferTicket P bytes = .ok ticket ↔
      P.ticketFromBytes bytes = some ticket ∧ canonicalCheckTicket ticket = .ok () ∧
        P.ticketToStdvec ticket = some bytes := by
  -- the third copy of the decoder, with reasons of its own
  have hcopy : decodeOfferTicket P bytes =
      decodeWith P (.internalError (some "malformed offer"))
        (fun _ => .internalError (some "non-canonical ticket"))
        (.internalError (some "non-canonical ticket")) bytes := rfl
  rw [hcopy, decodeWith_eq_ok]
  exact ⟨fun h => ⟨h.reads, h.canonical, h.writes⟩, fun ⟨hr, hc, hw⟩ => ⟨hr, hc, hw⟩⟩

theorem decodeOfferTicket_iff_wireForm :
    decodeOfferTicket P bytes = .ok ticket ↔ WireForm P bytes ticket := by
  rw [decodeOfferTicket_eq_ok]
  exact ⟨fun ⟨hr, hc, hw⟩ => ⟨hr, hc, hw⟩, fun h => ⟨h.reads, h.canonical, h.writes⟩⟩

/-- **Ticket bytes are not malleable, and the three decoders agree.** Decoding
and encoding are inverse to each other on what they accept, no two byte strings
decode to one ticket, and the codec, the `Ticket` trait and the agent accept the
same bytes as the same ticket. -/
theorem decode_encode_inverse (hP : P.PostcardRoundTrips) :
    (∀ bytes ticket, decode P bytes = .ok ticket → encode P ticket = .ok bytes) ∧
    (∀ bytes bytes' ticket, decode P bytes = .ok ticket → decode P bytes' = .ok ticket →
      bytes = bytes') ∧
    (∀ bytes ticket, encode P ticket = .ok bytes → decode P bytes = .ok ticket) ∧
    (∀ bytes ticket, decode P bytes = .ok ticket ↔ decodeBytes P bytes = .ok ticket) ∧
    (∀ bytes ticket, decode P bytes = .ok ticket ↔ decodeOfferTicket P bytes = .ok ticket) := by
  refine ⟨?_, ?_, ?_, ?_, ?_⟩
  · intro bytes ticket h
    exact (decode_eq_ok.mp h).encode_eq
  · intro bytes bytes' ticket h h'
    exact (decode_eq_ok.mp h).unique (decode_eq_ok.mp h')
  · intro bytes ticket h
    exact decode_eq_ok.mpr (wireForm_of_encode hP h)
  · intro bytes ticket
    rw [decode_eq_ok, decodeBytes_eq_ok]
  · intro bytes ticket
    rw [decode_eq_ok, decodeOfferTicket_iff_wireForm]

/-- A codec that writes one ticket as `[0]` and reads `[0, 0]` as the same ticket
as well. -/
def laxPrimitives (known : PortlTicket) : Primitives :=
  { Primitives.transparent [] with
    ticketToStdvec := fun ticket => if ticket = known then some [0] else none
    ticketFromBytes := fun bytes => if bytes = [0] ∨ bytes = [0, 0] then some known else none }

theorem laxPrimitives_roundTrips (known : PortlTicket) :
    (laxPrimitives known).PostcardRoundTrips := by
  intro ticket bytes h
  by_cases hknown : ticket = known
  · simp only [laxPrimitives, if_pos hknown, Option.some.injEq] at h
    simp [laxPrimitives, ← h, hknown]
  · simp only [laxPrimitives, if_neg hknown] at h
    cases h

/-- With such a codec the second reading is turned away and the first is the
only one left. -/
theorem decode_encode_inverse_lax :
    (laxPrimitives sampleRoot).PostcardRoundTrips ∧
    decode (laxPrimitives sampleRoot) [0] = .ok sampleRoot ∧
    (laxPrimitives sampleRoot).ticketFromBytes [0, 0] = some sampleRoot ∧
    decode (laxPrimitives sampleRoot) [0, 0] = .error (.canonical "re-encode mismatch") ∧
    encode (laxPrimitives sampleRoot) sampleRoot = .ok [0] := by
  have hP := laxPrimitives_roundTrips sampleRoot
  have hdec : decode (laxPrimitives sampleRoot) [0] = .ok sampleRoot := by decide +kernel
  exact ⟨hP, hdec, by decide +kernel, by decide +kernel,
    (decode_encode_inverse hP).1 [0] sampleRoot hdec⟩

theorem checkOfferTicket_eq_ok {target : Bytes32} :
    checkOfferTicket target ticket = .ok () ↔ TicketShape target ticket := by
  simp only [checkOfferTicket, bind_eq_ok, mapError_eq_ok, failIf_eq_ok, exists_unit_ok,
    exists_const, ne_eq, not_not]
  constructor
  · rintro ⟨hcan, hv, hid⟩
    exact ⟨hcan, hv, hid⟩
  · rintro ⟨hcan, hv, hid⟩
    exact ⟨hcan, hv, hid⟩

theorem verifyHopWithoutTime_eq_ok {parent child : PortlTicket} :
    verifyHopWithoutTime P parent child = .ok () ↔ HopLinked P parent child := by
  simp only [verifyHopWithoutTime, bind_eq_ok, okOr_eq_ok, mapError_eq_ok, exists_unit_ok,
    failIf_eq_ok, exists_const, verifyBody_eq_ok, ne_eq, not_not, Bool.not_eq_false, not_or]
  constructor
  · rintro ⟨d, hd, hsig, hiss, hpid, hcaps, ⟨hnb, hna⟩, depth, hdepth, rfl⟩
    exact ⟨⟨d, hd, hpid, hdepth⟩, hsig, hiss, hcaps, UInt64.not_lt.mp hnb,
      UInt64.not_lt.mp hna⟩
  · rintro ⟨⟨d, hd, hpid, hdepth⟩, hsig, hiss, hcaps, hnb, hna⟩
    exact ⟨d, hd, hsig, hiss, hpid, hcaps, ⟨UInt64.not_lt.mpr hnb, UInt64.not_lt.mpr hna⟩,
      d.depthRemaining, hdepth, rfl⟩

theorem verifyChainWithoutTime_eq_ok {roots : TrustRoots} {verified : VerifiedChain} :
    verifyChainWithoutTime P terminal chain roots = .ok verified ↔
      ∃ root rest, chain ++ [terminal] = root :: rest ∧ ChainShape P roots root rest ∧
        verified = ⟨terminal.body.caps, resolvedIssuer root⟩ := by
  unfold verifyChainWithoutTime
  split
  · rename_i hnil
    simp at hnil
  rename_i root rest hcons
  simp only [bind_eq_ok, exists_unit_ok, failIf_eq_ok, exists_const, forEach_eq_ok,
    checkOfferTicket_eq_ok, mapError_eq_ok, verifyBody_eq_ok, walk_eq_ok,
    verifyHopWithoutTime_eq_ok, not_not, Bool.not_eq_true, Option.isSome_eq_false_iff,
    Option.isNone_iff_eq_none]
  constructor
  · rintro ⟨hlen, htickets, hparent, htrust, hsig, hhops, hok⟩
    exact ⟨root, rest, hcons,
      ⟨Nat.not_lt.mp hlen, htickets, hparent, htrust, hsig, hhops⟩, (Except.ok.inj hok).symm⟩
  · rintro ⟨root', rest', heq, hshape, rfl⟩
    obtain ⟨rfl, rfl⟩ := List.cons.inj (hcons.symm.trans heq)
    exact ⟨Nat.not_lt.mpr hshape.length_le, hshape.tickets, hshape.root_parent,
      hshape.root_trusted, hshape.root_signed, hshape.hops, rfl⟩

theorem checkValidityWindows_eq_none {now : UInt64} :
    checkValidityWindows terminal chain now = none ↔
      ∀ t ∈ chain ++ [terminal], InWindow now t := by
  rw [checkValidityWindows, List.findSome?_eq_none_iff]
  have hone : ∀ t : PortlTicket,
      (if Word.saturatingAdd now clockSkewSecs < t.body.notBefore then some AckReason.notYetValid
        else if now ≥ t.body.notAfter then some AckReason.expired else none) = none ↔
        InWindow now t := by
    intro t
    rw [← checkTimeWindow_eq_ok, checkTimeWindow]
    simp only [bind_eq_ok, failIf_eq_ok, exists_const, clockSkewSecs]
    by_cases hnb : Word.saturatingAdd now 60 < t.body.notBefore
    · simp [hnb]
    · simp only [hnb, if_false, not_false_eq_true, true_and]
      by_cases hna : now ≥ t.body.notAfter <;> simp [hna]
  simp only [hone]

theorem checkProof_eq_none {offer : TicketOffer} :
    checkProof P terminal offer = none ↔
      ∀ holder, terminal.body.holder = some holder → ∃ proof, offer.proof = some proof ∧
        verifyPop P holder (ticketId P terminal.sig) offer.clientNonce proof = .ok () := by
  unfold checkProof
  cases terminal.body.holder with
  | none => simp
  | some holder =>
    cases offer.proof with
    | none => simp
    | some proof =>
      cases hpop : verifyPop P holder (ticketId P terminal.sig) offer.clientNonce proof with
      | error | ok => simp [hpop]

theorem checkMode_eq_none {mode : AgentMode} {bearer : Option Bytes} :
    checkMode mode bearer = none ↔ (bearer.isSome = true ↔ mode.isGateway = true) := by
  cases mode <;> cases bearer <;> simp [checkMode, AgentMode.isGateway]

/-! ## The pipeline as a whole -/

/-- All that stands between an offer and a session, for the tickets it decodes
to. -/
structure OfferConditions (P : Primitives) (input : AcceptanceInput) (terminal : PortlTicket)
    (chain : List PortlTicket) (root : PortlTicket) : Prop where
  rate : input.rateLimit input.sourceId = true
  terminal_decoded : decodeOfferTicket P input.offer.ticket = .ok terminal
  chain_decoded : List.Forall₂ (fun bytes ticket => decodeOfferTicket P bytes = .ok ticket)
    input.offer.chain chain
  shape : ∃ rest, chain ++ [terminal] = root :: rest ∧ ChainShape P input.trustRoots root rest
  unrevoked : ∀ t ∈ chain ++ [terminal], ticketId P t.sig ∉ input.revocations.ids
  windows : ∀ t ∈ chain ++ [terminal],
    t.body.notBefore.toNat ≤ input.now.toNat + 60 ∧ input.now < t.body.notAfter
  possession : ∀ holder, terminal.body.holder = some holder → ∃ proof,
    input.offer.proof = some proof ∧
      verifyPop P holder (ticketId P terminal.sig) input.offer.clientNonce proof = .ok ()
  mode : terminal.body.bearer.isSome = true ↔ input.mode.isGateway = true

def sessionFor (P : Primitives) (input : AcceptanceInput) (terminal : PortlTicket)
    (chain : List PortlTicket) (root : PortlTicket) : Accepted :=
  { peerToken := derivePeerToken P input.sourceId (ticketId P terminal.sig)
    caps := terminal.body.caps
    ticketId := ticketId P terminal.sig
    ticketChainIds := (chain ++ [terminal]).map fun ticket => ticketId P ticket.sig
    ticketIssuerId := resolvedIssuer root
    ticketHolderId := terminal.body.holder
    bearer := terminal.body.bearer }

theorem acceptOffer_eq_ok :
    acceptOffer P input = .ok session ↔
      ∃ terminal chain root, OfferConditions P input terminal chain root ∧
        session = sessionFor P input terminal chain root := by
  simp only [acceptOffer, bind_eq_ok, failIf_eq_ok, exists_const, collect_eq_ok,
    verifyChainWithoutTime_eq_ok, failSome_eq_ok, checkValidityWindows_eq_none,
    checkProof_eq_none, checkMode_eq_none, Bool.not_eq_false, any_eq_true,
    RevocationSet.contains, decide_eq_true_eq, not_exists, not_and]
  constructor
  · rintro ⟨hrate, terminal, hterm, chain, hchain, verified, ⟨root, rest, heq, hshape, rfl⟩,
      hrev, hwin, hproof, hmode, hok⟩
    refine ⟨terminal, chain, root,
      ⟨hrate, hterm, hchain, ⟨rest, heq, hshape⟩, hrev, hwin, hproof, hmode⟩, ?_⟩
    rw [← Except.ok.inj hok, sessionFor, map_append, map_singleton]
  · rintro ⟨terminal, chain, root, h, rfl⟩
    obtain ⟨rest, heq, hshape⟩ := h.shape
    refine ⟨h.rate, terminal, h.terminal_decoded, chain, h.chain_decoded, _,
      ⟨root, rest, heq, hshape, rfl⟩, h.unrevoked, h.windows, h.possession, h.mode, ?_⟩
    rw [sessionFor, map_append, map_singleton]

theorem evaluateOffer_eq_accepted :
    evaluateOffer P input = .accepted session ↔ acceptOffer P input = .ok session := by
  unfold evaluateOffer
  cases acceptOffer P input <;> simp

theorem evaluateOffer_rejected_of_not_accepted
    (h : ∀ session, evaluateOffer P input ≠ .accepted session) :
    ∃ reason, evaluateOffer P input = .rejected reason := by
  cases hout : evaluateOffer P input with
  | accepted session => exact absurd hout (h session)
  | rejected reason => exact ⟨reason, rfl⟩

/-- **Acceptance, exactly.** An offer is accepted, as the session `session`,
if and only if its tickets decode and meet every condition; everything else is
rejected. -/
theorem evaluateOffer_accepted_iff (input : AcceptanceInput) :
    (∀ session, evaluateOffer P input = .accepted session ↔
      ∃ terminal chain root, OfferConditions P input terminal chain root ∧
        session = sessionFor P input terminal chain root) ∧
    ((¬ ∃ terminal chain root, OfferConditions P input terminal chain root) →
      ∃ reason, evaluateOffer P input = .rejected reason) := by
  have hiff : ∀ session, evaluateOffer P input = .accepted session ↔
      ∃ terminal chain root, OfferConditions P input terminal chain root ∧
        session = sessionFor P input terminal chain root :=
    fun session => evaluateOffer_eq_accepted.trans acceptOffer_eq_ok
  refine ⟨hiff, fun hnone => evaluateOffer_rejected_of_not_accepted fun session hacc => hnone ?_⟩
  obtain ⟨terminal, chain, root, h, -⟩ := (hiff session).mp hacc
  exact ⟨terminal, chain, root, h⟩

/-! ## Against the core verifier -/

theorem conditions_of_accepted (h : evaluateOffer P input = .accepted session)
    (hterm : decodeOfferTicket P input.offer.ticket = .ok terminal)
    (hchain : collect (decodeOfferTicket P) input.offer.chain = .ok chain) :
    ∃ root, OfferConditions P input terminal chain root ∧
      session = sessionFor P input terminal chain root := by
  obtain ⟨terminal', chain', root, hcond, hsession⟩ :=
    acceptOffer_eq_ok.mp (evaluateOffer_eq_accepted.mp h)
  -- decoding is a function, so both sides speak of the same tickets
  obtain rfl : terminal' = terminal :=
    Except.ok.inj (hcond.terminal_decoded.symm.trans hterm)
  obtain rfl : chain' = chain :=
    Except.ok.inj ((collect_eq_ok.mpr hcond.chain_decoded).symm.trans hchain)
  exact ⟨root, hcond, hsession⟩

/-- **Where the agent's copy and the core verifier part.** An offer the agent
accepts passes `verify_chain` and `validate_ticket_proof` exactly when its
chain hands the bearer down unchanged and no proof comes with an unbound
ticket. -/
theorem evaluateOffer_core_iff {input : AcceptanceInput} {session : Accepted}
    {terminal : PortlTicket} {chain : List PortlTicket}
    (h : evaluateOffer P input = .accepted session)
    (hterm : decodeOfferTicket P input.offer.ticket = .ok terminal)
    (hchain : collect (decodeOfferTicket P) input.offer.chain = .ok chain) :
    (verifyChain P terminal chain input.trustRoots input.now = .ok session.caps ∧
      validateTicketProof P terminal input.offer.clientNonce input.offer.proof = .ok ()) ↔
      BearerInherited (chain ++ [terminal]) ∧
        (terminal.body.holder = none → input.offer.proof = none) := by
  obtain ⟨root, hcond, rfl⟩ := conditions_of_accepted h hterm hchain
  obtain ⟨rest, heq, hshape⟩ := hcond.shape
  rw [verifyChain_eq_ok, validateTicketProof_eq_ok]
  constructor
  · rintro ⟨⟨root', rest', heq', -, -, hbearer, -⟩, hproof, -⟩
    rw [heq']
    exact ⟨hbearer, hproof⟩
  · rintro ⟨hbearer, hproof⟩
    have hwindows := hcond.windows
    rw [heq] at hbearer hwindows
    exact ⟨⟨root, rest, heq, hshape, hwindows, hbearer, rfl⟩, hproof, hcond.possession⟩

/-! ### Sample offers -/

def emptyRevocations : RevocationSet :=
  { ids := ∅, records := [], liveSessions := ∅, maxBytes := defaultRevocationsMaxBytes }

def emptyStore : Store := { set := emptyRevocations, disk := none, cancelled := ∅ }

/-- Wire bytes `[i]` stand for the ticket at position `i`. -/
def sampleTable : List PortlTicket := [sampleRoot, sampleChild none, sampleChild (some [7])]

def sampleInput (terminal : UInt8) (chain : List UInt8) (proof : Option Bytes64)
    (mode : AgentMode) (revocations : RevocationSet) : AcceptanceInput :=
  { offer :=
      { ticket := [terminal], chain := chain.map fun i => [i], proof := proof,
        clientNonce := Vector.replicate 16 4 }
    sourceId := sampleKey 3, trustRoots := {sampleKey 1}, revocations := revocations,
    now := 150, rateLimit := fun _ => true, mode := mode }

theorem evaluateOffer_core_plain :
    let P := Primitives.transparent sampleTable
    let input := sampleInput 1 [0] none .listener emptyRevocations
    (∃ session, evaluateOffer P input = .accepted session) ∧
      verifyChain P (sampleChild none) [sampleRoot] input.trustRoots input.now =
        .ok sampleCaps := by
  intro P input
  have h : evaluateOffer P input =
      .accepted (sessionFor P input (sampleChild none) [sampleRoot] sampleRoot) := by
    decide +kernel
  have hterm : decodeOfferTicket P input.offer.ticket = .ok (sampleChild none) := by
    decide +kernel
  have hchain : collect (decodeOfferTicket P) input.offer.chain = .ok [sampleRoot] := by
    decide +kernel
  have hbearer : BearerInherited ([sampleRoot] ++ [sampleChild none]) := by
    simp [BearerInherited, sampleChild, sampleRoot, sampleTicket]
  exact ⟨⟨_, h⟩, ((evaluateOffer_core_iff h hterm hchain).mpr ⟨hbearer, fun _ => rfl⟩).1⟩

/-- A gateway takes a delegated ticket that brings its own bearer, and a
listener takes a proof with a ticket that is bound to nobody; the core verifier
takes neither. -/
theorem evaluateOffer_not_core :
    let P := Primitives.transparent sampleTable
    let gateway := sampleInput 2 [0] none (.gateway "https://api" "api" 443) emptyRevocations
    let listener := sampleInput 0 [] (some (Vector.replicate 64 0)) .listener emptyRevocations
    evaluateOffer P gateway =
      .accepted (sessionFor P gateway (sampleChild (some [7])) [sampleRoot] sampleRoot) ∧
    verifyChain P (sampleChild (some [7])) [sampleRoot] gateway.trustRoots gateway.now =
      .error (.chain "child introduces bearer not present in parent") ∧
    evaluateOffer P listener = .accepted (sessionFor P listener sampleRoot [] sampleRoot) ∧
    validateTicketProof P sampleRoot listener.offer.clientNonce listener.offer.proof =
      .error (.ticket "proof not expected for bearer ticket") := by
  refine ⟨?_, ?_, ?_, ?_⟩ <;> decide +kernel

/-! ## Whose ticket it is -/

/-- The part of `AgentState` the ticket handler reads, with the agent's own
endpoint id. -/
structure AgentState where
  selfEndpointId : Bytes32
  trustRoots : TrustRoots
  revocations : RevocationSet
  rateLimit : Bytes32 → Bool
  mode : AgentMode

/-- The call of `evaluate_offer` in the ticket handler. -/
def AgentState.evaluate (P : Primitives) (state : AgentState) (offer : TicketOffer)
    (sourceId : Bytes32) (now : UInt64) : AcceptanceOutcome :=
  evaluateOffer P
    { offer := offer, sourceId := sourceId, trustRoots := state.trustRoots,
      revocations := state.revocations, now := now, rateLimit := state.rateLimit,
      mode := state.mode }

/-- **One target per accepted offer, whichever agent it reaches.** All tickets
of an accepted offer name the same target, the one in their address; the
endpoint id of the agent plays no part. -/
theorem evaluate_common_target {state : AgentState} {offer : TicketOffer} {sourceId : Bytes32}
    {now : UInt64} {session : Accepted} {terminal : PortlTicket} {chain : List PortlTicket}
    (h : state.evaluate P offer sourceId now = .accepted session)
    (hterm : decodeOfferTicket P offer.ticket = .ok terminal)
    (hchain : collect (decodeOfferTicket P) offer.chain = .ok chain) :
    (∀ t ∈ chain ++ [terminal],
      t.body.target = terminal.body.target ∧ t.addr.id = terminal.body.target) ∧
    ∀ endpointId, ({ state with selfEndpointId := endpointId }).evaluate P offer sourceId now =
      .accepted session := by
  refine ⟨?_, fun _ => h⟩
  obtain ⟨root, hcond, -⟩ := conditions_of_accepted h hterm hchain
  obtain ⟨rest, heq, hshape⟩ := hcond.shape
  rw [heq]
  have hlast : terminal ∈ root :: rest := by
    rw [← heq]
    exact mem_append_right _ (mem_singleton_self _)
  intro t ht
  rw [hshape.target_eq t ht, hshape.target_eq terminal hlast]
  exact ⟨rfl, (hshape.tickets t ht).endpoint⟩

def agentTrusting (root endpointId : Bytes32) : AgentState :=
  { selfEndpointId := endpointId, trustRoots := {root},
    revocations := emptyRevocations, rateLimit := fun _ => true, mode := .listener }

def sampleGrandchild : PortlTicket :=
  sampleTicket (sampleKey 1) 3
    (some ⟨parentTicketId (.transparent []) (sampleChild none).sig, 6⟩) none

/-- Two tickets before the offered one, at an agent that none of them names. -/
theorem evaluate_common_target_delegated :
    let P := Primitives.transparent [sampleRoot, sampleChild none, sampleGrandchild]
    let state := agentTrusting (sampleKey 1) (sampleKey 2)
    let offer : TicketOffer := ⟨[2], [[0], [1]], none, Vector.replicate 16 4⟩
    ∃ session, state.evaluate P offer (sampleKey 3) 150 = .accepted session ∧
      ∀ t ∈ [sampleRoot, sampleChild none] ++ [sampleGrandchild],
        t.body.target = sampleGrandchild.body.target ∧
          t.addr.id = sampleGrandchild.body.target := by
  intro P state offer
  have h : state.evaluate P offer (sampleKey 3) 150 =
      .accepted (sessionFor P (sampleInput 2 [0, 1] none .listener emptyRevocations)
        sampleGrandchild [sampleRoot, sampleChild none] sampleRoot) := by
    decide +kernel
  have hterm : decodeOfferTicket P offer.ticket = .ok sampleGrandchild := by decide +kernel
  have hchain : collect (decodeOfferTicket P) offer.chain = .ok [sampleRoot, sampleChild none] := by
    decide +kernel
  exact ⟨_, h, (evaluate_common_target h hterm hchain).1⟩

def operatorTicket : PortlTicket :=
  let ticket := sampleTicket (sampleKey 1) 1 none none
  { ticket with
    body := { ticket.body with issuer := some (sampleKey 5) }
    sig := transparentSign (sampleKey 5) (List.replicate 8 1) }

/-- The agent with endpoint id 2 accepts the ticket made for the agent with
endpoint id 1. -/
theorem evaluate_foreign_target :
    let P := Primitives.transparent [operatorTicket]
    let state := agentTrusting (sampleKey 5) (sampleKey 2)
    let offer : TicketOffer := ⟨[0], [], none, Vector.replicate 16 4⟩
    (∃ session, state.evaluate P offer (sampleKey 3) 150 = .accepted session) ∧
    decodeOfferTicket P offer.ticket = .ok operatorTicket ∧
    operatorTicket.body.target ≠ state.selfEndpointId := by
  intro P state offer
  have h : state.evaluate P offer (sampleKey 3) 150 = .accepted (sessionFor P
      (sampleInput 0 [] none .listener emptyRevocations) operatorTicket [] operatorTicket) := by
    decide +kernel
  exact ⟨⟨_, h⟩, by decide +kernel, by decide +kernel⟩

end Portl
