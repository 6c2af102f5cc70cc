import Mathlib.Data.List.GetD
import Mathlib.Data.UInt
import Portl.Agent.Pipeline
import Portl.Lib.Run

/-!
# Tickets that are bound to a holder

A ticket with `to = Some(h)` is accepted only with a proof of possession: a
signature by `h` over the ticket's id and a nonce of the client's choosing. The
endpoint the offer comes from need not be `h`.

A world has the owners of keys, who sign, and a network in which anyone sends
any offer that can be put together from what was seen before. Two things are
asked of Ed25519: a signature that verifies under a key was made by its owner,
and the two uses of a key do not meet.
-/

namespace Portl

open Checks List

/-! ## The world -/

/-- What the owners of keys have signed, and what the agent has accepted. A proof
stands here with its key, its ticket id and its nonce, a body with its key and
its signing bytes. -/
structure HolderWorld where
  proofs : List (Bytes32 × Bytes16 × Bytes16)
  bodies : List (Bytes32 × Bytes)
  accepted : List (AcceptanceInput × Accepted)

inductive HolderStep (P : Primitives) where
  /-- `compute_pop_sig` by the owner of the key. -/
  | prove (sk : P.SigningKey) (ticketId clientNonce : Bytes16)
  /-- `sign_body` by the owner of the key. -/
  | signBody (sk : P.SigningKey) (body : PortlBody)
  /-- Somebody sends an offer. -/
  | offer (input : AcceptanceInput)

variable (P : Primitives)

def HolderWorld.step (w : HolderWorld) (step : HolderStep P) : HolderWorld :=
  match step with
  | .prove sk ticketId clientNonce =>
    { w with proofs := (P.verifyingKey sk, ticketId, clientNonce) :: w.proofs }
  | .signBody sk body =>
    match bodySigningBytes P body with
    | .ok bytes => { w with bodies := (P.verifyingKey sk, bytes) :: w.bodies }
    | .error _ => w
  | .offer input =>
    match evaluateOffer P input with
    | .accepted session => { w with accepted := (input, session) :: w.accepted }
    | .rejected _ => w

def HolderWorld.start : HolderWorld := ⟨[], [], []⟩

def HolderWorld.run (steps : List (HolderStep P)) (w : HolderWorld) : HolderWorld :=
  steps.foldl (HolderWorld.step P) w

/-! ## What is asked of the primitives -/

def HolderWorld.Signed (w : HolderWorld) (key : Bytes32) (bytes : Bytes) : Prop :=
  (∃ ticketId clientNonce, (key, ticketId, clientNonce) ∈ w.proofs ∧
    bytes = (popDigest P ticketId clientNonce).toList) ∨
  (key, bytes) ∈ w.bodies

/-- Unforgeability: what an offer carries as a proof is a signature that somebody
made, for every digest and key it verifies under. -/
def HolderStep.Unforged (w : HolderWorld) (step : HolderStep P) : Prop :=
  match step with
  | .offer input => ∀ proof, input.offer.proof = some proof → ∀ key (digest : Bytes32),
      P.verifyStrict key digest.toList proof = true → w.Signed P key digest.toList
  | _ => True

def Primitives.PopCollisionFree (P : Primitives) : Prop :=
  ∀ ticketId clientNonce ticketId' clientNonce',
    popDigest P ticketId clientNonce = popDigest P ticketId' clientNonce' →
      ticketId = ticketId' ∧ clientNonce = clientNonce'

def Primitives.BodiesNoDigests (P : Primitives) : Prop :=
  ∀ body bytes, P.bodyToStdvec body = some bytes → bytes.length ≠ 32

/-! ## Every bound offer goes back to its holder -/

/-- The session stands for a bound ticket whose holder proved possession for this
very offer. -/
def HolderWorld.Proved (w : HolderWorld) (input : AcceptanceInput) (session : Accepted) : Prop :=
  ∀ terminal holder, decodeOfferTicket P input.offer.ticket = .ok terminal →
    terminal.body.holder = some holder →
    session.ticketHolderId = some holder ∧
      (holder, ticketId P terminal.sig, input.offer.clientNonce) ∈ w.proofs

/-- The invariant: bodies are never as long as a digest, and accepted offers are
proved. -/
structure HolderWorld.Bound (w : HolderWorld) : Prop where
  bodies : ∀ key bytes, (key, bytes) ∈ w.bodies → bytes.length ≠ 32
  accepted : ∀ input session, (input, session) ∈ w.accepted → w.Proved P input session

variable {P}

theorem proofs_offer (w : HolderWorld) (input : AcceptanceInput) :
    (w.step P (.offer input)).proofs = w.proofs := by
  simp only [HolderWorld.step]
  cases evaluateOffer P input <;> rfl

variable {w : HolderWorld} {key : Bytes32}

theorem HolderWorld.Bound.proof_made (hw : w.Bound P) (hfree : P.PopCollisionFree)
    {input : AcceptanceInput} (hunforged : HolderStep.Unforged P w (.offer input))
    {holder : Bytes32} {id : Bytes16} {proof : Bytes64} (hproof : input.offer.proof = some proof)
    (hpop : verifyPop P holder id input.offer.clientNonce proof = .ok ()) :
    (holder, id, input.offer.clientNonce) ∈ w.proofs := by
  simp only [verifyPop, bind_eq_ok, failIf_eq_ok, Bool.not_eq_false] at hpop
  obtain ⟨-, -, hverify⟩ := hpop
  rcases hunforged proof hproof holder _ hverify with
    ⟨ticketId, clientNonce, hmade, hdigest⟩ | hbody
  · obtain ⟨rfl, rfl⟩ := hfree _ _ _ _ (Vector.toList_inj.mp hdigest)
    exact hmade
  · exact absurd (Vector.length_toList) (hw.bodies _ _ hbody)

theorem bound_step (hfree : P.PopCollisionFree) (hbodies : P.BodiesNoDigests) (w : HolderWorld)
    (step : HolderStep P) (hw : w.Bound P) (hunforged : step.Unforged P w) :
    (w.step P step).Bound P := by
  cases step with
  | prove sk id clientNonce =>
    refine ⟨hw.bodies, ?_⟩
    intro input session hmem terminal holder hterm hholder
    obtain ⟨hsession, hmade⟩ := hw.accepted input session hmem terminal holder hterm hholder
    exact ⟨hsession, mem_cons_of_mem _ hmade⟩
  | signBody sk body =>
    simp only [HolderWorld.step]
    cases hbytes : bodySigningBytes P body with
    | error err => exact hw
    | ok bytes =>
      refine ⟨?_, hw.accepted⟩
      intro key bytes' hmem
      rcases mem_cons.mp hmem with heq | hmem
      · cases heq
        exact hbodies body bytes (bodySigningBytes_eq_ok.mp hbytes).2
      · exact hw.bodies key bytes' hmem
  | offer input =>
    simp only [HolderWorld.step]
    cases hout : evaluateOffer P input with
    | rejected reason => exact hw
    | accepted session =>
      refine ⟨hw.bodies, ?_⟩
      intro input' session' hmem terminal holder hterm hholder
      rcases mem_cons.mp hmem with heq | hmem
      · cases heq
        obtain ⟨terminal', chain, root, hcond, rfl⟩ :=
          acceptOffer_eq_ok.mp (evaluateOffer_eq_accepted.mp hout)
        cases hcond.terminal_decoded.symm.trans hterm
        obtain ⟨proof, hproof, hpop⟩ := hcond.possession holder hholder
        exact ⟨hholder, hw.proof_made hfree hunforged hproof hpop⟩
      · exact hw.accepted input' session' hmem terminal holder hterm hholder

/-- **A bound ticket is accepted for its holder's proofs only.** In every run in
which no signature is forged, whoever sends what, an accepted offer for a ticket
with `to = h` carries a proof that the owner of `h` made for this ticket and this
nonce, and the session names `h`. -/
theorem holder_bound_offers_proved (hfree : P.PopCollisionFree) (hbodies : P.BodiesNoDigests)
    (steps : List (HolderStep P))
    (hunforged : Run.Guarded (HolderWorld.step P) (HolderStep.Unforged P) .start steps) :
    ∀ input session, (input, session) ∈ (HolderWorld.start.run P steps).accepted →
      ∀ terminal holder, decodeOfferTicket P input.offer.ticket = .ok terminal →
        terminal.body.holder = some holder →
        session.ticketHolderId = some holder ∧
          (holder, ticketId P terminal.sig, input.offer.clientNonce) ∈
            (HolderWorld.start.run P steps).proofs := by
  have hbound : (HolderWorld.start.run P steps).Bound P := by
    refine hunforged.invariant (bound_step hfree hbodies) ⟨?_, ?_⟩
    · exact fun _ _ hmem => absurd hmem not_mem_nil
    · exact fun _ _ hmem => absurd hmem not_mem_nil
  exact hbound.accepted

/-! ### An offer that is seen and sent again -/

theorem transparentSign_inj {key' digest digest' : Bytes32}
    (h : transparentSign key digest.toList = transparentSign key' digest'.toList) :
    key = key' ∧ digest = digest' := by
  have hbyte : ∀ i (hi : i < 64),
      (if hk : i < 32 then key[i] else digest.toList.getD (i - 32) 0) =
        if hk : i < 32 then key'[i] else digest'.toList.getD (i - 32) 0 := by
    intro i hi
    have hi' := congrArg (fun v : Bytes64 => v[i]) h
    simpa [transparentSign] using hi'
  constructor
  · ext i hi
    have hi' := hbyte i (by omega)
    rw [dif_pos hi, dif_pos hi] at hi'
    rw [hi']
  · ext i hi
    have hi' := hbyte (i + 32) (by omega)
    rw [dif_neg (by omega), dif_neg (by omega), Nat.add_sub_cancel] at hi'
    simp [hi] at hi'
    rw [hi']

theorem transparent_verifyStrict_iff {table : List PortlTicket} {bytes : Bytes} {sig : Bytes64} :
    (Primitives.transparent table).verifyStrict key bytes sig = true ↔
      sig = transparentSign key bytes := by
  unfold Primitives.transparent
  simp only [decide_eq_true_eq]

theorem transparent_bodiesNoDigests (table : List PortlTicket) :
    (Primitives.transparent table).BodiesNoDigests := by
  intro body bytes h
  cases h
  simp

theorem transparent_popCollisionFree (table : List PortlTicket) :
    (Primitives.transparent table).PopCollisionFree := by
  intro id nonce id' nonce' h
  have hdomain : popDomain.length = 19 := by decide +kernel
  have hbyte : ∀ i (hi : i < 32),
      (id.toList ++ nonce.toList).getD i 0 = (id'.toList ++ nonce'.toList).getD i 0 := by
    intro i hi
    have hi' := congrArg (fun v : Bytes32 => v[i]) h
    simp only [popDigest, Primitives.transparent, Vector.getElem_ofFn, length_append,
      Vector.length_toList, hdomain, append_assoc] at hi'
    have hbytes := (add_left_inj _).mp hi'
    rw [getD_append_right popDomain _ _ _ (by omega),
      getD_append_right popDomain _ _ _ (by omega), hdomain] at hbytes
    rwa [show 19 + (16 + 16) - 32 + i - 19 = i by omega] at hbytes
  have hlist : id.toList ++ nonce.toList = id'.toList ++ nonce'.toList := by
    refine ext_getElem (by simp) ?_
    intro i hi hi'
    have hi32 : i < 32 := by simpa using hi
    have hi'' := hbyte i hi32
    rwa [getD_eq_getElem _ _ hi, getD_eq_getElem _ _ hi'] at hi''
  obtain ⟨hid, hnonce⟩ := append_inj hlist (by simp)
  exact ⟨Vector.toList_inj.mp hid, Vector.toList_inj.mp hnonce⟩

def boundTicket : PortlTicket :=
  { sampleRoot with body.holder := some (sampleKey 9) }

def boundPrimitives : Primitives := .transparent [boundTicket]

/-- The holder's offer, as it is sent from the endpoint `source`. -/
def boundOffer (source : Bytes32) : AcceptanceInput :=
  { offer :=
      { ticket := [0], chain := [],
        proof := some (computePopSig boundPrimitives (sampleKey 9)
          (ticketId boundPrimitives boundTicket.sig) (Vector.replicate 16 4)),
        clientNonce := Vector.replicate 16 4 }
    sourceId := source, trustRoots := {sampleKey 1}, revocations := emptyRevocations,
    now := 150, rateLimit := fun _ => true, mode := .listener }

/-- The holder makes a proof and sends its offer from the endpoint 3; somebody who
saw it sends it again from the endpoint 4. -/
def replayRun : List (HolderStep boundPrimitives) :=
  [.prove (sampleKey 9) (ticketId boundPrimitives boundTicket.sig) (Vector.replicate 16 4),
    .offer (boundOffer (sampleKey 3)), .offer (boundOffer (sampleKey 4))]

theorem boundOffer_unforged (source : Bytes32)
    (h : (sampleKey 9, ticketId boundPrimitives boundTicket.sig, Vector.replicate 16 4) ∈
      w.proofs) : HolderStep.Unforged boundPrimitives w (.offer (boundOffer source)) := by
  intro proof hproof key digest hverify
  obtain rfl := Option.some.inj hproof
  have hsig : transparentSign (sampleKey 9)
      (popDigest boundPrimitives (ticketId boundPrimitives boundTicket.sig)
        (Vector.replicate 16 4)).toList = transparentSign key digest.toList :=
    transparent_verifyStrict_iff.mp hverify
  obtain ⟨hkey, hdigest⟩ := transparentSign_inj hsig
  refine Or.inl ⟨ticketId boundPrimitives boundTicket.sig, Vector.replicate 16 4, ?_, ?_⟩
  · rw [← hkey]
    exact h
  · rw [← hdigest]

theorem replayRun_unforged :
    Run.Guarded (HolderWorld.step boundPrimitives) (HolderStep.Unforged boundPrimitives) .start
      replayRun := by
  refine ⟨trivial, boundOffer_unforged _ mem_cons_self, boundOffer_unforged _ ?_, trivial⟩
  rw [proofs_offer]
  exact mem_cons_self

theorem replayRun_accepted :
    (HolderWorld.start.run boundPrimitives replayRun).accepted =
      [sampleKey 4, sampleKey 3].map fun source =>
        (boundOffer source,
          sessionFor boundPrimitives (boundOffer source) boundTicket [] boundTicket) := by
  have haccepted : ∀ source ∈ [sampleKey 4, sampleKey 3],
      evaluateOffer boundPrimitives (boundOffer source) =
        .accepted (sessionFor boundPrimitives (boundOffer source) boundTicket [] boundTicket) := by
    decide +kernel
  simp only [replayRun, HolderWorld.run, foldl_cons, foldl_nil, HolderWorld.step,
    haccepted (sampleKey 3) (by decide), haccepted (sampleKey 4) (by decide)]
  rfl

theorem holder_bound_offers_proved_replay :
    (sessionFor boundPrimitives (boundOffer (sampleKey 4)) boundTicket [] boundTicket).ticketHolderId =
        some (sampleKey 9) ∧
      (sampleKey 9, ticketId boundPrimitives boundTicket.sig, Vector.replicate 16 4) ∈
        (HolderWorld.start.run boundPrimitives replayRun).proofs := by
  have hmem : (boundOffer (sampleKey 4),
      sessionFor boundPrimitives (boundOffer (sampleKey 4)) boundTicket [] boundTicket) ∈
        (HolderWorld.start.run boundPrimitives replayRun).accepted := by
    rw [replayRun_accepted]
    exact mem_cons_self
  have hdecode : decodeOfferTicket boundPrimitives [0] = .ok boundTicket := by decide +kernel
  exact holder_bound_offers_proved (transparent_popCollisionFree _)
    (transparent_bodiesNoDigests _) replayRun replayRun_unforged _ _ hmem boundTicket (sampleKey 9)
    hdecode rfl

/-- The holder is the key 9; the accepted offers came from the endpoints 3 and 4,
the second with the ticket, the nonce and the proof of the first. -/
theorem holder_bound_offers_resent :
    Run.Guarded (HolderWorld.step boundPrimitives) (HolderStep.Unforged boundPrimitives) .start
        replayRun ∧
      boundTicket.body.holder = some (sampleKey 9) ∧
      (∀ source ∈ [sampleKey 4, sampleKey 3], source ≠ sampleKey 9 ∧
        ∃ session, (boundOffer source, session) ∈
          (HolderWorld.start.run boundPrimitives replayRun).accepted) ∧
      (boundOffer (sampleKey 4)).offer = (boundOffer (sampleKey 3)).offer := by
  refine ⟨replayRun_unforged, rfl, ?_, rfl⟩
  have hother : ∀ source ∈ [sampleKey 4, sampleKey 3], source ≠ sampleKey 9 := by decide
  intro source hsource
  refine ⟨hother source hsource,
    sessionFor boundPrimitives (boundOffer source) boundTicket [] boundTicket, ?_⟩
  rw [replayRun_accepted]
  exact mem_map_of_mem hsource

end Portl
