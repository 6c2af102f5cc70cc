import Portl.Lib.Run
import Portl.Caps.Enforce
import Portl.Agent.Pipeline

/-!
# Running streams and revocation

The agent between acceptances: connections that were accepted, the streams
opened on them (`ticket_handler.rs`, `shell_handler/mod.rs`,
`session_handler/mod.rs`) and the store whose revocations are meant to cut
them. Each action below is one critical section of the source.

Two things keep a revocation from reaching a stream. `register_live_session`
never looks at the set, so a shell opened on an old connection after its ticket
was revoked waits for a cancellation that has already happened. And
`serve_attach` registers nothing at all.
-/

namespace Portl

open Checks List

/-! ## Opening a stream -/

def alpnShellV1 : String := "portl/shell/v1"

def alpnSessionV1 : String := "portl/session/v1"

inductive SessionOp where
  | providers
  | list
  | attach
  | attachV2
  | run
  | history
  | kill
deriving DecidableEq

/-- `SessionReq`, without the fields that only choose and start a provider. -/
structure SessionReq where
  preamble : StreamPreamble
  op : SessionOp
  sessionName : Option String
  user : Option String
  cwd : Option String
deriving DecidableEq

/-- Why a control stream does not start: the handler's error, or the reason in
its acknowledgement. -/
inductive StartError where
  | bail (message : String)
  | shell (reason : ShellReason)
  | sessionCapDenied
  | missingSessionName
  | notAnAttach
deriving DecidableEq

def checkPreamble (session : Accepted) (alpn message : String) (preamble : StreamPreamble) :
    Except StartError Unit :=
  failIf (preamble.peerToken ≠ session.peerToken ∨ preamble.alpn ≠ alpn) (.bail message)

/-- `serve_control_stream` of the shell handler, up to the spawn. -/
def checkShellStart (session : Accepted) (req : ShellReq) : Except StartError Unit := do
  checkPreamble session alpnShellV1 "invalid shell preamble" req.preamble
  (shellPermits session.caps req).mapError .shell

/-- `session_permits`: an attach is judged as a shell with a terminal. -/
def sessionPermits (session : Accepted) (req : SessionReq) : Except StartError Unit :=
  let shellReq : ShellReq :=
    { preamble := ⟨session.peerToken, alpnShellV1⟩
      mode := .shell
      argv := none
      envPatch := []
      cwd := req.cwd
      pty := some ⟨"xterm-256color", 80, 24⟩
      user := req.user }
  (shellPermits session.caps shellReq).mapError fun _ => .sessionCapDenied

/-- `serve_control_stream` of the session handler, up to the choice of a
provider. The other operations answer and are done. -/
def checkAttachStart (session : Accepted) (req : SessionReq) : Except StartError Unit := do
  checkPreamble session alpnSessionV1 "invalid session preamble" req.preamble
  sessionPermits session req
  failIf (req.op ≠ .attach ∧ req.op ≠ .attachV2) .notAnAttach
  failIf (req.sessionName = none) .missingSessionName

/-! ## The running agent -/

/-- A running control stream with the chain ids of its connection. Only the
shell handler makes a cancellation token. -/
inductive Stream where
  | shell (sessionId : Bytes16) (ticketChainIds : List Bytes16) (token : Token)
  | attach (ticketChainIds : List Bytes16)
deriving DecidableEq

namespace Stream

def ticketChainIds : Stream → List Bytes16
  | shell _ ids _ => ids
  | attach ids => ids

def sessionId : Stream → Option Bytes16
  | shell sessionId _ _ => some sessionId
  | attach _ => none

def Cancelled (cancelled : Finset Token) : Stream → Prop
  | shell _ _ token => token ∈ cancelled
  | attach _ => False

instance (cancelled : Finset Token) : DecidablePred (Cancelled cancelled)
  | shell _ _ token => inferInstanceAs (Decidable (token ∈ cancelled))
  | attach _ => inferInstanceAs (Decidable False)

end Stream

structure RunningAgent where
  store : Store
  connections : List Accepted
  streams : List Stream
  nextToken : Token

/-- After `load_with_max_bytes`. -/
def RunningAgent.start (s : Store) : RunningAgent := ⟨s, [], [], 0⟩

/-- One action. A connection or stream is named by its position. What the
operating system decides is part of the action: whether a shell is spawned, and
then under which random session id, and whether a provider takes the attach. -/
inductive AgentStep where
  | accept (input : AcceptanceInput)
  | disconnect (connection : ℕ)
  | shellStart (connection : ℕ) (req : ShellReq) (spawned : Option Bytes16)
  | attachStart (connection : ℕ) (req : SessionReq) (attached : Bool)
  | streamEnd (stream : ℕ)
  | store (op : StoreOp)

namespace RunningAgent

def accept (P : Primitives) (input : AcceptanceInput) (a : RunningAgent) : RunningAgent :=
  match evaluateOffer P { input with revocations := a.store.set } with
  | .accepted session => { a with connections := a.connections ++ [session] }
  | .rejected _ => a

def shellStart (connection : ℕ) (req : ShellReq) (spawned : Option Bytes16)
    (a : RunningAgent) : RunningAgent :=
  match a.connections[connection]?, spawned with
  | some session, some sessionId =>
    if checkShellStart session req = .ok () then
      -- the token is registered whether or not an id of the chain is revoked
      { a with
        store := a.store.registerLiveSession sessionId session.ticketChainIds a.nextToken
        streams := .shell sessionId session.ticketChainIds a.nextToken :: a.streams
        nextToken := a.nextToken + 1 }
    else a
  | _, _ => a

def attachStart (connection : ℕ) (req : SessionReq) (attached : Bool) (a : RunningAgent) :
    RunningAgent :=
  match a.connections[connection]? with
  | none => a
  | some session =>
    if attached = true ∧ checkAttachStart session req = .ok () then
      { a with streams := .attach session.ticketChainIds :: a.streams }
    else a

/-- A stream ends; `ShellSessionGuard` deregisters a shell. -/
def streamEnd (stream : ℕ) (a : RunningAgent) : RunningAgent :=
  match a.streams[stream]? with
  | none => a
  | some (.attach _) => { a with streams := a.streams.eraseIdx stream }
  | some (.shell sessionId ticketChainIds _) =>
    { a with
      store := a.store.deregisterLiveSession sessionId ticketChainIds
      streams := a.streams.eraseIdx stream }

def Cut (a : RunningAgent) : Prop :=
  ∀ id ∈ a.store.set.ids, ∀ stream ∈ a.streams, id ∈ stream.ticketChainIds →
    stream.Cancelled a.store.cancelled

instance (a : RunningAgent) : Decidable a.Cut :=
  Finset.decidableDforallFinset

end RunningAgent

def AgentStep.apply (P : Primitives) (J : JsonCodec) (a : RunningAgent) (step : AgentStep) :
    RunningAgent :=
  match step with
  | .accept input => a.accept P input
  | .disconnect connection => { a with connections := a.connections.eraseIdx connection }
  | .shellStart connection req spawned => a.shellStart connection req spawned
  | .attachStart connection req attached => a.attachStart connection req attached
  | .streamEnd stream => a.streamEnd stream
  | .store op => { a with store := op.apply J a.store }

def RunningAgent.run (P : Primitives) (J : JsonCodec) (steps : List AgentStep)
    (a : RunningAgent) : RunningAgent :=
  steps.foldl (AgentStep.apply P J) a

/-! ## Away from the two gaps -/

def Avoids (chain : List Bytes16) (ids : Finset Bytes16) : Prop := ∀ id ∈ chain, id ∉ ids

/-- The action avoids both gaps: a stream that passes its tests is opened on a
connection none of whose tickets is revoked, and no running attach is backed by
a ticket that a batch or the file names. The random id of a new shell is not in
use. -/
def AgentStep.Clear (J : JsonCodec) (a : RunningAgent) (step : AgentStep) : Prop :=
  match step with
  | .shellStart connection req (some sessionId) =>
    (∀ session ∈ a.connections[connection]?,
      checkShellStart session req = .ok () →
        Avoids session.ticketChainIds a.store.set.ids) ∧
    ∀ stream ∈ a.streams, stream.sessionId ≠ some sessionId
  | .attachStart connection req true =>
    ∀ session ∈ a.connections[connection]?,
      checkAttachStart session req = .ok () →
        Avoids session.ticketChainIds a.store.set.ids
  | .store op =>
    ∀ stream ∈ a.streams, stream.sessionId = none →
      Avoids stream.ticketChainIds (op.named J a.store)
  | _ => True

instance (chain : List Bytes16) (ids : Finset Bytes16) : Decidable (Avoids chain ids) :=
  List.decidableBAll _ _

instance (J : JsonCodec) (a : RunningAgent) (step : AgentStep) : Decidable (step.Clear J a) := by
  unfold AgentStep.Clear
  split <;> infer_instance

/-! ## The invariant -/

/-- What holds of the store and the running streams together: the index has
every running shell under each of its chain ids, so that revoking one of them
finds the shell's token. -/
structure Sound (s : Store) (streams : List Stream) : Prop where
  ids : s.set.ids = idsOf s.set.records
  registered : ∀ {sessionId chain token}, Stream.shell sessionId chain token ∈ streams →
    ∀ id ∈ chain, s.set.liveSessions.tokenOf id sessionId = some token
  distinct : (streams.filterMap Stream.sessionId).Nodup
  cut : ∀ id ∈ s.set.ids, ∀ stream ∈ streams, id ∈ stream.ticketChainIds →
    stream.Cancelled s.cancelled

variable {P : Primitives} {J : JsonCodec} {s : Store} {streams : List Stream}
  {chain : List Bytes16} {token : Token} {session : Accepted} {i : ℕ} {sessionId : Bytes16}

theorem mem_sessionIds (h : Stream.shell sessionId chain token ∈ streams) :
    sessionId ∈ streams.filterMap Stream.sessionId :=
  mem_filterMap.mpr ⟨_, h, rfl⟩

variable (h : Sound s streams) {stream : Stream}
include h

theorem cut_cons (hclear : Avoids stream.ticketChainIds s.set.ids) :
    ∀ id ∈ s.set.ids, ∀ other ∈ stream :: streams, id ∈ other.ticketChainIds →
      other.Cancelled s.cancelled := by
  intro id hid other hmem hchain
  rcases mem_cons.mp hmem with rfl | hold
  · exact absurd hid (hclear id hchain)
  · exact h.cut id hid other hold hchain

/-- A shell that starts unrevoked under an unused session id. It takes over nobody's
entry in the index. -/
theorem sound_shellStart (hclear : Avoids session.ticketChainIds s.set.ids)
    (hfresh : ∀ stream ∈ streams, stream.sessionId ≠ some sessionId) (token : Token) :
    Sound (s.registerLiveSession sessionId session.ticketChainIds token)
      (.shell sessionId session.ticketChainIds token :: streams) where
  ids := h.ids
  registered := by
    intro other chain otherToken hmem id hid
    show (s.set.liveSessions.register _ _ _).tokenOf id other = _
    rw [LiveSessions.tokenOf_register]
    rcases mem_cons.mp hmem with heq | hold
    · obtain ⟨rfl, rfl, rfl⟩ := Stream.shell.inj heq
      rw [if_pos ⟨hid, rfl⟩]
    · have hne : other ≠ sessionId := by
        rintro rfl
        exact hfresh _ hold rfl
      rw [if_neg fun hboth => hne hboth.2]
      exact h.registered hold id hid
  distinct := by
    show (sessionId :: streams.filterMap Stream.sessionId).Nodup
    refine nodup_cons.mpr ⟨?_, h.distinct⟩
    intro hmem
    obtain ⟨stream, hstream, hid⟩ := mem_filterMap.mp hmem
    exact hfresh stream hstream hid
  cut := cut_cons h hclear

theorem sound_attachStart (hclear : Avoids session.ticketChainIds s.set.ids) :
    Sound s (.attach session.ticketChainIds :: streams) where
  ids := h.ids
  registered := by
    intro sessionId chain token hmem
    rcases mem_cons.mp hmem with heq | hold
    · cases heq
    · exact h.registered hold
  distinct := h.distinct
  cut := cut_cons h hclear

theorem Sound.eraseIdx (i : ℕ) : Sound s (streams.eraseIdx i) where
  ids := h.ids
  registered hmem := h.registered (mem_of_mem_eraseIdx hmem)
  distinct := h.distinct.sublist ((eraseIdx_sublist streams i).filterMap _)
  cut id hid stream hmem := h.cut id hid stream (mem_of_mem_eraseIdx hmem)

omit h

theorem sessionId_notMem_eraseIdx (hdistinct : (streams.filterMap Stream.sessionId).Nodup)
    (hget : streams[i]? = some stream) (hid : stream.sessionId = some sessionId) :
    sessionId ∉ (streams.eraseIdx i).filterMap Stream.sessionId := by
  -- up to order the list is the stream at that position and the rest
  obtain ⟨hi, rfl⟩ := List.getElem?_eq_some_iff.mp hget
  have hperm := (getElem_cons_eraseIdx_perm hi).filterMap Stream.sessionId
  rw [filterMap_cons_some hid] at hperm
  exact (nodup_cons.mp (hperm.nodup_iff.mpr hdistinct)).1

theorem sound_shellEnd (h : Sound s streams)
    (hget : streams[i]? = some (.shell sessionId chain token)) :
    Sound (s.deregisterLiveSession sessionId chain) (streams.eraseIdx i) where
  ids := h.ids
  registered := by
    intro other otherChain otherToken hmem id hid
    have hne : other ≠ sessionId := by
      rintro rfl
      exact sessionId_notMem_eraseIdx h.distinct hget rfl (mem_sessionIds hmem)
    show (s.set.liveSessions.deregister _ _).tokenOf id other = _
    rw [LiveSessions.tokenOf_deregister, if_neg fun hboth => hne hboth.2]
    exact (h.eraseIdx i).registered hmem id hid
  distinct := (h.eraseIdx i).distinct
  cut := (h.eraseIdx i).cut

theorem Stream.Cancelled.mono {cancelled cancelled' : Finset Token} (hsub : cancelled ⊆ cancelled')
    (h : stream.Cancelled cancelled) : stream.Cancelled cancelled' := by
  cases stream with
  | shell sessionId chain token => exact hsub h
  | attach chain => exact h

/-- A store operation that names no ticket behind a running attach. Each id it
adds has had the tokens under it cancelled, and a running shell's token is
under all of its ids. -/
theorem sound_store (h : Sound s streams) {op : StoreOp}
    (hclear : ∀ stream ∈ streams, stream.sessionId = none →
      Avoids stream.ticketChainIds (op.named J s)) :
    Sound (op.apply J s) streams := by
  have heff := op.effect (J := J) h.ids
  refine ⟨heff.ids, ?_, h.distinct, ?_⟩
  · intro sessionId chain token hmem id hid
    rw [heff.live]
    exact h.registered hmem id hid
  · intro id hid stream hmem hchain
    rcases heff.added id hid with hold | ⟨hnamed, hcancelled⟩
    · exact (h.cut id hold stream hmem hchain).mono heff.cancelled
    · cases stream with
      | attach chain => exact absurd hnamed (hclear _ hmem rfl id hchain)
      | shell sessionId chain token =>
        -- the index had the shell under this id when its tokens were cancelled
        have htoken : token ∈ s.set.liveSessions.tokens id :=
          LiveSessions.mem_tokens.mpr ⟨sessionId, h.registered hmem id hchain⟩
        exact hcancelled htoken

/-- **One action keeps the invariant.** -/
theorem sound_step {a : RunningAgent} {step : AgentStep} (h : Sound a.store a.streams)
    (hclear : step.Clear J a) :
    Sound (step.apply P J a).store (step.apply P J a).streams := by
  cases step with
  | accept input =>
    simp only [AgentStep.apply, RunningAgent.accept]
    split
    · exact h
    · exact h
  | disconnect connection => exact h
  | shellStart connection req spawned =>
    simp only [AgentStep.apply, RunningAgent.shellStart]
    split
    · rename_i session sessionId hconn
      split
      · rename_i hcheck
        exact sound_shellStart h (hclear.1 session hconn hcheck) hclear.2 _
      · exact h
    · exact h
  | attachStart connection req attached =>
    simp only [AgentStep.apply, RunningAgent.attachStart]
    split
    · exact h
    · rename_i session hconn
      split
      · rename_i hstart
        obtain ⟨rfl, hcheck⟩ := hstart
        exact sound_attachStart h (hclear session hconn hcheck)
      · exact h
  | streamEnd stream =>
    simp only [AgentStep.apply, RunningAgent.streamEnd]
    split
    · exact h
    · exact h.eraseIdx stream
    · rename_i hget
      exact sound_shellEnd h hget
  | store op => exact sound_store h hclear

/-- **A revocation cuts every stream in a run that stays clear of the two
gaps.** From any loaded store and through any interleaving of acceptances,
stream starts and ends, and store operations. -/
theorem run_cut_of_clear {clock : Option UInt64} {readFault : Bool} {writeFault : Option String}
    {disk : Disk} {maxBytes : UInt64}
    (hload : loadWithMaxBytes J clock readFault writeFault disk maxBytes = .ok s)
    {steps : List AgentStep}
    (hclear : Run.Guarded (AgentStep.apply P J) (fun a step => step.Clear J a)
      (RunningAgent.start s) steps) :
    ((RunningAgent.start s).run P J steps).Cut := by
  have hstart : Sound (RunningAgent.start s).store (RunningAgent.start s).streams := by
    refine ⟨(loadWithMaxBytes_ok hload).1, ?_, nodup_nil, ?_⟩
    · intro sessionId chain token hmem
      exact absurd hmem not_mem_nil
    · intro id hid stream hmem
      exact absurd hmem not_mem_nil
  have hend := hclear.invariant (I := fun a => Sound a.store a.streams)
    (fun a step h hstep => sound_step h hstep) hstart
  exact hend.cut

/-! ### Sample runs -/

def shellTicket : PortlTicket :=
  let ticket := sampleTicket (sampleKey 1) 1 none none
  { ticket with
    body := { ticket.body with
      caps := { ticket.body.caps with
        presence := 0b00000001, tcp := none
        shell := some ⟨none, true, true, none, .deny⟩ } } }

def shellPrimitives : Primitives := .transparent [shellTicket]

def shellOffer : AcceptanceInput := sampleInput 0 [] none .listener emptyRevocations

def shellSession : Accepted := sessionFor shellPrimitives shellOffer shellTicket [] shellTicket

def shellRequest : ShellReq :=
  { preamble := ⟨shellSession.peerToken, alpnShellV1⟩, mode := .shell, argv := none,
    envPatch := [], cwd := none, pty := none, user := none }

def attachRequest : SessionReq :=
  { preamble := ⟨shellSession.peerToken, alpnSessionV1⟩, op := .attach,
    sessionName := some "main", user := none, cwd := none }

/-- The ticket's revocation as `publish_revocations` appends it. -/
def revokeShellTicket : AgentStep :=
  .store (.appendBatchAtomic none
    [.new (ticketId shellPrimitives shellTicket.sig) "manual" 150 none])

def shellStarts : AgentStep := .shellStart 0 shellRequest (some (Vector.replicate 16 9))

theorem run_cut_of_clear_shell :
    let run := (RunningAgent.start emptyStore).run shellPrimitives .sample
      [.accept shellOffer, shellStarts, revokeShellTicket]
    run.Cut ∧ run.streams.length = 1 ∧ run.store.set.ids.card = 1 := by
  refine ⟨?_, by decide +kernel, by decide +kernel⟩
  have hload : loadWithMaxBytes .sample (some 150) false none none
      defaultRevocationsMaxBytes = .ok emptyStore := rfl
  exact run_cut_of_clear hload (by decide +kernel)

/-- A shell opened on the old connection after the revocation, and an attach
opened before it, both run on. -/
theorem run_not_cut :
    loadWithMaxBytes .sample (some 150) false none none defaultRevocationsMaxBytes =
      .ok emptyStore ∧
    ¬ ((RunningAgent.start emptyStore).run shellPrimitives .sample
      [.accept shellOffer, revokeShellTicket, shellStarts]).Cut ∧
    ¬ ((RunningAgent.start emptyStore).run shellPrimitives .sample
      [.accept shellOffer, .attachStart 0 attachRequest true, revokeShellTicket]).Cut := by
  refine ⟨rfl, ?_, ?_⟩ <;> decide +kernel

/-! ## What runs, every ticket grants

An offer is checked hop by hop, and from then on only the caps of its last ticket are
asked. -/

/-- The input of an `accept` of the run, with the revocations of that moment. -/
def Offered (P : Primitives) (J : JsonCodec) (s : Store) (steps : List AgentStep)
    (input : AcceptanceInput) : Prop :=
  ∃ before offered after, steps = before ++ AgentStep.accept offered :: after ∧
    input = { offered with revocations := ((RunningAgent.start s).run P J before).store.set }

/-- Behind the stream stands an offer of the run that met all conditions when it was made.
Its last ticket grants a shell, and each request that one grants, every ticket of the chain
grants. -/
def Granted (P : Primitives) (J : JsonCodec) (s : Store) (steps : List AgentStep)
    (stream : Stream) : Prop :=
  ∃ input terminal chain root, Offered P J s steps input ∧
    OfferConditions P input terminal chain root ∧
    stream.ticketChainIds = (chain ++ [terminal]).map (fun ticket => ticketId P ticket.sig) ∧
    (∃ req, shellPermits terminal.body.caps req = .ok ()) ∧
    ∀ req, shellPermits terminal.body.caps req = .ok () →
      ∀ ticket ∈ chain ++ [terminal], shellPermits ticket.body.caps req = .ok ()

structure Accountable (P : Primitives) (J : JsonCodec) (s : Store) (steps : List AgentStep)
    (a : RunningAgent) : Prop where
  connections : ∀ session ∈ a.connections, ∃ input, Offered P J s steps input ∧
    evaluateOffer P input = .accepted session
  streams : ∀ stream ∈ a.streams, Granted P J s steps stream

variable {a : RunningAgent} {req : ShellReq} {steps : List AgentStep} {input : AcceptanceInput}

theorem Offered.concat (h : Offered P J s steps input) (step : AgentStep) :
    Offered P J s (steps ++ [step]) input := by
  obtain ⟨before, offered, after, rfl, hinput⟩ := h
  exact ⟨before, offered, after ++ [step], by simp, hinput⟩

theorem Accountable.concat (h : Accountable P J s steps a) (step : AgentStep) :
    Accountable P J s (steps ++ [step]) a := by
  constructor
  · intro session hmem
    obtain ⟨input, hoffered, hacc⟩ := h.connections session hmem
    exact ⟨input, hoffered.concat step, hacc⟩
  · intro stream hmem
    obtain ⟨input, terminal, chain, root, hoffered, hgrants⟩ := h.streams stream hmem
    exact ⟨input, terminal, chain, root, hoffered.concat step, hgrants⟩

theorem OfferConditions.permits {terminal root : PortlTicket}
    {chain : List PortlTicket} (h : OfferConditions P input terminal chain root)
    (hreq : shellPermits terminal.body.caps req = .ok ()) :
    ∀ ticket ∈ chain ++ [terminal], shellPermits ticket.body.caps req = .ok () := by
  obtain ⟨rest, heq, hshape⟩ := h.shape
  let R : PortlTicket → PortlTicket → Prop := fun parent child =>
    shellPermits child.body.caps req = .ok () → shellPermits parent.body.caps req = .ok ()
  have : Trans R R R := ⟨fun hab hbc hc => hab (hbc hc)⟩
  have hchain : IsChain R (chain ++ [terminal]) := by
    rw [heq]
    exact hshape.hops.imp fun _ _ hop => shellPermits_of_narrows (isNarrowing_iff.mp hop.caps)
  obtain ⟨-, -, hcross⟩ := pairwise_append.mp hchain.pairwise
  exact forall_mem_append.mpr ⟨fun _ hmem => hcross _ hmem _ (mem_singleton_self _) hreq,
    forall_mem_singleton.mpr hreq⟩

theorem Accountable.opened (h : Accountable P J s steps a)
    (hsession : a.connections[i]? = some session) (hreq : shellPermits session.caps req = .ok ())
    (hids : stream.ticketChainIds = session.ticketChainIds) :
    ∀ other ∈ stream :: a.streams, Granted P J s steps other := by
  obtain ⟨input, hoffered, hacc⟩ := h.connections session (mem_of_getElem? hsession)
  obtain ⟨terminal, chain, root, hcond, rfl⟩ :=
    acceptOffer_eq_ok.mp (evaluateOffer_eq_accepted.mp hacc)
  have hgranted : Granted P J s steps stream :=
    ⟨input, terminal, chain, root, hoffered, hcond, hids, ⟨req, hreq⟩, fun _ => hcond.permits⟩
  exact forall_mem_cons.mpr ⟨hgranted, h.streams⟩

end Portl
