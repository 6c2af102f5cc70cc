import Mathlib.Algebra.Order.Ring.Nat
import Portl.Rendezvous.Backlog

/-!
# What the mailbox client hands on

The methods of the client are called one after the other on one connection. Messages
that arrive while a command waits for its answer are queued; a receive takes the queued
ones first. The `backlog` is what the receives have still to hand on: a command leaves it
alone, and a receive takes its head. Two things take a message off without handing it on:
a full queue, and a receive that asks for another phase.
-/

namespace Portl

open MailboxClient List

/-! ## Calls -/

def MailboxClient.allocateAndOpen : ClientM MailboxError MailboxSetup := do
  ensureBound
  awaitWelcome
  send .allocate
  match ← recvMeaningfulSetup with
  | .allocated nameplate => claimNameplateAndOpen nameplate
  | other => ClientM.fail (.unexpectedFrame "allocated" other)

inductive MailboxCall where
  | recvPhaseFromPeer (expectedPhase : String)
  | sendPhase (phase : String) (body : Bytes)
  | claimAndOpen (nameplate : String)
  | allocateAndOpen
  | closeHappy
  | closeScary (reason : String)
deriving DecidableEq

abbrev CallResult := Except MailboxError (Option PhaseMessage)

def MailboxCall.action : MailboxCall → ClientM MailboxError (Option PhaseMessage)
  | recvPhaseFromPeer phase => do
    let m ← MailboxClient.recvPhaseFromPeer phase
    ClientM.pure (some m)
  | sendPhase phase body => do
    let _ ← MailboxClient.sendPhase phase body
    ClientM.pure none
  | claimAndOpen nameplate => do
    let _ ← MailboxClient.claimAndOpen nameplate
    ClientM.pure none
  | allocateAndOpen => do
    let _ ← MailboxClient.allocateAndOpen
    ClientM.pure none
  | closeHappy => do
    let _ ← MailboxClient.closeHappy
    ClientM.pure none
  | closeScary reason => do
    let _ ← MailboxClient.closeScary reason
    ClientM.pure none

def runCalls (aEnd : Sent) (e : MailboxError) (c : MailboxClient) (as : List Sent)
    (is : List Received) : List MailboxCall → List CallResult
  | [] => []
  | call :: calls =>
    match playClient aEnd e call.action c as is with
    | none => []
    | some ((result, c'), as', is') => result :: runCalls aEnd e c' as' is' calls

def delivered (results : List CallResult) : List PhaseMessage :=
  results.filterMap fun
    | .ok m => m
    | .error _ => none

def receivePhases (calls : List MailboxCall) : List String :=
  calls.filterMap fun
    | .recvPhaseFromPeer phase => some phase
    | _ => none

/-! ## Single calls -/

variable {aEnd : Sent} {e : MailboxError} {c c' : MailboxClient} {as as' : List Sent}
  {is is' : List Received} {call : MailboxCall} {result : CallResult}

theorem returns_action (call : MailboxCall) : Returns e call.action := by
  cases call with
  | recvPhaseFromPeer phase => exact (returns_recvPhaseFromPeer phase).bind fun _ => Returns.pure _
  | sendPhase phase body =>
    exact ((returns_send _).bind fun _ => returns_awaitFrame _).bind fun _ => Returns.pure _
  | claimAndOpen nameplate => exact (returns_claimAndOpen nameplate).bind fun _ => Returns.pure _
  | allocateAndOpen =>
    refine Returns.bind ?_ fun _ => Returns.pure _
    refine returns_ensureBound.bind fun _ => returns_awaitWelcome.bind fun _ =>
      (returns_send _).bind fun _ => (returns_awaitFrame _).bind fun frame => ?_
    cases frame with
    | allocated nameplate => exact returns_claimNameplateAndOpen nameplate
    | _ => exact Returns.fail _
  | closeHappy | closeScary => exact (returns_closeWith _).bind fun _ => Returns.pure _

def MailboxCall.IsCommand (call : MailboxCall) : Prop := ∀ phase, call ≠ .recvPhaseFromPeer phase

theorem keeps_command (hcommand : call.IsCommand) : Keeps aEnd e call.action := by
  cases call with
  | recvPhaseFromPeer phase => exact absurd rfl (hcommand phase)
  | sendPhase phase body => exact (keeps_sendPhase phase body).bind fun _ => Keeps.pure _
  | claimAndOpen nameplate => exact (keeps_claimAndOpen nameplate).bind fun _ => Keeps.pure _
  | allocateAndOpen =>
    refine Keeps.bind ?_ fun _ => Keeps.pure _
    refine keeps_ensureBound.bind fun _ => keeps_awaitWelcome.bind fun _ =>
      (keeps_send _).bind fun _ => (keeps_awaitFrame _).bind fun frame => ?_
    cases frame with
    | allocated nameplate => exact keeps_claimNameplateAndOpen nameplate
    | _ => exact Keeps.fail _
  | closeHappy | closeScary => exact (keeps_closeWith _).bind fun _ => Keeps.pure _

variable {m : PhaseMessage}

theorem command_result (hcommand : call.IsCommand)
    (hplay : playClient aEnd e call.action c as is = some ((.ok (some m), c'), as', is')) :
    False := by
  cases call with
  | recvPhaseFromPeer phase => exact hcommand phase rfl
  | _ =>
    obtain ⟨_, _, _, _, -, hpure⟩ := playClient_bind_ok hplay
    cases hpure

theorem play_receive (aEnd : Sent) (e : MailboxError) (phase : String) (c : MailboxClient)
    (as : List Sent) (is : List Received) :
    ∃ result c' is', playClient aEnd e (MailboxCall.recvPhaseFromPeer phase).action c as is =
        some ((result.map some, c'), as, is') ∧ c'.side = c.side ∧
      Answered phase is (c.backlog is) result (c'.backlog is') := by
  obtain ⟨result, c', is', hplay, hspec⟩ := play_recvPhaseFromPeer aEnd e phase c as is
  refine ⟨result, c', is', ?_, hspec⟩
  change Proc.play aEnd (.error e) (Proc.bind (MailboxClient.recvPhaseFromPeer phase c) _) as is = _
  rw [playClient] at hplay
  rw [Proc.play_bind, hplay]
  cases result with
  | error e' => rfl
  | ok m => rfl

theorem playClient_suffix {ε α : Type} {x : ClientM ε α} {r : Except ε α × MailboxClient}
    (hplay : playClient aEnd e x c as is = some (r, as', is')) : is' <:+ is :=
  Proc.play_suffix _ _ hplay

theorem ReadsReply.of_suffix {error : MailboxError} (h : ReadsReply is' error) (hsuffix : is' <:+ is) :
    ReadsReply is error := by
  obtain ⟨reply, hmem, hreply⟩ := h
  exact ⟨reply, hsuffix.mem hmem, hreply⟩

/-! ## Whole sessions -/

def AsksInOrder (phases : List String) (messages : List PhaseMessage) : Prop :=
  ∀ (i : ℕ) (phase : String) (m : PhaseMessage),
    phases[i]? = some phase → messages[i]? = some m → m.phase = phase

theorem AsksInOrder.tail {phase : String} {phases : List String} {messages : List PhaseMessage}
    (h : AsksInOrder (phase :: phases) (m :: messages)) :
    m.phase = phase ∧ AsksInOrder phases messages :=
  ⟨h 0 phase m rfl rfl, fun i phase' m' hphase hm => h (i + 1) phase' m' hphase hm⟩

theorem runCalls_cons (call : MailboxCall) (calls : List MailboxCall)
    (hplay : playClient aEnd e call.action c as is = some ((result, c'), as', is')) :
    runCalls aEnd e c as is (call :: calls) = result :: runCalls aEnd e c' as' is' calls := by
  rw [runCalls, hplay]

theorem runCalls_delivers (calls : List MailboxCall) (c : MailboxClient) (as : List Sent)
    (is : List Received) (htraffic : ∀ r ∈ is, Traffic r)
    (hroom : ∀ result ∈ runCalls aEnd e c as is calls, result ≠ .error .pendingExceeded)
    (hreplies : ∀ error, ReadsReply is error → .error error ∉ runCalls aEnd e c as is calls)
    (hasks : AsksInOrder (receivePhases calls) (c.backlog is)) :
    delivered (runCalls aEnd e c as is calls) =
      (c.backlog is).take (receivePhases calls).length := by
  induction calls generalizing c as is with
  | nil => rfl
  | cons call calls ih =>
    by_cases hreceive : ∃ phase, call = .recvPhaseFromPeer phase
    · obtain ⟨phase, rfl⟩ := hreceive
      obtain ⟨result, c', is', hplay, -, hanswered⟩ := play_receive aEnd e phase c as is
      have hphases : receivePhases (.recvPhaseFromPeer phase :: calls) =
          phase :: receivePhases calls := rfl
      have htraffic' : ∀ r ∈ is', Traffic r :=
        fun r hr => htraffic r ((playClient_suffix hplay).mem hr)
      rw [runCalls_cons _ _ hplay] at hroom hreplies ⊢
      have hroom' := (forall_mem_cons.mp hroom).2
      have hreplies' := fun error (hread : ReadsReply is' error) hmem =>
        hreplies error (hread.of_suffix (playClient_suffix hplay)) (mem_cons_of_mem _ hmem)
      rw [hphases] at hasks ⊢
      rcases hanswered with ⟨m, hback, rfl⟩ | ⟨error, rfl, hsame, hnone⟩
      · rw [hback] at hasks ⊢
        obtain ⟨hphase, hasks'⟩ := hasks.tail
        rw [answerPhase, if_neg (not_not.mpr hphase)]
        exact congrArg (List.cons m) (ih c' as is' htraffic' hroom' hreplies' hasks')
      · have hempty : c.backlog is = [] :=
          (hnone htraffic).resolve_right fun hread => hreplies error hread mem_cons_self
        have hasks' : AsksInOrder (receivePhases calls) (c'.backlog is') := by
          rw [hsame, hempty]
          intro i phase' m _ hm
          simp at hm
        have hrest := ih c' as is' htraffic' hroom' hreplies' hasks'
        rw [hsame, hempty, take_nil] at hrest
        rw [hempty, take_nil]
        exact hrest
    · have hcommand : call.IsCommand := fun phase heq => hreceive ⟨phase, heq⟩
      have hphases : receivePhases (call :: calls) = receivePhases calls := by
        cases call with
        | recvPhaseFromPeer phase => exact absurd rfl (hcommand phase)
        | _ => rfl
      obtain ⟨⟨⟨result, c'⟩, as', is'⟩, hplay⟩ := (returns_action call c).play aEnd as is
      rw [runCalls_cons _ _ hplay] at hroom hreplies ⊢
      obtain ⟨hresult, hroom'⟩ := forall_mem_cons.mp hroom
      have hreplies' := fun error (hread : ReadsReply is' error) hmem =>
        hreplies error (hread.of_suffix (playClient_suffix hplay)) (mem_cons_of_mem _ hmem)
      obtain ⟨-, hback⟩ := keeps_command hcommand c as is result c' as' is' hplay
      rw [hphases, ← hback hresult] at hasks ⊢
      rw [← ih c' as' is' (fun r hr => htraffic r ((playClient_suffix hplay).mem hr)) hroom'
        hreplies' hasks]
      cases result with
      | error e' => rfl
      | ok message =>
        cases message with
        | none => rfl
        | some m => exact (command_result hcommand hplay).elim

/-- **Every message of the peer is handed on once and in order.** The client's queue is
empty at first, the server sends no errors, no command finds the queue full, no receive
reads the answer to a command, and each receive asks for the phase of the peer's next
message. However the sends end and whatever commands stand between the receives, the
receives return the peer's messages in the server's order, as far as there are receives for
them. -/
theorem mailbox_delivers_in_order (aEnd : Sent) (e : MailboxError) (c : MailboxClient)
    (as : List Sent) (is : List Received) (calls : List MailboxCall) (hempty : c.pending = [])
    (htraffic : ∀ r ∈ is, Traffic r)
    (hroom : ∀ result ∈ runCalls aEnd e c as is calls, result ≠ .error .pendingExceeded)
    (hreplies : ∀ error, ReadsReply is error → .error error ∉ runCalls aEnd e c as is calls)
    (hasks : AsksInOrder (receivePhases calls) (fromPeers c.side (messagesIn is))) :
    delivered (runCalls aEnd e c as is calls) =
      (fromPeers c.side (messagesIn is)).take (receivePhases calls).length := by
  have hback : c.backlog is = fromPeers c.side (messagesIn is) := by
    rw [MailboxClient.backlog, hempty, nil_append]
  rw [← hback] at hasks ⊢
  exact runCalls_delivers calls c as is htraffic hroom hreplies hasks

def exchangeScript : List Received :=
  [.ok (.welcome "{}"), .ok (.claimed "mb"), .ok (.ack "a0"),
    .ok (.message ⟨"them", "pake", [1], "m1"⟩), .ok (.message ⟨"us", "pake", [2], "m2"⟩),
    .ok (.ack "a1"), .ok (.message ⟨"them", "0", [3], "m3"⟩), .ok (.closed none)]

def exchangeCalls : List MailboxCall :=
  [.claimAndOpen "7", .sendPhase "pake" [2], .recvPhaseFromPeer "pake", .recvPhaseFromPeer "0",
    .closeHappy]

/-- The peer's first message overtakes the acknowledgement of one's own, and is handed on
when it is asked for; the echo is not. Every command succeeds. -/
theorem mailbox_delivers_in_order_overtaken :
    let results := runCalls (.ok ()) (.transport "closed") (.new "portl.exchange.v1" "us") []
      exchangeScript exchangeCalls
    results.all Except.isOk ∧
    delivered results = [⟨"them", "pake", [1], "m1"⟩, ⟨"them", "0", [3], "m3"⟩] := by
  intro results
  have hok : results.all Except.isOk := by decide
  refine ⟨hok, mailbox_delivers_in_order (.ok ()) (.transport "closed")
    (.new "portl.exchange.v1" "us") [] exchangeScript exchangeCalls rfl
    (by simp [exchangeScript, Traffic]) (by decide) ?_ ?_⟩
  · intro error _ hmem
    cases all_eq_true.mp hok _ hmem
  · intro i phase m hphase hm
    rcases i with _ | _ | i
    · cases hphase
      cases hm
      rfl
    · cases hphase
      cases hm
      rfl
    · cases hphase

/-- A receive for another phase loses the message: asked again, for its own phase, the
client no longer has it. -/
theorem receive_for_other_phase_loses :
    fromPeers "us" (messagesIn [.ok (.message ⟨"them", "pake", [1], "m1"⟩)]) =
      [⟨"them", "pake", [1], "m1"⟩] ∧
    runCalls (.ok ()) (.transport "closed") (.new "portl.exchange.v1" "us") []
      [.ok (.message ⟨"them", "pake", [1], "m1"⟩)]
      [.recvPhaseFromPeer "0", .recvPhaseFromPeer "pake"] =
    [.error (.unexpectedPhase "0" "pake"), .error (.transport "closed")] := by
  decide

end Portl
