import Portl.Rendezvous.Backlog
import Portl.Rendezvous.Exchange

/-!
# The accepting side against any server

Against every script the accepting side returns, and with an envelope only if the
first two messages of a peer in the script are a PAKE message that yields a key and
an envelope that opens under it and is valid.

What waiting for an answer and hearing a phase do to the `backlog` of the client is
carried over to the steps of the exchange, when they succeed.
-/

namespace Portl

open MailboxClient Checks

/-! ## Steps that succeed -/

section Ensures

variable {ε α : Type} {aEnd : Sent} {e : MailboxError}

/-- What holds between the client and the script before and after an action that
succeeds. -/
def Ensures (aEnd : Sent) (e : MailboxError) (x : ClientM ε α)
    (P : MailboxClient → List Received → α → MailboxClient → List Received → Prop) : Prop :=
  ∀ c as is a c' as' is', playClient aEnd e x c as is = some ((.ok a, c'), as', is') →
    P c is a c' is'

variable {x : ClientM MailboxError α}

theorem Ensures.mailbox
    {P : MailboxClient → List Received → α → MailboxClient → List Received → Prop}
    (hx : Ensures aEnd e x P) : Ensures aEnd e (Portl.mailbox x) P := by
  intro c as is a c' as' is' hplay
  obtain ⟨⟨result, c₁⟩, hfirst, hmap⟩ :=
    playClient_map (f := fun r => (r.1.mapError RendezvousError.mailbox, r.2)) hplay
  cases result with
  | ok b =>
    cases hmap
    exact hx _ _ _ _ _ _ _ hfirst
  | error e' => cases hmap

def Quiet (aEnd : Sent) (e : MailboxError) (x : ClientM ε α) : Prop :=
  Ensures aEnd e x fun c is _ c' is' => c'.side = c.side ∧ c'.backlog is' = c.backlog is

theorem Keeps.quiet (hx : Keeps aEnd e x) : Quiet aEnd e x := by
  intro c as is a c' as' is' hplay
  obtain ⟨hside, hback⟩ := hx c as is (.ok a) c' as' is' hplay
  exact ⟨hside, hback (by simp)⟩

def Hearing (aEnd : Sent) (e : MailboxError) (phase : String) (x : ClientM ε PhaseMessage) : Prop :=
  Ensures aEnd e x fun c is m c' is' =>
    c'.side = c.side ∧ c.backlog is = m :: c'.backlog is' ∧ m.phase = phase

theorem hearing_recvPhaseFromPeer (phase : String) :
    Hearing aEnd e phase (recvPhaseFromPeer phase) := by
  intro c as is m c' as' is' hplay
  obtain ⟨result, c₁, is₁, hspec, hside, htaken⟩ := play_recvPhaseFromPeer aEnd e phase c as is
  rw [hspec] at hplay
  cases hplay
  rcases htaken with ⟨m', hback, hanswer⟩ | ⟨error, herror, -⟩
  · obtain ⟨rfl, hphase⟩ := answerPhase_eq_ok hanswer.symm
    exact ⟨hside, hback, hphase⟩
  · cases herror

def Gives (aEnd : Sent) (e : MailboxError) (x : ClientM ε α) (result : Except ε α) : Prop :=
  Ensures aEnd e x fun c is a c' is' => result = .ok a ∧ c' = c ∧ is' = is

theorem gives_orReturn (result : Except RendezvousError α) :
    Gives aEnd e (orReturn result) result := by
  intro c as is a c' as' is' hplay
  cases result with
  | ok b =>
    cases hplay
    exact ⟨rfl, rfl, rfl⟩
  | error e' => cases hplay

theorem gives_orCloseScary (reason : String) (result : Except RendezvousError α) :
    Gives aEnd e (orCloseScary reason result) result := by
  intro c as is a c' as' is' hplay
  cases result with
  | ok b =>
    cases hplay
    exact ⟨rfl, rfl, rfl⟩
  | error e' =>
    obtain ⟨u, c₁, as₁, is₁, -, hfail⟩ := playClient_bind_ok (g := fun _ => ClientM.fail e') hplay
    cases hfail

theorem returns_orReturn (result : Except RendezvousError α) : Returns e (orReturn result) := by
  cases result <;> exact fun _ => trivial

theorem returns_orCloseScary (reason : String) (result : Except RendezvousError α) :
    Returns e (orCloseScary reason result) := by
  cases result with
  | ok a => exact Returns.pure a
  | error e' => exact ((returns_closeWith _).map _).bind fun _ => Returns.fail e'

end Ensures

/-! ## The accepting side -/

section Accept

variable (W : Wormhole) (random : SideRandom W) (code : ShortCode) (hello : RecipientHelloV1)

/-- The two messages vouch for the envelope: the first gives the key with which the
second opens, and what is in it is valid. -/
def Vouch (first second : PhaseMessage) (offered : OfferedEnvelope) : Prop :=
  first.phase = "pake" ∧ second.phase = "1" ∧ ∃ key plain,
    finishPake W (startPake W code.password portlExchangeAppidV1 random.spake).1 first.body =
      .ok key ∧
    decryptPhase W key second.side "1" second.body = .ok plain ∧
    deserializeEnvelope W plain = .ok offered

theorem returns_acceptOverMailbox (e : MailboxError) :
    Returns e (acceptOverMailbox W random code hello) := by
  unfold acceptOverMailbox
  refine (returns_orReturn _).bind fun _ => ((returns_claimAndOpen _).map _).bind fun _ =>
    (((returns_send _).bind fun _ => returns_awaitFrame _).map _).bind fun _ =>
    ((returns_recvPhaseFromPeer _).map _).bind fun _ =>
    (returns_orCloseScary _ _).bind fun _ => (returns_orReturn _).bind fun _ =>
    (((returns_send _).bind fun _ => returns_awaitFrame _).map _).bind fun _ =>
    ((returns_recvPhaseFromPeer _).map _).bind fun _ =>
    (returns_orCloseScary _ _).bind fun _ => (returns_orCloseScary _ _).bind fun _ =>
    ((returns_closeWith _).map _).bind fun _ => Returns.pure _

theorem acceptOverMailbox_vouched {aEnd : Sent} {e : MailboxError} {c c' : MailboxClient}
    {as as' : List Sent} {is is' : List Received} {offered : OfferedEnvelope}
    (hplay : playClient aEnd e (acceptOverMailbox W random code hello) c as is =
      some ((.ok offered, c'), as', is')) :
    ∃ first second rest, c.backlog is = first :: second :: rest ∧
      Vouch W random code first second offered := by
  unfold acceptOverMailbox at hplay
  obtain ⟨_, _, _, _, hvalid, hplay⟩ := playClient_bind_ok hplay
  obtain ⟨_, _, _, _, hclaim, hplay⟩ := playClient_bind_ok hplay
  obtain ⟨_, _, _, _, hpake, hplay⟩ := playClient_bind_ok hplay
  obtain ⟨first, _, _, _, hfirst, hplay⟩ := playClient_bind_ok hplay
  obtain ⟨key, _, _, _, hkey, hplay⟩ := playClient_bind_ok hplay
  obtain ⟨_, _, _, _, hjson, hplay⟩ := playClient_bind_ok hplay
  obtain ⟨_, _, _, _, hsent, hplay⟩ := playClient_bind_ok hplay
  obtain ⟨second, _, _, _, hsecond, hplay⟩ := playClient_bind_ok hplay
  obtain ⟨plain, _, _, _, hplain, hplay⟩ := playClient_bind_ok hplay
  obtain ⟨offered', _, _, _, hoffered, hplay⟩ := playClient_bind_ok hplay
  obtain ⟨_, _, _, _, -, hplay⟩ := playClient_bind_ok hplay
  cases hplay
  -- the backlog along the way
  obtain ⟨-, rfl, rfl⟩ := gives_orReturn _ _ _ _ _ _ _ _ hvalid
  obtain ⟨-, hback₁⟩ := (keeps_claimAndOpen _).quiet.mailbox _ _ _ _ _ _ _ hclaim
  obtain ⟨-, hback₂⟩ := (keeps_sendPhase _ _).quiet.mailbox _ _ _ _ _ _ _ hpake
  obtain ⟨-, hback₃, hphase⟩ := (hearing_recvPhaseFromPeer _).mailbox _ _ _ _ _ _ _ hfirst
  obtain ⟨hkey', rfl, rfl⟩ := gives_orCloseScary _ _ _ _ _ _ _ _ _ hkey
  obtain ⟨-, rfl, rfl⟩ := gives_orReturn _ _ _ _ _ _ _ _ hjson
  obtain ⟨-, hback₄⟩ := (keeps_sendPhase _ _).quiet.mailbox _ _ _ _ _ _ _ hsent
  obtain ⟨-, hback₅, hphase'⟩ := (hearing_recvPhaseFromPeer _).mailbox _ _ _ _ _ _ _ hsecond
  obtain ⟨hplain', rfl, rfl⟩ := gives_orCloseScary _ _ _ _ _ _ _ _ _ hplain
  obtain ⟨hoffered', rfl, rfl⟩ := gives_orCloseScary _ _ _ _ _ _ _ _ _ hoffered
  have hsecondBack := hback₄.symm.trans hback₅
  have hfirstBack := hback₁.symm.trans (hback₂.symm.trans hback₃)
  exact ⟨first, second, _, hfirstBack.trans (congrArg (List.cons first) hsecondBack), hphase,
    hphase', key, plain, mapError_eq_ok.mp hkey', mapError_eq_ok.mp hplain',
    mapError_eq_ok.mp hoffered'⟩

/-- Against every script the accepting side returns, with an envelope only if the
first two messages of a peer vouch for it. -/
theorem acceptOverMailbox_returns (aEnd : Sent) (e : MailboxError) (as : List Sent)
    (is : List Received) :
    ∃ result c' rest, playClient aEnd e (acceptOverMailbox W random code hello)
        (MailboxClient.new portlExchangeAppidV1 random.side) as is = some ((result, c'), rest) ∧
      ∀ offered, result = .ok offered → ∃ first second others,
        fromPeers random.side (messagesIn is) = first :: second :: others ∧
        Vouch W random code first second offered := by
  obtain ⟨⟨⟨result, c'⟩, rest⟩, hplay⟩ :=
    Proc.Closes.play aEnd (returns_acceptOverMailbox W random code hello e
      (MailboxClient.new portlExchangeAppidV1 random.side)) as is
  refine ⟨result, c', rest, hplay, ?_⟩
  rintro offered rfl
  exact acceptOverMailbox_vouched W random code hello hplay

end Accept

end Portl
