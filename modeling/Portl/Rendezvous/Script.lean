import Portl.Rendezvous.Exchange

/-!
# What a side does, as a script

Seen from the mailbox, an honest side is a list of acts: it asks for something and
waits for the answer, or it hears a message of its peer. `Follows` says this of a
process, for every content of the queue of early messages, and `Performs` of a
client action.
-/

namespace Portl

open MailboxClient List

/-! ## Acts -/

inductive Reply where
  | welcome
  | claimed (mailbox : String)
  | ack
  | closed
deriving DecidableEq

def Reply.Matches : Reply → ServerMessage → Prop
  | .welcome, .welcome _ => True
  | .claimed mailbox, .claimed mailbox' => mailbox' = mailbox
  | .ack, .ack _ => True
  | .closed, .closed _ => True
  | _, _ => False

inductive Act where
  | ask (command : ClientMessage) (reply : Reply)
  | hear (phase : String) (body : Bytes)
deriving DecidableEq

/-- What a side comes to: the offerer returns nothing, the accepter an envelope. -/
abbrev Outcome := Except RendezvousError (Option OfferedEnvelope)

abbrev Side := MailboxProc Outcome

def Side.settle (p : Side) : List ClientMessage × Side := Proc.settle (.ok ()) p

def Side.hand (p : Side) (frame : ServerMessage) : List ClientMessage × Side :=
  Proc.feed (.ok ()) p (.ok frame)

abbrev Course := List PhaseMessage → List ClientMessage × Side

/-- `Q` waits for the reply and then goes on with `G`. -/
structure Awaits (Q : List PhaseMessage → Side) (reply : Reply) (G : Course) : Prop where
  waits : ∀ pending outcome, Q pending ≠ .ret outcome
  buffers : ∀ pending m, pending.length < maxPendingMessages →
    (Q pending).hand (.message m) = ([], Q (pending ++ [m]))
  skips : reply ≠ .ack → ∀ pending id, (Q pending).hand (.ack id) = ([], Q pending)
  answered : ∀ pending frame, reply.Matches frame → (Q pending).hand frame = G pending

def PhaseMessage.Is (peer phase : String) (body : Bytes) (m : PhaseMessage) : Prop :=
  m.side = peer ∧ m.phase = phase ∧ m.body = body

/-- `F` takes the peer's message from the queue, or waits for it as `q`, and then
goes on with `G`. -/
structure Hears (own peer phase : String) (body : Bytes) (F : Course) (q : Side) (G : Course) :
    Prop where
  waits : ∀ outcome, q ≠ .ret outcome
  empty : ∀ pending, (∀ m ∈ pending, m.side = own) → F pending = ([], q)
  found : ∀ before m after, (∀ x ∈ before, x.side = own) → m.Is peer phase body →
    F (before ++ m :: after) = G after
  skips : ∀ m, m.side = own → q.hand (.message m) = ([], q)
  heard : ∀ m, m.Is peer phase body → q.hand (.message m) = G []

def Follows (own peer : String) (outcome : Outcome) : List Act → Course → Prop
  | [], F => ∀ pending, F pending = ([], .ret outcome)
  | .ask command reply :: rest, F => ∃ Q G, (∀ pending, F pending = ([command], Q pending)) ∧
      Awaits Q reply G ∧ Follows own peer outcome rest G
  | .hear phase body :: rest, F => ∃ q G, Hears own peer phase body F q G ∧
      Follows own peer outcome rest G

/-! ## Actions that perform acts -/

/-- The client action does the acts, whatever comes after it, and returns one of
`A`. The queues of `c` and `c'` do not matter. -/
def Performs {ε α : Type} (own peer : String) (x : ClientM ε α) (acts : List Act)
    (c : MailboxClient) (A : α → Prop) (c' : MailboxClient) : Prop :=
  ∀ outcome (K : Except ε α × MailboxClient → Side) rest (G : Course),
    (∀ a, A a → ∀ pending, (K (.ok a, { c' with pending := pending })).settle = G pending) →
    Follows own peer outcome rest G →
    Follows own peer outcome (acts ++ rest) fun pending =>
      Side.settle ((x { c with pending := pending }).bind K)

namespace Performs

variable {ε ε' α β : Type} {own peer : String} {c c₁ c₂ : MailboxClient}

theorem pure (a : α) : Performs own peer (ClientM.pure a : ClientM ε α) [] c (· = a) c := by
  intro outcome K rest G hK hG
  have hsame : (fun pending => Side.settle (Proc.bind
      ((ClientM.pure a : ClientM ε α) { c with pending := pending }) K)) = G :=
    funext fun pending => hK a rfl pending
  rw [nil_append, hsame]
  exact hG

theorem modify {f : MailboxClient → MailboxClient}
    (hf : ∀ pending, f { c with pending := pending } = { c₁ with pending := pending }) :
    Performs own peer (ClientM.modify f : ClientM ε Unit) [] c (fun _ => True) c₁ := by
  intro outcome K rest G hK hG
  have hsame : (fun pending => Side.settle (Proc.bind
      ((ClientM.modify f : ClientM ε Unit) { c with pending := pending }) K)) = G := by
    funext pending
    rw [← hK () trivial pending, ← hf]
    rfl
  rw [nil_append, hsame]
  exact hG

variable {A : α → Prop} {B : β → Prop} {acts acts' : List Act} {g : α → ClientM ε β}
  {x : ClientM ε α}

/-- One action after the other. What the second does must not depend on which of
the possible results the first has. -/
theorem bind (a : α) (hx : Performs own peer x acts c A c₁) (hsame : ∀ b, A b → g b = g a)
    (hg : Performs own peer (g a) acts' c₁ B c₂) :
    Performs own peer (x >>= g) (acts ++ acts') c B c₂ := by
  intro outcome K rest G hK hG
  have hassoc : (fun pending => Side.settle
      (Proc.bind ((x >>= g) { c with pending := pending }) K)) =
      fun pending => Side.settle ((x { c with pending := pending }).bind _) :=
    funext fun pending => congrArg Side.settle (Proc.bind_assoc _ _ _)
  rw [append_assoc, hassoc]
  refine hx outcome _ (acts' ++ rest)
    (fun pending => Side.settle (Proc.bind (g a { c₁ with pending := pending }) K)) ?_
    (hg outcome K rest G hK hG)
  intro b hb pending
  rw [← hsame b hb]

theorem bind_eq {a : α} (hx : Performs own peer x acts c (· = a) c₁)
    (hg : Performs own peer (g a) acts' c₁ B c₂) :
    Performs own peer (x >>= g) (acts ++ acts') c B c₂ :=
  bind a hx (fun _ hb => congrArg g hb) hg

theorem of_eq (hx : Performs own peer x acts c A c₁) (h : acts = acts') :
    Performs own peer x acts' c A c₁ :=
  h ▸ hx

theorem assoc {γ : Type} {h : β → ClientM ε γ} {A : γ → Prop}
    (hall : Performs own peer ((x >>= g) >>= h) acts c A c₁) :
    Performs own peer (x >>= fun a => g a >>= h) acts c A c₁ := by
  have hassoc : (x >>= g) >>= h = x >>= fun a => g a >>= h := by
    funext c
    refine (Proc.bind_assoc _ _ _).trans (congrArg (Proc.bind (x c)) (funext fun r => ?_))
    obtain ⟨result, c'⟩ := r
    cases result with
    | ok | error => rfl
  rwa [hassoc] at hall

theorem map {f : Except ε α × MailboxClient → Except ε' β × MailboxClient} {h : α → β}
    (hx : Performs own peer x acts c A c₁) (hf : ∀ a d, f (.ok a, d) = (.ok (h a), d))
    (hB : ∀ a, A a → B (h a)) :
    Performs own peer (fun d => (x d).bind fun r => .ret (f r)) acts c B c₁ := by
  intro outcome K rest G hK hG
  have hall := hx outcome (fun r => K (f r)) rest G
    (fun a ha pending => by
      rw [hf]
      exact hK (h a) (hB a ha) pending) hG
  have hassoc : ∀ pending, Proc.bind ((x { c with pending := pending }).bind fun r => .ret (f r)) K =
      (x { c with pending := pending }).bind fun r => K (f r) :=
    fun pending => Proc.bind_assoc _ _ _
  simp only [hassoc]
  exact hall

theorem mailbox {x : ClientM MailboxError α} (hx : Performs own peer x acts c A c₁) :
    Performs own peer (Portl.mailbox x) acts c A c₁ :=
  hx.map (f := fun r => (r.1.mapError RendezvousError.mailbox, r.2)) (fun _ _ => rfl)
    fun _ ha => ha

theorem ignore (hx : Performs own peer x acts c A c₁) :
    Performs own peer (x.ignore : ClientM ε' Unit) acts c (fun _ => True) c₁ :=
  hx.map (f := fun r => (.ok (), r.2)) (h := fun _ => ()) (fun _ _ => rfl) fun _ _ => trivial

/-- A command and the wait for its answer. The conditions say what the action is
once its send is answered, and what it makes of the reply. -/
theorem ask {command : ClientMessage} {reply : Reply} {judge : ServerMessage → Heard β}
    (c₁ : MailboxClient)
    (next : Except MailboxError β × MailboxClient → MailboxProc (Except ε α × MailboxClient))
    (hx : ∀ (K : Except ε α × MailboxClient → Side) pending,
      Side.settle ((x { c with pending := pending }).bind K) =
        ([command], .wait { c₁ with pending := pending } (hearSetup judge)
          fun r => (next r).bind K))
    (hack : reply ≠ .ack → ∀ id, judge (.ack id) = .skip)
    (hreply : ∀ frame, reply.Matches frame → ∃ b a, A a ∧ judge frame = .done b ∧
      ∀ pending, next (.ok b, { c₁ with pending := pending }) =
        .ret (.ok a, { c₂ with pending := pending })) :
    Performs own peer x [.ask command reply] c A c₂ := by
  intro outcome K rest G hK hG
  refine ⟨fun pending => .wait { c₁ with pending := pending } (hearSetup judge)
    fun r => (next r).bind K, G, hx K, ⟨?_, ?_, ?_, ?_⟩, hG⟩
  · intro pending outcome h
    cases h
  · intro pending m hroom
    have hbuffer : bufferPending { c₁ with pending := pending } m =
        .ok { c₁ with pending := pending ++ [m] } := if_neg (Nat.not_le.mpr hroom)
    exact Proc.feed_stay _ (by simp [hearSetup, hbuffer])
  · intro hne pending id
    exact Proc.feed_stay _ (by simp [hearSetup, hack hne])
  · intro pending frame hframe
    obtain ⟨b, a, ha, hjudge, hnext⟩ := hreply frame hframe
    have hleave : hearSetup judge { c₁ with pending := pending } (.ok frame) =
        .inr (.ok b, { c₁ with pending := pending }) := by
      -- a reply is neither an error nor a message
      cases frame with
      | error | message => cases reply <;> exact hframe.elim
      | _ => simp [hearSetup, hjudge]
    refine (Proc.feed_leave _ hleave).trans ?_
    rw [hnext]
    exact hK a ha pending

end Performs

/-! ## The client's functions -/

section Client

variable {own peer : String}

theorem performs_awaitCommandAccepted (command : ClientMessage) (c : MailboxClient) :
    Performs own peer (do send command; awaitCommandAccepted) [.ask command .ack] c
      (fun _ => True) c :=
  Performs.ask c .ret (fun _ _ => rfl) (fun h => absurd rfl h) fun frame hframe => by
    cases frame with
    | ack id => exact ⟨(), (), trivial, rfl, fun _ => rfl⟩
    | _ => exact hframe.elim

theorem performs_sendPhase (phase : String) (body : Bytes) (c : MailboxClient) :
    Performs own peer (sendPhase phase body) [.ask (.add phase body) .ack] c (fun _ => True) c :=
  performs_awaitCommandAccepted _ c

theorem performs_closeHappy (c : MailboxClient) :
    Performs own peer closeHappy [.ask (.close none (some "happy")) .closed] c (fun _ => True) c :=
  Performs.ask c .ret (fun _ _ => rfl) (fun _ _ => rfl) fun frame hframe => by
    cases frame with
    | closed mood => exact ⟨(), (), trivial, rfl, fun _ => rfl⟩
    | _ => exact hframe.elim

theorem performs_claim (nameplate mailbox : String) (c : MailboxClient) :
    Performs own peer (do send (.claim nameplate); recvMeaningfulSetup)
      [.ask (.claim nameplate) (.claimed mailbox)] c (· = .claimed mailbox) c :=
  Performs.ask c .ret (fun _ _ => rfl) (fun _ _ => rfl) fun frame hframe => by
    cases frame with
    | claimed mailbox' => exact ⟨_, _, congrArg _ hframe, rfl, fun _ => rfl⟩
    | _ => exact hframe.elim

variable {c : MailboxClient}

theorem performs_awaitWelcome (hbound : c.bound = false) :
    Performs own peer (do ensureBound; awaitWelcome) [.ask (.bind c.appid c.side) .welcome] c
      (· = ()) { c with bound := true } := by
  have hask : Performs own peer (do ensureBound; recvMeaningfulSetup)
      [.ask (.bind c.appid c.side) .welcome] c (fun frame => ∃ text, frame = .welcome text)
      { c with bound := true } := by
    obtain ⟨appid, side, mailbox, bound, queue⟩ := c
    cases hbound
    refine Performs.ask ⟨appid, side, mailbox, true, queue⟩ .ret (fun _ _ => rfl) (fun _ _ => rfl)
      fun frame hframe => ?_
    cases frame with
    | welcome text => exact ⟨_, _, ⟨text, rfl⟩, rfl, fun _ => rfl⟩
    | _ => exact hframe.elim
  refine Performs.assoc (Performs.bind (.welcome "") hask ?_ (Performs.pure ()))
  rintro _ ⟨text, rfl⟩
  rfl

theorem performs_claimNameplateAndOpen (nameplate mailbox : String) (c : MailboxClient) :
    Performs own peer (claimNameplateAndOpen nameplate)
      [.ask (.claim nameplate) (.claimed mailbox), .ask (.openMailbox mailbox) .ack] c
      (· = ⟨nameplate, mailbox⟩) { c with mailbox := some mailbox } := by
  refine Performs.assoc (Performs.bind (.claimed mailbox) (performs_claim nameplate mailbox c) ?_ ?_)
  · rintro _ rfl
    rfl
  · refine Performs.assoc (Performs.bind () (performs_awaitCommandAccepted _ c) (fun _ _ => rfl) ?_)
    exact Performs.bind () (Performs.modify fun _ => rfl) (fun _ _ => rfl) (Performs.pure _)

theorem performs_claimAndOpen (nameplate mailbox : String) (hbound : c.bound = false) :
    Performs own peer (claimAndOpen nameplate)
      [.ask (.bind c.appid c.side) .welcome, .ask (.claim nameplate) (.claimed mailbox),
        .ask (.openMailbox mailbox) .ack] c (· = ⟨nameplate, mailbox⟩)
      { c with bound := true, mailbox := some mailbox } :=
  Performs.assoc (Performs.bind () (performs_awaitWelcome hbound) (fun _ _ => rfl)
    (performs_claimNameplateAndOpen nameplate mailbox _))

variable {phase side : String}

theorem takePending_own {pending : List PhaseMessage} (h : ∀ m ∈ pending, m.side = side)
    (rest : List PhaseMessage) :
    takePending side phase (pending ++ rest) = takePending side phase rest := by
  induction pending with
  | nil => rfl
  | cons m pending ih =>
    rw [cons_append, takePending, if_pos (h m mem_cons_self)]
    exact ih fun x hx => h x (mem_cons_of_mem m hx)

theorem takePending_peer {body : Bytes} {m : PhaseMessage} (hne : peer ≠ side)
    (hm : m.Is peer phase body) (rest : List PhaseMessage) :
    takePending side phase (m :: rest) = (some (.ok m), rest) := by
  obtain ⟨hside, hphase, -⟩ := hm
  rw [takePending, if_neg (hside ▸ hne), if_neg (not_not.mpr hphase)]

theorem performs_recvPhaseFromPeer (phase : String) (body : Bytes) (hne : peer ≠ c.side) :
    Performs c.side peer (recvPhaseFromPeer phase) [.hear phase body] c
      (PhaseMessage.Is peer phase body) c := by
  intro outcome K rest G hK hG
  refine ⟨.wait () (hearPhase c.side phase) fun result => K (result, { c with pending := [] }), G,
    ⟨?_, ?_, ?_, ?_, ?_⟩, hG⟩
  · intro outcome h
    cases h
  · intro pending hown
    have htake : takePending c.side phase pending = (none, []) := by
      have h : takePending c.side phase (pending ++ []) = _ := takePending_own hown []
      rwa [append_nil] at h
    simp only [recvPhaseFromPeer, htake]
    rfl
  · intro before m after hown hm
    have htake := (takePending_own hown (m :: after)).trans (takePending_peer hne hm after)
    simp only [recvPhaseFromPeer, htake]
    exact hK m hm after
  · intro m hown
    exact Proc.feed_stay _ (if_pos hown)
  · intro m hm
    have hleave : hearPhase c.side phase () (.ok (.message m)) = .inr (.ok m) := by
      obtain ⟨hside, hphase, -⟩ := hm
      simp [hearPhase, if_neg (hside ▸ hne : m.side ≠ c.side), if_neg (not_not.mpr hphase)]
    exact (Proc.feed_leave _ hleave).trans (hK m hm [])

end Client

/-! ## The two scripts -/

inductive Role where
  | offer
  | accept
deriving DecidableEq

def Role.peer : Role → Role
  | .offer => .accept
  | .accept => .offer

structure Deal where
  nameplate : String
  mailbox : String
  side : Role → String
  pake : Role → Bytes
  hello : Bytes
  envelope : Bytes

def Deal.greeting (d : Deal) (r : Role) : List Act :=
  [.ask (.bind portlExchangeAppidV1 (d.side r)) .welcome,
    .ask (.claim d.nameplate) (.claimed d.mailbox), .ask (.openMailbox d.mailbox) .ack,
    .ask (.add "pake" (d.pake r)) .ack, .hear "pake" (d.pake r.peer)]

def Deal.script (d : Deal) : Role → List Act
  | .offer => d.greeting .offer ++ [.hear "0" d.hello, .ask (.add "1" d.envelope) .ack,
      .ask (.close none (some "happy")) .closed]
  | .accept => d.greeting .accept ++ [.ask (.add "0" d.hello) .ack, .hear "1" d.envelope,
      .ask (.close none (some "happy")) .closed]

section Sides

variable {W : Wormhole} {own : String} {α ε : Type} {a : α} {result : Except ε α}
  (f : ε → RendezvousError)

theorem performs_orCloseScary {peer : String} (reason : String) (h : result = .ok a)
    (c : MailboxClient) :
    Performs own peer (orCloseScary reason (result.mapError f)) [] c (· = a) c := by
  subst h
  exact Performs.pure a

theorem performs_orReturn {peer : String} (h : result = .ok a) (c : MailboxClient) :
    Performs own peer (orReturn (result.mapError f)) [] c (· = a) c := by
  subst h
  exact Performs.pure a

structure Deal.Made (d : Deal) (code : ShortCode) (random : Role → SideRandom W)
    (hello : RecipientHelloV1) (offered : OfferedEnvelope) (key : Bytes32)
    (helloJson envelopeJson : Bytes) : Prop where
  nameplate : d.nameplate = code.nameplate
  side : ∀ r, d.side r = (random r).side
  apart : d.side .offer ≠ d.side .accept
  pake : ∀ r, d.pake r = (startPake W code.password portlExchangeAppidV1 (random r).spake).2
  agrees : ∀ r, finishPake W (startPake W code.password portlExchangeAppidV1 (random r).spake).1
    (d.pake r.peer) = .ok key
  helloValid : hello.validate = .ok ()
  helloTo : W.helloToVec hello = .ok helloJson
  helloFrom : W.helloFromSlice helloJson = .ok hello
  helloSeals : d.hello = encryptPhase W (random .accept).nonce key (random .accept).side "0" helloJson
  helloOpens : decryptPhase W key (d.side .accept) "0" d.hello = .ok helloJson
  envelopeTo : W.envelopeToVec offered = .ok envelopeJson
  envelopeFrom : deserializeEnvelope W envelopeJson = .ok offered
  envelopeSeals : d.envelope =
    encryptPhase W (random .offer).nonce key (random .offer).side "1" envelopeJson
  envelopeOpens : decryptPhase W key (d.side .offer) "1" d.envelope = .ok envelopeJson

variable {d : Deal} {code : ShortCode} {random : Role → SideRandom W} {hello : RecipientHelloV1}
  {offered : OfferedEnvelope} {key : Bytes32} {helloJson envelopeJson : Bytes}

variable (hmade : d.Made code random hello offered key helloJson envelopeJson)

def Deal.client (d : Deal) (r : Role) : MailboxClient :=
  ⟨portlExchangeAppidV1, d.side r, some d.mailbox, true, []⟩

include hmade

theorem performs_offerPakeAndRecvHello :
    Performs (d.side .offer) (d.side .accept)
      (offerPakeAndRecvHello W code (random .offer).spake)
      [.ask (.add "pake" (d.pake .offer)) .ack, .hear "pake" (d.pake .accept), .hear "0" d.hello]
      (d.client .offer) (· = (key, hello)) (d.client .offer) := by
  have hne : d.side .accept ≠ (d.client .offer).side := hmade.apart.symm
  have hpake := performs_recvPhaseFromPeer "pake" (d.pake .accept) hne
  have hfirst := performs_recvPhaseFromPeer "0" d.hello hne
  unfold offerPakeAndRecvHello
  refine Performs.of_eq (Performs.bind () (performs_sendPhase _ _ _).mailbox (fun _ _ => rfl)
    (Performs.bind ⟨d.side .accept, "pake", d.pake .accept, ""⟩ hpake.mailbox ?_
      (Performs.bind_eq (performs_orCloseScary .crypto _ (hmade.agrees .offer) _)
        (Performs.bind ⟨d.side .accept, "0", d.hello, ""⟩ hfirst.mailbox ?_
          (Performs.bind_eq (performs_orCloseScary .crypto _ hmade.helloOpens _)
            (Performs.bind_eq (performs_orCloseScary (.invalidPayload ∘ .json) _ hmade.helloFrom _)
              (Performs.bind_eq (performs_orCloseScary .invalidPayload _ hmade.helloValid _)
                (Performs.pure _)))))))) ?_
  · rintro ⟨_, _, _, id⟩ ⟨rfl, rfl, rfl⟩
    rfl
  · rintro ⟨_, _, _, id⟩ ⟨rfl, rfl, rfl⟩
    rfl
  · rw [hmade.pake .offer]
    rfl

theorem performs_offerSendEnvelope :
    Performs (d.side .offer) (d.side .accept)
      (offerSendEnvelope W key offered (random .offer).side (random .offer).nonce)
      [.ask (.add "1" d.envelope) .ack, .ask (.close none (some "happy")) .closed]
      (d.client .offer) (fun _ => True) (d.client .offer) := by
  unfold offerSendEnvelope
  refine Performs.of_eq
    (Performs.bind_eq (performs_orReturn (.invalidPayload ∘ .json) hmade.envelopeTo _)
    (Performs.bind () (performs_sendPhase _ _ _).mailbox (fun _ _ => rfl)
      (performs_closeHappy _).ignore)) ?_
  rw [hmade.envelopeSeals]
  rfl

theorem performs_offerOverMailbox :
    Performs (d.side .offer) (d.side .accept) (offerOverMailbox W (random .offer) code offered)
      (d.script .offer) (MailboxClient.new portlExchangeAppidV1 (d.side .offer)) (fun _ => True)
      (d.client .offer) := by
  unfold offerOverMailbox
  refine Performs.of_eq (Performs.bind_eq (performs_claimAndOpen _ d.mailbox rfl).mailbox
    (Performs.bind_eq (performs_offerPakeAndRecvHello hmade)
      (performs_offerSendEnvelope hmade))) ?_
  rw [← hmade.nameplate]
  rfl

theorem performs_acceptOverMailbox :
    Performs (d.side .accept) (d.side .offer) (acceptOverMailbox W (random .accept) code hello)
      (d.script .accept) (MailboxClient.new portlExchangeAppidV1 (d.side .accept)) (· = offered)
      (d.client .accept) := by
  have hne : d.side .offer ≠ (d.client .accept).side := hmade.apart
  have hpake := performs_recvPhaseFromPeer "pake" (d.pake .offer) hne
  have hsecond := performs_recvPhaseFromPeer "1" d.envelope hne
  unfold acceptOverMailbox
  refine Performs.of_eq (Performs.bind_eq (performs_orReturn .invalidPayload hmade.helloValid _)
    (Performs.bind_eq (performs_claimAndOpen _ d.mailbox rfl).mailbox
      (Performs.bind () (performs_sendPhase _ _ _).mailbox (fun _ _ => rfl)
        (Performs.bind ⟨d.side .offer, "pake", d.pake .offer, ""⟩ hpake.mailbox ?_
          (Performs.bind_eq (performs_orCloseScary .crypto _ (hmade.agrees .accept) _)
            (Performs.bind_eq (performs_orReturn (.invalidPayload ∘ .json) hmade.helloTo _)
              (Performs.bind () (performs_sendPhase _ _ _).mailbox (fun _ _ => rfl)
                (Performs.bind ⟨d.side .offer, "1", d.envelope, ""⟩ hsecond.mailbox ?_
                  (Performs.bind_eq (performs_orCloseScary .crypto _ hmade.envelopeOpens _)
                    (Performs.bind_eq (performs_orCloseScary .invalidPayload _ hmade.envelopeFrom _)
                      (Performs.bind () (performs_closeHappy _).ignore (fun _ _ => rfl)
                        (Performs.pure _)))))))))))) ?_
  · rintro ⟨_, _, _, id⟩ ⟨rfl, rfl, rfl⟩
    rfl
  · rintro ⟨_, _, _, id⟩ ⟨rfl, rfl, rfl⟩
    rfl
  · rw [← hmade.nameplate, ← hmade.pake, ← hmade.helloSeals]
    rfl

omit hmade

def sideOf {α : Type} (x : ClientM RendezvousError α) (side : String)
    (result : α → Option OfferedEnvelope) : Side :=
  (x (MailboxClient.new portlExchangeAppidV1 side)).bind fun r => .ret (r.1.map result)

theorem Performs.follows {peer : String} {x : ClientM RendezvousError α} {acts : List Act}
    {A : α → Prop} {c' : MailboxClient} {result : α → Option OfferedEnvelope}
    {value : Option OfferedEnvelope}
    (hx : Performs own peer x acts (MailboxClient.new portlExchangeAppidV1 own) A c')
    (hvalue : ∀ a, A a → result a = value) :
    ∃ F, F [] = (sideOf x own result).settle ∧ Follows own peer (.ok value) acts F := by
  have hall := hx (.ok value) (fun r => .ret (r.1.map result)) []
    (fun _ => ([], .ret (.ok value)))
    (fun a ha _ => by
      rw [← hvalue a ha]
      rfl) (fun _ => rfl)
  rw [append_nil] at hall
  exact ⟨_, rfl, hall⟩

end Sides

end Portl
