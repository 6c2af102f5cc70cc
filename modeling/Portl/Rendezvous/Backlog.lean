import Portl.Rendezvous.Mailbox

/-!
# What a mailbox client has still to use

A script fixes how each send ends and what each receive gives; when it is over the
transport fails. The messages of peers that were not used yet, in the queue or in the
rest of the script, are the `backlog`. Waiting for an answer leaves it as it is unless
the queue is full, and a receive takes its first message.
-/

namespace Portl

open MailboxClient List

/-! ## The backlog -/

def messagesIn (script : List Received) : List PhaseMessage :=
  script.filterMap fun received =>
    match received with
    | .ok (.message m) => some m
    | _ => none

def fromPeers (own : String) (messages : List PhaseMessage) : List PhaseMessage :=
  messages.filter fun m => m.side ≠ own

def MailboxClient.backlog (c : MailboxClient) (script : List Received) : List PhaseMessage :=
  fromPeers c.side (c.pending ++ messagesIn script)

section Backlog

variable {own : String} {m : PhaseMessage} {messages messages' : List PhaseMessage}

theorem fromPeers_append :
    fromPeers own (messages ++ messages') = fromPeers own messages ++ fromPeers own messages' :=
  filter_append _ _

theorem fromPeers_cons_own (h : m.side = own) :
    fromPeers own (m :: messages) = fromPeers own messages := by
  simp [fromPeers, h]

theorem fromPeers_cons_peer (h : m.side ≠ own) :
    fromPeers own (m :: messages) = m :: fromPeers own messages := by
  simp [fromPeers, h]

theorem backlog_queue (c : MailboxClient) (m : PhaseMessage) (script : List Received) :
    MailboxClient.backlog { c with pending := c.pending ++ [m] } script =
      c.backlog (.ok (.message m) :: script) := by
  simp only [MailboxClient.backlog, append_assoc]
  rfl

end Backlog

/-! ## What an action takes from it -/

section Takes

variable {ε ε' α β : Type} {aEnd : Sent} {e : MailboxError}

/-- The action against a script; after its end receives fail with `e`. -/
def playClient (aEnd : Sent) (e : MailboxError) (x : ClientM ε α) (c : MailboxClient)
    (as : List Sent) (is : List Received) :
    Option ((Except ε α × MailboxClient) × List Sent × List Received) :=
  (x c).play aEnd (.error e) as is

variable {c c' : MailboxClient} {is is' : List Received} {as as' : List Sent} {x : ClientM ε α}
  {g : α → ClientM ε β}

theorem playClient_bind_ok {b : β}
    (h : playClient aEnd e (x >>= g) c as is = some ((.ok b, c'), as', is')) :
    ∃ a c₁ as₁ is₁, playClient aEnd e x c as is = some ((.ok a, c₁), as₁, is₁) ∧
      playClient aEnd e (g a) c₁ as₁ is₁ = some ((.ok b, c'), as', is') := by
  change Proc.play aEnd (.error e) (Proc.bind (x c) _) as is = _ at h
  rw [Proc.play_bind] at h
  obtain ⟨⟨⟨result, c₁⟩, as₁, is₁⟩, hx, hg⟩ := Option.bind_eq_some_iff.mp h
  cases result with
  | ok a => exact ⟨a, c₁, as₁, is₁, hx, hg⟩
  | error e => cases hg

theorem playClient_map {f : Except ε α × MailboxClient → Except ε' β × MailboxClient}
    {result : Except ε' β}
    (h : playClient aEnd e (fun c => (x c).bind fun r => .ret (f r)) c as is =
      some ((result, c'), as', is')) :
    ∃ r, playClient aEnd e x c as is = some (r, as', is') ∧ f r = (result, c') := by
  change Proc.play aEnd (.error e) (Proc.bind (x c) _) as is = _ at h
  rw [Proc.play_bind] at h
  obtain ⟨⟨r, as₁, is₁⟩, hx, hret⟩ := Option.bind_eq_some_iff.mp h
  obtain ⟨hr, has⟩ := Prod.mk.inj (Option.some.inj hret)
  obtain ⟨rfl, rfl⟩ := Prod.mk.inj has
  exact ⟨r, hx, hr⟩

/-- However it ends, the action takes no message of a peer, unless it finds the queue
full. -/
def Keeps (aEnd : Sent) (e : MailboxError) (x : ClientM MailboxError α) : Prop :=
  ∀ c as is result c' as' is', playClient aEnd e x c as is = some ((result, c'), as', is') →
    c'.side = c.side ∧ (result ≠ .error .pendingExceeded → c'.backlog is' = c.backlog is)

namespace Keeps

theorem pure (a : α) : Keeps aEnd e (ClientM.pure a) := by
  intro c as is result c' as' is' hplay
  cases hplay
  exact ⟨rfl, fun _ => rfl⟩

theorem fail (e' : MailboxError) : Keeps aEnd e (ClientM.fail e' : ClientM MailboxError α) := by
  intro c as is result c' as' is' hplay
  cases hplay
  exact ⟨rfl, fun _ => rfl⟩

theorem modify {f : MailboxClient → MailboxClient}
    (hf : ∀ c, (f c).side = c.side ∧ (f c).pending = c.pending) :
    Keeps aEnd e (ClientM.modify f) := by
  intro c as is result c' as' is' hplay
  cases hplay
  refine ⟨(hf c).1, fun _ => ?_⟩
  rw [MailboxClient.backlog, MailboxClient.backlog, (hf c).1, (hf c).2]

theorem bind {x : ClientM MailboxError α} {g : α → ClientM MailboxError β} (hx : Keeps aEnd e x)
    (hg : ∀ a, Keeps aEnd e (g a)) : Keeps aEnd e (x >>= g) := by
  intro c as is result c' as' is' hplay
  change Proc.play aEnd (.error e) (Proc.bind (x c) _) as is = _ at hplay
  rw [Proc.play_bind] at hplay
  obtain ⟨⟨⟨first, c₁⟩, as₁, is₁⟩, hfirst, hrest⟩ := Option.bind_eq_some_iff.mp hplay
  obtain ⟨hside, hback⟩ := hx c as is first c₁ as₁ is₁ hfirst
  cases first with
  | error e' =>
    cases hrest
    exact ⟨hside, fun hroom => hback fun heq => hroom (by cases heq; rfl)⟩
  | ok a =>
    obtain ⟨hside', hback'⟩ := hg a c₁ as₁ is₁ result c' as' is' hrest
    exact ⟨hside'.trans hside, fun hroom => (hback' hroom).trans (hback (by simp))⟩

end Keeps

theorem keeps_send (message : ClientMessage) : Keeps aEnd e (send message) := by
  intro c as is result c' as' is' hplay
  cases hplay
  exact ⟨rfl, fun _ => rfl⟩

/-- What a waiting command does with a frame: it queues a message, or finds the queue
full, and nothing else touches the queue. -/
theorem hearSetup_cases (judge : ServerMessage → Heard α) (c : MailboxClient) (r : Received) :
    (∃ m, r = .ok (.message m) ∧
      (hearSetup judge c r = .inl { c with pending := c.pending ++ [m] } ∨
        hearSetup judge c r = .inr (.error .pendingExceeded, c))) ∨
    ((∀ is, messagesIn (r :: is) = messagesIn is) ∧
      (hearSetup judge c r = .inl c ∨ ∃ result, hearSetup judge c r = .inr (result, c))) := by
  cases r with
  | error e => exact .inr ⟨fun _ => rfl, .inr ⟨_, rfl⟩⟩
  | ok frame =>
    cases frame with
    | message m =>
      refine .inl ⟨m, rfl, ?_⟩
      rw [hearSetup, bufferPending]
      by_cases hfull : c.pending.length ≥ maxPendingMessages
      · rw [if_pos hfull]
        exact .inr rfl
      · rw [if_neg hfull]
        exact .inl rfl
    | error e => exact .inr ⟨fun _ => rfl, .inr ⟨_, rfl⟩⟩
    | _ =>
      refine .inr ⟨fun _ => rfl, ?_⟩
      simp only [hearSetup]
      cases judge _ with
      | skip => exact .inl rfl
      | done | refuse => exact .inr ⟨_, rfl⟩

theorem readUntil_hearSetup (judge : ServerMessage → Heard α) {result : Except MailboxError α}
    (hread : Proc.readUntil (.error e) (hearSetup judge) c is = some ((result, c'), is')) :
    c'.side = c.side ∧ (result ≠ .error .pendingExceeded → c'.backlog is' = c.backlog is) := by
  induction is generalizing c with
  | nil =>
    cases hread
    exact ⟨rfl, fun _ => rfl⟩
  | cons r is ih =>
    rw [Proc.readUntil] at hread
    rcases hearSetup_cases judge c r with ⟨m, rfl, hqueue | hfull⟩ | ⟨hother, hstay | ⟨res, hleave⟩⟩
    · rw [hqueue] at hread
      obtain ⟨hside, hback⟩ := ih hread
      exact ⟨hside, fun hroom => (hback hroom).trans (backlog_queue c m is)⟩
    · rw [hfull] at hread
      cases hread
      exact ⟨rfl, fun hroom => absurd rfl hroom⟩
    · rw [hstay] at hread
      obtain ⟨hside, hback⟩ := ih hread
      refine ⟨hside, fun hroom => (hback hroom).trans ?_⟩
      rw [MailboxClient.backlog, MailboxClient.backlog, hother]
    · rw [hleave] at hread
      cases hread
      refine ⟨rfl, fun _ => ?_⟩
      rw [MailboxClient.backlog, MailboxClient.backlog, hother]

theorem keeps_awaitFrame (judge : ServerMessage → Heard α) : Keeps aEnd e (awaitFrame judge) := by
  intro c as is result c' as' is' hplay
  cases hread : Proc.readUntil (.error e) (hearSetup judge) c is with
  | none => simp [playClient, awaitFrame, Proc.play, hread] at hplay
  | some r =>
    obtain ⟨r, is₁⟩ := r
    simp only [playClient, awaitFrame, Proc.play, hread, Option.some.injEq, Prod.mk.injEq] at hplay
    obtain ⟨rfl, -, rfl⟩ := hplay
    exact readUntil_hearSetup judge hread

theorem keeps_ensureBound : Keeps aEnd e ensureBound := by
  intro c as is result c' as' is' hplay
  by_cases hbound : c.bound = true
  · simp only [playClient, ensureBound, hbound, if_true] at hplay
    exact Keeps.pure () c as is result c' as' is' hplay
  · simp only [playClient, ensureBound, hbound, if_false, Bool.false_eq_true] at hplay
    have hkeeps : Keeps aEnd e (do
        send (.bind c.appid c.side)
        ClientM.modify fun c => { c with bound := true }) :=
      (keeps_send _).bind fun _ => Keeps.modify fun _ => ⟨rfl, rfl⟩
    exact hkeeps c as is result c' as' is' hplay

theorem keeps_awaitWelcome : Keeps aEnd e awaitWelcome := by
  refine Keeps.bind (keeps_awaitFrame _) fun frame => ?_
  cases frame with
  | welcome text => exact Keeps.pure ()
  | _ => exact Keeps.fail _

theorem keeps_claimNameplateAndOpen (nameplate : String) :
    Keeps aEnd e (claimNameplateAndOpen nameplate) := by
  refine (keeps_send _).bind fun _ => (keeps_awaitFrame _).bind fun frame => ?_
  cases frame with
  | claimed mailbox =>
    exact (keeps_send _).bind fun _ => (keeps_awaitFrame _).bind fun _ =>
      (Keeps.modify (f := fun c => { c with mailbox := some mailbox })
        fun _ => ⟨rfl, rfl⟩).bind fun _ => Keeps.pure _
  | _ => exact Keeps.fail _

theorem keeps_claimAndOpen (nameplate : String) : Keeps aEnd e (claimAndOpen nameplate) :=
  keeps_ensureBound.bind fun _ => keeps_awaitWelcome.bind fun _ =>
    keeps_claimNameplateAndOpen nameplate

theorem keeps_sendPhase (phase : String) (body : Bytes) : Keeps aEnd e (sendPhase phase body) :=
  (keeps_send _).bind fun _ => keeps_awaitFrame _

theorem keeps_closeWith (mood : String) : Keeps aEnd e (closeWith mood) :=
  (keeps_send _).bind fun _ => keeps_awaitFrame _

/-! ## What a receive takes from it -/

def answerPhase (phase : String) (m : PhaseMessage) : Except MailboxError PhaseMessage :=
  if m.phase ≠ phase then .error (.unexpectedPhase phase m.phase) else .ok m

/-- Frames, without an error of the server or of the transport. -/
def Traffic : Received → Prop
  | .ok (.error _) | .error _ => False
  | .ok _ => True

/-- The error of a receive that reads the answer to a command. -/
def replyError : ServerMessage → Option MailboxError
  | .closed mood => some (.closed mood)
  | .ack _ | .message _ | .error _ => none
  | reply => some (.unexpectedFrame "message" reply)

theorem answerPhase_eq_ok {phase : String} {m m' : PhaseMessage}
    (h : answerPhase phase m = .ok m') : m' = m ∧ m.phase = phase := by
  rw [answerPhase] at h
  split at h
  · cases h
  · cases h
    exact ⟨rfl, not_not.mp ‹_›⟩

theorem takePending_spec (side phase : String) (pending : List PhaseMessage) :
    (fromPeers side pending = [] ∧ takePending side phase pending = (none, [])) ∨
    ∃ m left, fromPeers side pending = m :: fromPeers side left ∧
      takePending side phase pending = (some (answerPhase phase m), left) := by
  induction pending with
  | nil => exact .inl ⟨rfl, rfl⟩
  | cons m pending ih =>
    by_cases hown : m.side = side
    · rw [fromPeers_cons_own hown, takePending, if_pos hown]
      exact ih
    · rw [fromPeers_cons_peer hown, takePending, if_neg hown]
      refine .inr ⟨m, pending, rfl, ?_⟩
      rw [answerPhase]
      split <;> rfl

def ReadsReply (is : List Received) (error : MailboxError) : Prop :=
  ∃ reply, .ok reply ∈ is ∧ replyError reply = some error

/-- What a receive does to the messages ahead of it: it answers the first, or it fails and
takes none. When the script has no errors in it, the second is so only if there is none, or
the answer to a command comes first. -/
def Answered (phase : String) (is : List Received) (before : List PhaseMessage)
    (result : Except MailboxError PhaseMessage) (after : List PhaseMessage) : Prop :=
  (∃ m, before = m :: after ∧ result = answerPhase phase m) ∨
    ∃ error, result = .error error ∧ after = before ∧
      ((∀ r ∈ is, Traffic r) → before = [] ∨ ReadsReply is error)

/-- What a receive that reads on comes to. -/
def AnswersFrom (e : MailboxError) (side phase : String) (is : List Received) : Prop :=
  ∃ result is', Proc.readUntil (.error e) (hearPhase side phase) () is = some (result, is') ∧
    Answered phase is (fromPeers side (messagesIn is)) result (fromPeers side (messagesIn is'))

variable {side phase : String} {r : Received} {is : List Received}

/-- A frame that is passed over: an acknowledgement, or one's own message. -/
theorem AnswersFrom.skip (h : AnswersFrom e side phase is)
    (hnone : fromPeers side (messagesIn (r :: is)) = fromPeers side (messagesIn is))
    (hround : hearPhase side phase () r = .inl ()) : AnswersFrom e side phase (r :: is) := by
  obtain ⟨result, is', hread, hspec⟩ := h
  refine ⟨result, is', ?_, ?_⟩
  · rw [Proc.readUntil, hround]
    exact hread
  · rw [hnone]
    rcases hspec with hgot | ⟨error, herror, hsame, hend⟩
    · exact .inl hgot
    · refine .inr ⟨error, herror, hsame, fun h => ?_⟩
      refine (hend fun r hr => h r (mem_cons_of_mem _ hr)).imp_right ?_
      rintro ⟨reply, hmem, hreply⟩
      exact ⟨reply, mem_cons_of_mem _ hmem, hreply⟩

/-- A frame that a receive does not await. -/
theorem AnswersFrom.fail (error : MailboxError)
    (hround : hearPhase side phase () r = .inr (.error error))
    (htraffic : Traffic r → ∃ reply, r = .ok reply ∧ replyError reply = some error)
    (hnone : fromPeers side (messagesIn (r :: is)) = fromPeers side (messagesIn is)) :
    AnswersFrom e side phase (r :: is) := by
  refine ⟨.error error, is, ?_, .inr ⟨error, rfl, hnone.symm, fun h => ?_⟩⟩
  · rw [Proc.readUntil, hround]
  · obtain ⟨reply, rfl, hreply⟩ := htraffic (h r mem_cons_self)
    exact .inr ⟨reply, mem_cons_self, hreply⟩

theorem readUntil_hearPhase (side phase : String) (is : List Received) :
    AnswersFrom e side phase is := by
  induction is with
  | nil => exact ⟨.error e, [], rfl, .inr ⟨e, rfl, rfl, fun _ => .inl rfl⟩⟩
  | cons r is ih =>
    cases r with
    | error e' => exact .fail e' rfl False.elim rfl
    | ok frame =>
      cases frame with
      | ack id => exact ih.skip rfl rfl
      | message m =>
        by_cases hown : m.side = side
        · refine ih.skip (fromPeers_cons_own hown) ?_
          rw [hearPhase, if_pos hown]
        · refine ⟨answerPhase phase m, is, ?_, .inl ⟨m, fromPeers_cons_peer hown, rfl⟩⟩
          have hround : hearPhase side phase () (.ok (.message m)) =
              .inr (answerPhase phase m) := by
            rw [hearPhase, if_neg hown, answerPhase]
            split <;> rfl
          rw [Proc.readUntil, hround]
      | error => exact .fail _ rfl False.elim rfl
      | closed | welcome | allocated | claimed | released =>
        exact .fail _ rfl (fun _ => ⟨_, rfl, rfl⟩) rfl

/-- **A receive answers the first message of the backlog.** -/
theorem play_recvPhaseFromPeer (aEnd : Sent) (e : MailboxError) (phase : String)
    (c : MailboxClient) (as : List Sent) (is : List Received) :
    ∃ result c' is', playClient aEnd e (recvPhaseFromPeer phase) c as is =
        some ((result, c'), as, is') ∧ c'.side = c.side ∧
      Answered phase is (c.backlog is) result (c'.backlog is') := by
  rcases takePending_spec c.side phase c.pending with ⟨hnone, htake⟩ | ⟨m, left, hsome, htake⟩
  · obtain ⟨result, is', hread, hspec⟩ := readUntil_hearPhase (e := e) c.side phase is
    have hback : c.backlog is = fromPeers c.side (messagesIn is) := by
      rw [MailboxClient.backlog, fromPeers_append, hnone, nil_append]
    refine ⟨result, { c with pending := [] }, is', ?_, rfl, ?_⟩
    · simp [playClient, recvPhaseFromPeer, htake, Proc.play, hread]
    · rw [hback]
      exact hspec
  · refine ⟨answerPhase phase m, { c with pending := left }, is, ?_, rfl, .inl ⟨m, ?_, rfl⟩⟩
    · simp [playClient, recvPhaseFromPeer, htake, Proc.play]
    · rw [MailboxClient.backlog, fromPeers_append, hsome, cons_append, ← fromPeers_append]
      rfl

end Takes

/-! ## Actions return -/

section Returns

variable {ε ε' α β : Type} {e : MailboxError}

def Returns (e : MailboxError) (x : ClientM ε α) : Prop := ∀ c, (x c).Closes (.error e)

theorem Returns.pure (a : α) : Returns e (ClientM.pure a : ClientM ε α) := fun _ => trivial

theorem Returns.fail (e' : ε) : Returns e (ClientM.fail e' : ClientM ε α) := fun _ => trivial

theorem Returns.modify (f : MailboxClient → MailboxClient) :
    Returns e (ClientM.modify f : ClientM ε Unit) := fun _ => trivial

variable {x : ClientM ε α}

theorem Returns.bind (hx : Returns e x) (hg : ∀ a, Returns e (g a)) : Returns e (x >>= g) := by
  intro c
  refine Proc.Closes.bind (hx c) fun r => ?_
  obtain ⟨result, c'⟩ := r
  cases result with
  | ok a => exact hg a c'
  | error e' => trivial

theorem Returns.map (hx : Returns e x)
    (f : Except ε α × MailboxClient → Except ε' β × MailboxClient) :
    Returns e fun c => (x c).bind fun r => .ret (f r) :=
  fun c => Proc.Closes.bind (hx c) fun _ => trivial

theorem returns_send (message : ClientMessage) : Returns e (send message) := fun _ _ => trivial

theorem returns_awaitFrame (judge : ServerMessage → Heard α) : Returns e (awaitFrame judge) :=
  fun _ => ⟨fun s => ⟨(.error e, s), rfl⟩, fun _ => trivial⟩

theorem returns_recvPhaseFromPeer (phase : String) : Returns e (recvPhaseFromPeer phase) := by
  intro c
  cases htake : takePending c.side phase c.pending with
  | mk result rest =>
    cases result with
    | some result =>
      simp only [recvPhaseFromPeer, htake]
      trivial
    | none =>
      simp only [recvPhaseFromPeer, htake]
      exact ⟨fun _ => ⟨.error e, rfl⟩, fun _ => trivial⟩

theorem returns_ensureBound : Returns e ensureBound := by
  intro c
  unfold ensureBound
  split
  · trivial
  · have hreturns : Returns e (do
        send (.bind c.appid c.side)
        ClientM.modify fun c => { c with bound := true }) :=
      (returns_send _).bind fun _ => Returns.modify _
    exact hreturns c

theorem returns_awaitWelcome : Returns e awaitWelcome := by
  refine (returns_awaitFrame _).bind fun frame => ?_
  cases frame <;> exact fun _ => trivial

theorem returns_claimNameplateAndOpen (nameplate : String) :
    Returns e (claimNameplateAndOpen nameplate) := by
  refine (returns_send _).bind fun _ => (returns_awaitFrame _).bind fun frame => ?_
  cases frame with
  | claimed mailbox =>
    exact (returns_send _).bind fun _ => (returns_awaitFrame _).bind fun _ =>
      (Returns.modify _).bind fun _ => Returns.pure _
  | _ => exact fun _ => trivial

theorem returns_claimAndOpen (nameplate : String) : Returns e (claimAndOpen nameplate) :=
  returns_ensureBound.bind fun _ => returns_awaitWelcome.bind fun _ =>
    returns_claimNameplateAndOpen nameplate

theorem returns_closeWith (mood : String) : Returns e (closeWith mood) :=
  (returns_send _).bind fun _ => returns_awaitFrame _

end Returns

end Portl
