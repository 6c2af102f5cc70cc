import Portl.Rendezvous.Server

/-!
# Where a side stands in its script

`Standing` says what a side is doing and what is on the way to it and from it. It
is kept by everything that can happen to the side: it is sent a message, the server
answers it, or it takes a frame. The scripts enter only through one fact: what a
side has still to hear begins with what it was sent (`Unread`).
-/

namespace Portl

open MailboxClient List

/-! ## Messages of a side -/

def messagesOf (side : String) (log : List PhaseMessage) : List (String × Bytes) :=
  (log.filter fun m => m.side = side).map fun m => (m.phase, m.body)

section Messages

variable {side : String} {m : PhaseMessage} {log log' : List PhaseMessage}

theorem messagesOf_append :
    messagesOf side (log ++ log') = messagesOf side log ++ messagesOf side log' := by
  simp [messagesOf]

theorem messagesOf_cons_eq (h : m.side = side) :
    messagesOf side (m :: log) = (m.phase, m.body) :: messagesOf side log := by
  simp [messagesOf, h]

theorem messagesOf_cons_ne (h : m.side ≠ side) :
    messagesOf side (m :: log) = messagesOf side log := by
  simp [messagesOf, h]

variable {other : String}

theorem messagesOf_of_other (hne : other ≠ side) (h : ∀ m ∈ log, m.side = other) :
    messagesOf side log = [] := by
  induction log with
  | nil => rfl
  | cons m log ih =>
    rw [messagesOf_cons_ne (h m mem_cons_self ▸ hne)]
    exact ih fun x hx => h x (mem_cons_of_mem m hx)

theorem length_eq_messagesOf (hne : side ≠ other) (h : ∀ m ∈ log, m.side = side ∨ m.side = other) :
    log.length = (messagesOf side log).length + (messagesOf other log).length := by
  induction log with
  | nil => rfl
  | cons m log ih =>
    have htail := ih fun x hx => h x (mem_cons_of_mem m hx)
    rcases h m mem_cons_self with hm | hm
    · rw [messagesOf_cons_eq hm, messagesOf_cons_ne (hm ▸ hne)]
      simp only [length_cons]
      omega
    · rw [messagesOf_cons_ne (hm ▸ hne.symm), messagesOf_cons_eq hm]
      simp only [length_cons]
      omega

end Messages

section Acts

variable {acts acts' : List Act}

theorem hears_append : hears (acts ++ acts') = hears acts ++ hears acts' := by
  induction acts with
  | nil => rfl
  | cons act acts ih =>
    cases act with
    | ask command reply => exact ih
    | hear phase body => exact congrArg (List.cons (phase, body)) ih

theorem adds_append : adds (acts ++ acts') = adds acts ++ adds acts' := by
  induction acts with
  | nil => rfl
  | cons act acts ih =>
    cases act with
    | ask command reply =>
      cases command with
      | add phase body => exact congrArg (List.cons (phase, body)) ih
      | _ => exact ih
    | hear phase body => exact ih

theorem asks_append : asks (acts ++ acts') = asks acts + asks acts' := by
  induction acts with
  | nil => exact (Nat.zero_add _).symm
  | cons act acts ih =>
    cases act with
    | ask command reply =>
      show asks (acts ++ acts') + 1 = asks acts + 1 + asks acts'
      omega
    | hear phase body => exact ih

theorem adds_of_asks_zero (h : asks acts = 0) : adds acts = [] := by
  induction acts with
  | nil => rfl
  | cons act acts ih =>
    cases act with
    | ask command reply => exact absurd h (Nat.succ_ne_zero _)
    | hear phase body => exact ih h

end Acts

/-! ## Where a side stands -/

def Reply.Answers (reply : Reply) (answer : List ServerMessage) : Prop :=
  ∃ frame, reply.Matches frame ∧
    (answer = [frame] ∨ reply ≠ .ack ∧ ∃ id, answer = [.ack id, frame])

/-- A side with the acts still before it, the messages it was sent and has not
used, and whether the server is ahead of it. -/
inductive Standing (own peer : String) (outcome : Outcome) (acts : List Act) (p : Party)
    (unread : List PhaseMessage) (ahead : Nat) : Prop where
  /-- the command is on its way -/
  | asked {command : ClientMessage} {reply : Reply} {rest : List Act}
      {Q : List PhaseMessage → Side} {G : Course} {pending queue : List PhaseMessage}
      (hacts : acts = .ask command reply :: rest) (hQ : Awaits Q reply G)
      (hG : Follows own peer outcome rest G) (hproc : p.proc = Q pending)
      (hinbox : p.inbox = queue.map .message) (houtbox : p.outbox = [command])
      (hunread : unread = pending ++ queue) (hahead : ahead = 0)
  /-- the answer is on its way -/
  | answered {command : ClientMessage} {reply : Reply} {rest : List Act}
      {Q : List PhaseMessage → Side} {G : Course} {pending before after : List PhaseMessage}
      {answer : List ServerMessage}
      (hacts : acts = .ask command reply :: rest) (hQ : Awaits Q reply G)
      (hG : Follows own peer outcome rest G) (hproc : p.proc = Q pending)
      (hanswer : reply.Answers answer)
      (hinbox : p.inbox = before.map .message ++ (answer ++ after.map .message))
      (houtbox : p.outbox = []) (hunread : unread = pending ++ (before ++ after))
      (hahead : ahead = 1)
  | listening {phase : String} {body : Bytes} {rest : List Act} {F G : Course} {q : Side}
      (hacts : acts = .hear phase body :: rest) (hF : Hears own peer phase body F q G)
      (hG : Follows own peer outcome rest G) (hproc : p.proc = q)
      (hinbox : p.inbox = unread.map .message) (houtbox : p.outbox = []) (hahead : ahead = 0)
  | finished (hacts : acts = []) (hproc : p.proc = .ret outcome) (houtbox : p.outbox = [])
      (hahead : ahead = 0)

section Standing

variable {own peer : String} {outcome : Outcome} {acts : List Act} {p : Party}
  {unread : List PhaseMessage} {ahead : Nat}

variable (h : Standing own peer outcome acts p unread ahead)
include h

theorem Standing.outcome_eq {result : Outcome} (hret : p.proc = .ret result) :
    result = outcome := by
  cases h with
  | asked _ hQ _ hproc | answered _ hQ _ hproc =>
    exact absurd (hproc.symm.trans hret) (hQ.waits _ _)
  | listening _ hF _ hproc => exact absurd (hproc.symm.trans hret) (hF.waits _)
  | finished _ hproc =>
    cases hret.symm.trans hproc
    rfl

theorem Standing.tell (m : PhaseMessage) :
    Standing own peer outcome acts (p.tell [.message m]) (unread ++ [m]) ahead := by
  cases h with
  | @asked _ _ _ _ _ pending queue hacts hQ hG hproc hinbox houtbox hunread hahead =>
    have htold : (p.tell [.message m]).inbox = (queue ++ [m]).map .message := by
      simp [Party.tell, hinbox]
    exact .asked hacts hQ hG hproc htold houtbox (by rw [hunread, append_assoc]) hahead
  | @answered _ _ _ _ _ pending before after answer hacts hQ hG hproc hanswer hinbox houtbox
      hunread hahead =>
      have htold : (p.tell [.message m]).inbox =
          before.map .message ++ (answer ++ (after ++ [m]).map .message) := by
        simp [Party.tell, hinbox]
      exact .answered hacts hQ hG hproc hanswer htold houtbox
        (by simp [hunread]) hahead
  | listening hacts hF hG hproc hinbox houtbox hahead =>
    refine .listening hacts hF hG hproc ?_ houtbox hahead
    simp [Party.tell, hinbox]
  | finished hacts hproc houtbox hahead => exact .finished hacts hproc houtbox hahead

variable {p' : Party} {reply : Reply} {rest : List Act} {pending queue : List PhaseMessage}
  {r : List ClientMessage × Side}

theorem Standing.serve {command : ClientMessage} (hacts : acts = .ask command reply :: rest)
    (hasked : p.outbox ≠ []) {answer : List ServerMessage} (hanswer : reply.Answers answer)
    (after : List PhaseMessage) (hproc : p'.proc = p.proc)
    (hinbox : p'.inbox = p.inbox ++ (answer ++ after.map .message)) (houtbox : p'.outbox = []) :
    Standing own peer outcome acts p' (unread ++ after) 1 := by
  cases h with
  | asked hacts' hQ hG hproc' hinbox' _ hunread _ =>
    cases hacts.symm.trans hacts'
    exact .answered hacts hQ hG (hproc.trans hproc') hanswer (by rw [hinbox, hinbox']) houtbox
      (by rw [hunread, append_assoc]) rfl
  | answered _ _ _ _ _ _ hempty | listening _ _ _ _ _ hempty | finished _ _ hempty =>
    exact absurd hempty hasked

omit h

theorem own_or_split (own : String) (pending : List PhaseMessage) :
    (∀ m ∈ pending, m.side = own) ∨ ∃ before m after, pending = before ++ m :: after ∧
      (∀ x ∈ before, x.side = own) ∧ m.side ≠ own := by
  induction pending with
  | nil => exact .inl fun m hm => absurd hm not_mem_nil
  | cons m pending ih =>
    by_cases hm : m.side = own
    · rcases ih with hall | ⟨before, x, after, rfl, hbefore, hx⟩
      · exact .inl (forall_mem_cons.mpr ⟨hm, hall⟩)
      · exact .inr ⟨m :: before, x, after, rfl, forall_mem_cons.mpr ⟨hm, hbefore⟩, hx⟩
    · exact .inr ⟨[], m, pending, rfl, fun x hx => absurd hx not_mem_nil, hm⟩

structure Unread (own peer : String) (unread : List PhaseMessage) (acts : List Act) : Prop where
  sides : ∀ m ∈ unread, m.side = own ∨ m.side = peer
  awaited : hears acts ≠ [] → messagesOf peer unread <+: hears acts

theorem Unread.is {before after : List PhaseMessage} {m : PhaseMessage} {phase : String}
    {body : Bytes} (hne : own ≠ peer)
    (h : Unread own peer (before ++ m :: after) (.hear phase body :: rest))
    (hbefore : ∀ x ∈ before, x.side = own) (hm : m.side ≠ own) :
    m.Is peer phase body ∧ Unread own peer after rest ∧
      messagesOf peer (before ++ m :: after) = (phase, body) :: messagesOf peer after := by
  have hpeer : m.side = peer :=
    (h.sides m (mem_append_right _ mem_cons_self)).resolve_left hm
  have hsplit : messagesOf peer (before ++ m :: after) =
      (m.phase, m.body) :: messagesOf peer after := by
    rw [messagesOf_append, messagesOf_of_other hne hbefore, nil_append,
      messagesOf_cons_eq hpeer]
  have hprefix : (m.phase, m.body) :: messagesOf peer after <+: (phase, body) :: hears rest :=
    hsplit ▸ h.awaited (cons_ne_nil _ _)
  obtain ⟨hhead, htail⟩ := cons_prefix_cons.mp hprefix
  obtain ⟨hphase, hbody⟩ := Prod.mk.inj hhead
  refine ⟨⟨hpeer, hphase, hbody⟩, ⟨fun x hx => h.sides x ?_, fun _ => htail⟩, hhead ▸ hsplit⟩
  exact mem_append_right _ (mem_cons_of_mem m hx)

/-- Where a side comes to stand that has done an act: it goes on through what it
can hear from its queue. -/
theorem Follows.enter {F : Course} (hF : Follows own peer outcome acts F) (hne : own ≠ peer)
    (hproc : p.proc = (F pending).2) (houtbox : p.outbox = (F pending).1)
    (hinbox : p.inbox = queue.map .message) (hunread : Unread own peer (pending ++ queue) acts) :
    ∃ k unread, Standing own peer outcome (acts.drop k) p unread 0 ∧
      asks (acts.take k) = 0 ∧ unread <:+: pending ++ queue ∧
      messagesOf peer (pending ++ queue) = hears (acts.take k) ++ messagesOf peer unread := by
  induction acts generalizing F pending with
  | nil =>
    rw [hF pending] at hproc houtbox
    exact ⟨0, pending ++ queue, .finished rfl hproc houtbox rfl, rfl, infix_rfl, rfl⟩
  | cons act rest ih =>
    cases act with
    | ask command reply =>
      obtain ⟨Q, G, hfirst, hQ, hG⟩ := hF
      rw [hfirst pending] at hproc houtbox
      exact ⟨0, pending ++ queue, .asked rfl hQ hG hproc hinbox houtbox rfl rfl, rfl,
        infix_rfl, rfl⟩
    | hear phase body =>
      obtain ⟨q, G, hhears, hG⟩ := hF
      rcases own_or_split own pending with hown | ⟨before, m, after, rfl, hbefore, hm⟩
      · rw [hhears.empty pending hown] at hproc houtbox
        refine ⟨0, queue, .listening rfl hhears hG hproc hinbox houtbox rfl, rfl,
          (suffix_append _ _).isInfix, ?_⟩
        rw [messagesOf_append, messagesOf_of_other hne hown]
        rfl
      · rw [append_assoc, cons_append] at hunread ⊢
        obtain ⟨his, hrest, hmessages⟩ := hunread.is hne hbefore hm
        rw [hhears.found before m after hbefore his] at hproc houtbox
        obtain ⟨k, unread, hstanding, hasks, hinfix, heq⟩ := ih hG hproc houtbox hrest
        refine ⟨k + 1, unread, hstanding, hasks, ?_, ?_⟩
        · exact hinfix.trans ⟨before ++ [m], [], by simp⟩
        · rw [hmessages, heq]
          rfl

def Party.take (p : Party) (frame : ServerMessage) (inbox : List ServerMessage) : Party :=
  { p with
    proc := (p.proc.hand frame).2, inbox := inbox, outbox := p.outbox ++ (p.proc.hand frame).1 }

variable {frame : ServerMessage} {inbox : List ServerMessage}

theorem Party.take_proc (h : p.proc.hand frame = r) : (p.take frame inbox).proc = r.2 := by
  rw [← h]
  rfl

theorem Party.take_outbox (h : p.proc.hand frame = r) :
    (p.take frame inbox).outbox = p.outbox ++ r.1 := by
  rw [← h]
  rfl

theorem Awaits.keeps {Q : List PhaseMessage → Side} {G : Course} (hQ : Awaits Q reply G)
    (hproc : p.proc = Q pending) (hroom : (pending ++ queue).length < maxPendingMessages)
    (m : PhaseMessage) : p.proc.hand (.message m) = ([], Q (pending ++ [m])) := by
  rw [hproc]
  refine hQ.buffers pending m (Nat.lt_of_le_of_lt ?_ hroom)
  rw [length_append]
  exact Nat.le_add_right _ _

theorem asks_drop {k : Nat} (h : asks (acts.take k) = 0) : asks (acts.drop k) = asks acts := by
  have hsplit : asks (acts.take k ++ acts.drop k) = asks acts := by rw [take_append_drop]
  rw [asks_append] at hsplit
  omega

/-- The step from one standing to the next: `k` acts are done, and the server has
served no other commands than before. -/
structure Onward (own peer : String) (outcome : Outcome) (acts : List Act) (ahead : Nat)
    (unread : List PhaseMessage) (p' : Party) (k ahead' : Nat) (unread' : List PhaseMessage) :
    Prop where
  standing : Standing own peer outcome (acts.drop k) p' unread' ahead'
  left : asks (acts.drop (k + ahead')) = asks (acts.drop ahead)
  added : adds (acts.take (k + ahead')) = adds (acts.take ahead)
  kept : unread' <:+: unread
  heard : messagesOf peer unread = hears (acts.take k) ++ messagesOf peer unread'

theorem Onward.stay {unread' : List PhaseMessage}
    (h : Standing own peer outcome acts p' unread' ahead) (hkept : unread' <:+: unread)
    (hheard : messagesOf peer unread = messagesOf peer unread') :
    Onward own peer outcome acts ahead unread p' 0 ahead unread' :=
  ⟨h, by rw [Nat.zero_add], by rw [Nat.zero_add], hkept, hheard⟩

theorem Standing.take (h : Standing own peer outcome acts p unread ahead) (hne : own ≠ peer)
    (hroom : unread.length < maxPendingMessages) (hunread : Unread own peer unread acts)
    (hinbox : p.inbox = frame :: inbox) :
    ∃ k ahead' unread', Onward own peer outcome acts ahead unread (p.take frame inbox) k ahead'
      unread' := by
  cases h with
  | @asked command reply rest Q G pending queue hacts hQ hG hproc hqueue houtbox hsplit hahead =>
    subst hsplit hacts hahead
    -- only messages are on the way, and they are kept for later
    cases queue with
    | nil => cases hqueue.symm.trans hinbox
    | cons m queue =>
      obtain ⟨rfl, rfl⟩ := List.cons.inj (hinbox.symm.trans hqueue)
      have hhand := hQ.keeps hproc hroom m
      refine ⟨0, 0, _, .stay (.asked rfl hQ hG (Party.take_proc hhand) rfl ?_ ?_ rfl)
        infix_rfl rfl⟩
      · rw [Party.take_outbox hhand, houtbox]
        rfl
      · rw [append_assoc]
        rfl
  | @answered command reply rest Q G pending before after answer hacts hQ hG hproc hanswer hqueue
      houtbox hsplit hahead =>
      subst hsplit hacts hahead
      cases before with
      | cons m before =>
        obtain ⟨rfl, rfl⟩ := List.cons.inj (hinbox.symm.trans hqueue)
        have hhand := hQ.keeps hproc hroom m
        refine ⟨0, 1, _, .stay (.answered rfl hQ hG (Party.take_proc hhand) hanswer rfl ?_ ?_ rfl)
          infix_rfl rfl⟩
        · rw [Party.take_outbox hhand, houtbox]
          rfl
        · rw [append_assoc]
          rfl
      | nil =>
        obtain ⟨reached, hmatch, rfl | ⟨hreply, id, rfl⟩⟩ := hanswer
        · obtain ⟨rfl, rfl⟩ := List.cons.inj (hinbox.symm.trans hqueue)
          have hhand : p.proc.hand frame = G pending := by
            rw [hproc]
            exact hQ.answered pending frame hmatch
          have hempty : (p.take frame (after.map .message)).outbox = (G pending).1 := by
            rw [Party.take_outbox hhand, houtbox, nil_append]
          obtain ⟨k, unread', hstanding, hasks, hkept, hheard⟩ :=
            hG.enter hne (Party.take_proc hhand) hempty rfl ⟨hunread.sides, hunread.awaited⟩
          refine ⟨k + 1, 0, unread', hstanding, asks_drop hasks, ?_, hkept, hheard⟩
          show adds ([.ask command reply] ++ rest.take k) = adds [.ask command reply]
          rw [adds_append, adds_of_asks_zero hasks, append_nil]
        · obtain ⟨rfl, rfl⟩ := List.cons.inj (hinbox.symm.trans hqueue)
          have hhand : p.proc.hand (.ack id) = ([], Q pending) := by
            rw [hproc]
            exact hQ.skips hreply pending id
          have hrest : (p.take (.ack id) ([reached] ++ after.map .message)).inbox =
              ([] : List PhaseMessage).map .message ++ ([reached] ++ after.map .message) := rfl
          refine ⟨0, 1, _, .stay (.answered rfl hQ hG (Party.take_proc hhand)
            ⟨reached, hmatch, .inl rfl⟩ hrest ?_ rfl rfl) infix_rfl rfl⟩
          rw [Party.take_outbox hhand, houtbox]
          rfl
  | @listening phase body rest F G q hacts hF hG hproc hqueue houtbox hahead =>
    subst hacts hahead
    cases unread with
    | nil => cases hqueue.symm.trans hinbox
    | cons m queue =>
      obtain ⟨rfl, rfl⟩ := List.cons.inj (hinbox.symm.trans hqueue)
      have hsuffix : queue <:+: m :: queue := (suffix_cons m queue).isInfix
      by_cases hown : m.side = own
      · have hhand : p.proc.hand (.message m) = ([], q) := by
          rw [hproc]
          exact hF.skips m hown
        refine ⟨0, 0, queue, .stay (.listening rfl hF hG (Party.take_proc hhand) rfl ?_ rfl)
          hsuffix (messagesOf_cons_ne (hown ▸ hne))⟩
        rw [Party.take_outbox hhand, houtbox]
        rfl
      · have hqueued : Unread own peer ([] ++ m :: queue) _ := hunread
        obtain ⟨his, hrest, hmessages⟩ :=
          hqueued.is hne (fun x hx => absurd hx not_mem_nil) hown
        have hhand : p.proc.hand (.message m) = G [] := by
          rw [hproc]
          exact hF.heard m his
        have hempty : (p.take (.message m) (queue.map .message)).outbox = (G []).1 := by
          rw [Party.take_outbox hhand, houtbox, nil_append]
        obtain ⟨k, unread', hstanding, hasks, hkept, hheard⟩ :=
          hG.enter hne (Party.take_proc hhand) hempty rfl hrest
        refine ⟨k + 1, 0, unread', hstanding, asks_drop hasks, adds_of_asks_zero hasks,
          hkept.trans hsuffix, ?_⟩
        rw [← nil_append (m :: queue), hmessages]
        exact congrArg (List.cons (phase, body)) hheard
  | finished hacts hproc houtbox hahead =>
    subst hacts hahead
    have hhand : p.proc.hand frame = ([], .ret outcome) := by
      rw [hproc]
      rfl
    refine ⟨0, 0, unread, .stay (.finished rfl (Party.take_proc hhand) ?_ rfl) infix_rfl rfl⟩
    rw [Party.take_outbox hhand, houtbox]
    rfl

end Standing

end Portl
