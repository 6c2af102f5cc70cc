import Portl.Rendezvous.Refusal
import Portl.Rendezvous.Standing

/-!
# Every interleaving ends well

The invariant of the exchange says where in its script each side stands, how far
the server has served it, and which messages it was sent and has not used yet.
Every step keeps it and makes the rest of the schedule shorter, and where no step
is left both sides are done.
-/

namespace Portl

open MailboxClient List

/-! ## The invariant -/

/-- How far a side is: the acts it has done, the answers on the way to it, and the
messages it was sent and has not used. -/
structure Position where
  done : Nat
  ahead : Nat
  unread : List PhaseMessage

/-- The commands of `r` the server has still to serve. -/
def Position.left (d : Deal) (r : Role) (pos : Position) : Nat :=
  asks ((d.script r).drop (pos.done + pos.ahead))

/-- The side `r` is at this position, with this mailbox. -/
structure Stands (d : Deal) (outcome : Role → Outcome) (log : List PhaseMessage) (p : Party)
    (r : Role) (pos : Position) : Prop where
  standing : Standing (d.side r) (d.side r.peer) (outcome r) ((d.script r).drop pos.done) p
    pos.unread pos.ahead
  side : pos.left d r ≤ 5 → p.side = some (d.side r)
  opened : p.opened = if pos.left d r ≤ 3 ∧ 1 ≤ pos.left d r then some d.mailbox else none
  early : 3 < pos.left d r → pos.unread = []
  sides : ∀ m ∈ pos.unread, m.side = d.side r ∨ m.side = d.side r.peer
  length : pos.unread.length ≤ log.length
  heard : 1 ≤ pos.left d r → pos.left d r ≤ 3 → messagesOf (d.side r.peer) log =
    hears ((d.script r).take pos.done) ++ messagesOf (d.side r.peer) pos.unread
  added : messagesOf (d.side r) log = adds ((d.script r).take (pos.done + pos.ahead))

section Stands

variable {d : Deal} {outcome : Role → Outcome} {log : List PhaseMessage} {p : Party} {r : Role}
  {pos : Position}

theorem Standing.ahead_le {own peer : String} {result : Outcome} {acts : List Act}
    {unread : List PhaseMessage} {ahead : Nat}
    (h : Standing own peer result acts p unread ahead) : ahead ≤ 1 := by
  cases h with
  | asked | answered | listening | finished => omega

theorem adds_take_prefix (acts : List Act) (n : Nat) : adds (acts.take n) <+: adds acts := by
  refine ⟨adds (acts.drop n), ?_⟩
  rw [← adds_append, take_append_drop]

variable (h : Stands d outcome log p r pos) {outbox : List ClientMessage}
  {inbox : List ServerMessage} {command : ClientMessage} {frame : ServerMessage}
include h

theorem Stands.unread (hlog : messagesOf (d.side r.peer) log <+: hears (d.script r)) :
    Unread (d.side r) (d.side r.peer) pos.unread ((d.script r).drop pos.done) := by
  refine ⟨h.sides, fun hhears => ?_⟩
  rcases Nat.lt_or_ge 3 (pos.left d r) with hearly | hle
  · rw [h.early hearly]
    exact nil_prefix
  · rcases Nat.eq_zero_or_pos (pos.left d r) with hzero | hpos
    · exact absurd (d.hears_after_close r h.standing.ahead_le hzero) hhears
    · have hall : hears (d.script r) =
          hears ((d.script r).take pos.done) ++ hears ((d.script r).drop pos.done) := by
        rw [← hears_append, take_append_drop]
      rw [h.heard hpos hle, hall] at hlog
      exact (prefix_append_right_inj _).mp hlog

theorem Stands.take (hne : d.side r ≠ d.side r.peer) (hroom : log.length < maxPendingMessages)
    (hlog : messagesOf (d.side r.peer) log <+: hears (d.script r))
    (hinbox : p.inbox = frame :: inbox) :
    ∃ pos' : Position, pos'.left d r = pos.left d r ∧
      Stands d outcome log (p.take frame inbox) r pos' := by
  obtain ⟨k, ahead', unread', hon⟩ :=
    h.standing.take hne (Nat.lt_of_le_of_lt h.length hroom) (h.unread hlog) hinbox
  let pos' : Position := ⟨pos.done + k, ahead', unread'⟩
  have hleft : pos'.left d r = pos.left d r := by
    have hdrop := hon.left
    rw [drop_drop, drop_drop] at hdrop
    simpa only [pos', Position.left, Nat.add_assoc] using hdrop
  refine ⟨pos', hleft, ⟨?_, ?_, ?_, ?_, ?_, ?_, ?_, ?_⟩⟩
  · have hstanding := hon.standing
    rwa [drop_drop] at hstanding
  · exact hleft ▸ h.side
  · exact hleft ▸ h.opened
  · intro hearly
    have hkept := hon.kept
    rw [h.early (hleft ▸ hearly)] at hkept
    exact infix_nil.mp hkept
  · exact fun m hm => h.sides m (hon.kept.subset hm)
  · exact hon.kept.length_le.trans h.length
  · intro hpos hle
    rw [h.heard (hleft ▸ hpos) (hleft ▸ hle), hon.heard, ← append_assoc, ← hears_append,
      ← take_add]
  · rw [h.added, Nat.add_assoc, take_add, take_add, adds_append, adds_append, hon.added]

theorem Stands.hear (hne : d.side r ≠ d.side r.peer) {m : PhaseMessage}
    (hm : m.side = d.side r.peer) :
    ∃ pos' : Position, pos'.left d r = pos.left d r ∧ Stands d outcome (log ++ [m])
      (if p.opened = some d.mailbox then p.tell [.message m] else p) r pos' := by
  have hown : messagesOf (d.side r) (log ++ [m]) = messagesOf (d.side r) log := by
    rw [messagesOf_append, messagesOf_cons_ne (hm ▸ hne.symm)]
    exact append_nil _
  by_cases hopen : pos.left d r ≤ 3 ∧ 1 ≤ pos.left d r
  · rw [if_pos (h.opened.trans (if_pos hopen))]
    refine ⟨⟨pos.done, pos.ahead, pos.unread ++ [m]⟩, rfl, h.standing.tell m, h.side, h.opened,
      fun hearly => absurd hopen.1 (Nat.not_le.mpr hearly), ?_, ?_, ?_, hown.trans h.added⟩
    · intro x hx
      rcases mem_append.mp hx with hx | hx
      · exact h.sides x hx
      · rw [mem_singleton.mp hx]
        exact .inr hm
    · rw [length_append, length_append]
      exact Nat.add_le_add_right h.length _
    · intro hpos hle
      rw [messagesOf_append, messagesOf_append, h.heard hpos hle, append_assoc]
  · have hclosed : p.opened ≠ some d.mailbox := by
      rw [h.opened, if_neg hopen]
      exact Option.some_ne_none _ ∘ Eq.symm
    rw [if_neg hclosed]
    refine ⟨pos, rfl, h.standing, h.side, h.opened, h.early, h.sides, ?_,
      fun hpos hle => absurd ⟨hle, hpos⟩ hopen, hown.trans h.added⟩
    rw [length_append]
    exact h.length.trans (Nat.le_add_right _ _)

theorem Stands.asked (houtbox : p.outbox = command :: outbox) :
    outbox = [] ∧ pos.ahead = 0 ∧ ∃ reply rest,
      (d.script r).drop pos.done = .ask command reply :: rest := by
  cases h.standing with
  | asked hacts _ _ _ _ hout _ hahead =>
    cases houtbox.symm.trans hout
    exact ⟨rfl, hahead, _, _, hacts⟩
  | answered _ _ _ _ _ _ hout | listening _ _ _ _ _ hout | finished _ _ hout =>
    cases houtbox.symm.trans hout

theorem Stands.served {reply : Reply} {rest : List Act} (hahead : pos.ahead = 0)
    (hacts : (d.script r).drop pos.done = .ask command reply :: rest) (hasked : p.outbox ≠ [])
    {p' : Party} {log' : List PhaseMessage} (answer : List ServerMessage)
    (after : List PhaseMessage) (hanswer : reply.Answers answer) (hproc : p'.proc = p.proc)
    (hinbox : p'.inbox = p.inbox ++ (answer ++ after.map .message)) (houtbox : p'.outbox = [])
    (hside : p'.side = some (d.side r))
    (hopened : p'.opened = if asks rest ≤ 3 ∧ 1 ≤ asks rest then some d.mailbox else none)
    (hearly : 3 < asks rest → after = [])
    (hsides : ∀ m ∈ after, m.side = d.side r ∨ m.side = d.side r.peer)
    (hlength : pos.unread.length + after.length ≤ log'.length)
    (hheard : 1 ≤ asks rest → asks rest ≤ 3 → messagesOf (d.side r.peer) log' =
      hears ((d.script r).take pos.done) ++ messagesOf (d.side r.peer) (pos.unread ++ after))
    (hadded : messagesOf (d.side r) log' =
      messagesOf (d.side r) log ++ adds [.ask command reply]) :
    ∃ pos' : Position, pos'.left d r + 1 = pos.left d r ∧ Stands d outcome log' p' r pos' := by
  obtain ⟨done, ahead, unread⟩ := pos
  cases hahead
  have hone : (d.script r).drop (done + 1) = rest := by
    rw [← drop_drop, hacts]
    rfl
  have hleft : asks ((d.script r).drop (done + 1)) + 1 = asks ((d.script r).drop done) := by
    rw [hone, hacts]
    rfl
  refine ⟨⟨done, 1, unread ++ after⟩, hleft, ⟨?_, ?_, ?_, ?_, ?_, ?_, ?_, ?_⟩⟩
  · exact h.standing.serve hacts hasked hanswer after hproc hinbox houtbox
  · exact fun _ => hside
  · simp only [Position.left, hone]
    exact hopened
  · simp only [Position.left, hone]
    intro hmany
    have hbefore : unread = [] := h.early (by
      simp only [Position.left, Nat.add_zero]
      rw [← hleft, hone]
      omega)
    rw [hbefore, hearly hmany]
    rfl
  · intro m hm
    rcases mem_append.mp hm with hm | hm
    · exact h.sides m hm
    · exact hsides m hm
  · rw [length_append]
    exact hlength
  · simp only [Position.left, hone]
    exact hheard
  · rw [hadded, h.added, Nat.add_zero, take_add, adds_append, hacts]
    rfl

end Stands

/-! ## The whole exchange -/

def weight (d : Deal) (s : Exchange) (r : Role) (pos : Position) : Nat :=
  10 * pos.left d r + (s.party r).inbox.length

/-- The invariant, after `n` steps. -/
structure Exchange.Sound (d : Deal) (outcome : Role → Outcome) (s : Exchange) (n : Nat)
    (pos : Role → Position) : Prop where
  stands : ∀ r, Stands d outcome (s.mailboxes d.mailbox) (s.party r) r (pos r)
  logged : ∀ r, ∀ m ∈ s.mailboxes d.mailbox, m.side = d.side r ∨ m.side = d.side r.peer
  budget : ∀ r, n + (weight d s r (pos r) + weight d s r.peer (pos r.peer)) ≤ 120

section Exchange

variable {d : Deal} {outcome : Role → Outcome} {s : Exchange} {n : Nat} {pos : Role → Position}
  {r : Role}

theorem Role.peer_peer (r : Role) : r.peer.peer = r := by
  cases r <;> rfl

theorem Role.peer_ne (r : Role) : r.peer ≠ r := by
  cases r <;> decide

theorem Role.eq_or (r q : Role) : q = r ∨ q = r.peer := by
  cases r <;> cases q <;> decide

theorem Deal.sides_ne (hapart : d.side .offer ≠ d.side .accept) (r : Role) :
    d.side r ≠ d.side r.peer := by
  cases r with
  | offer => exact hapart
  | accept => exact hapart.symm

theorem Deal.adds_length (d : Deal) (r : Role) : (adds (d.script r)).length = 2 := by
  cases r <;> rfl

theorem Exchange.Sound.log_prefix (h : s.Sound d outcome n pos) (r : Role) :
    messagesOf (d.side r.peer) (s.mailboxes d.mailbox) <+: hears (d.script r) := by
  rw [d.hears_script, (h.stands r.peer).added]
  exact adds_take_prefix _ _

theorem Exchange.Sound.log_length (h : s.Sound d outcome n pos)
    (hapart : d.side .offer ≠ d.side .accept) : (s.mailboxes d.mailbox).length ≤ 4 := by
  rw [length_eq_messagesOf hapart (h.logged .offer)]
  have hoffer := (h.log_prefix .accept).length_le
  have haccept := (h.log_prefix .offer).length_le
  rw [d.hears_script, d.adds_length] at hoffer haccept
  exact Nat.add_le_add hoffer haccept

variable {s' : Exchange} {mailbox id : String} {command : ClientMessage}

theorem Exchange.Sound.next (h : s.Sound d outcome n pos) {pos' peerPos : Position}
    (hr : Stands d outcome (s'.mailboxes d.mailbox) (s'.party r) r pos')
    (hpeer : Stands d outcome (s'.mailboxes d.mailbox) (s'.party r.peer) r.peer peerPos)
    (hlogged : ∀ m ∈ s'.mailboxes d.mailbox, m.side = d.side r ∨ m.side = d.side r.peer)
    (hbudget : weight d s' r pos' + weight d s' r.peer peerPos <
      weight d s r (pos r) + weight d s r.peer (pos r.peer)) :
    ∃ pos', s'.Sound d outcome (n + 1) pos' := by
  let after : Role → Position := Function.update (fun _ => peerPos) r pos'
  have hself : after r = pos' := Function.update_self _ _ _
  have hother : after r.peer = peerPos := Function.update_of_ne r.peer_ne _ _
  have htotal := h.budget r
  refine ⟨after, ⟨fun q => ?_, fun q m hm => ?_, fun q => ?_⟩⟩
  · rcases r.eq_or q with rfl | rfl
    · rw [hself]
      exact hr
    · rw [hother]
      exact hpeer
  · rcases r.eq_or q with rfl | rfl
    · exact hlogged m hm
    · rw [Role.peer_peer]
      exact (hlogged m hm).symm
  · rcases r.eq_or q with rfl | rfl
    · rw [hself, hother]
      omega
    · rw [Role.peer_peer, hself, hother]
      omega

theorem Exchange.set_self (s : Exchange) (r : Role) (p : Party) : (s.set r p).party r = p :=
  Function.update_self _ _ _

theorem Exchange.set_peer (s : Exchange) (r : Role) (p : Party) :
    (s.set r p).party r.peer = s.party r.peer :=
  Function.update_of_ne r.peer_ne _ _

theorem Exchange.Sound.deliver (h : s.Sound d outcome n pos)
    (hapart : d.side .offer ≠ d.side .accept) (hinbox : (s.party r).inbox = frame :: inbox) :
    ∃ pos', (s.set r ((s.party r).take frame inbox)).Sound d outcome (n + 1) pos' := by
  have hroom : (s.mailboxes d.mailbox).length < maxPendingMessages :=
    Nat.lt_of_le_of_lt (h.log_length hapart) (by decide)
  obtain ⟨pos', hleft, hstands⟩ :=
    (h.stands r).take (Deal.sides_ne hapart r) hroom (h.log_prefix r) hinbox
  have hself : Stands d outcome (s.mailboxes d.mailbox)
      ((s.set r ((s.party r).take frame inbox)).party r) r pos' := by
    rw [Exchange.set_self]
    exact hstands
  have hpeer : Stands d outcome (s.mailboxes d.mailbox)
      ((s.set r ((s.party r).take frame inbox)).party r.peer) r.peer (pos r.peer) := by
    rw [Exchange.set_peer]
    exact h.stands r.peer
  refine h.next hself hpeer (h.logged r) ?_
  simp only [weight, Exchange.set_self, Exchange.set_peer, hleft, hinbox, Party.take,
    length_cons]
  omega

variable {p : Party} {body : Bytes} {phase : String} {rest : List Act} {srv : MailboxServer}

theorem Exchange.Sound.serveOne (h : s.Sound d outcome n pos)
    (hp : ∃ pos' : Position, pos'.left d r + 1 = (pos r).left d r ∧
      Stands d outcome (s.mailboxes d.mailbox) p r pos')
    (hinbox : p.inbox.length < (s.party r).inbox.length + 10) :
    ∃ pos', (s.set r p).Sound d outcome (n + 1) pos' := by
  obtain ⟨pos', hleft, hstands⟩ := hp
  have hself : Stands d outcome (s.mailboxes d.mailbox) ((s.set r p).party r) r pos' := by
    rw [Exchange.set_self]
    exact hstands
  have hpeer : Stands d outcome (s.mailboxes d.mailbox) ((s.set r p).party r.peer) r.peer
      (pos r.peer) := by
    rw [Exchange.set_peer]
    exact h.stands r.peer
  refine h.next hself hpeer (h.logged r) ?_
  simp only [weight, Exchange.set_self, Exchange.set_peer]
  omega

theorem Exchange.set_set (s : Exchange) (r : Role) (p p' : Party) :
    (s.set r p).set r p' = s.set r p' := by
  simp [Exchange.set]

theorem Exchange.broadcast_set (s : Exchange) (r : Role) (p : Party)
    (hopened : p.opened = some mailbox) (m : PhaseMessage) :
    ((s.set r p).broadcast mailbox m).party r = p.tell [.message m] ∧
    ((s.set r p).broadcast mailbox m).party r.peer =
      (if (s.party r.peer).opened = some mailbox then (s.party r.peer).tell [.message m]
        else s.party r.peer) ∧
    ((s.set r p).broadcast mailbox m).mailboxes mailbox = s.mailboxes mailbox ++ [m] := by
  refine ⟨?_, ?_, Function.update_self _ _ _⟩
  · simp [Exchange.broadcast, Exchange.set_self, hopened]
  · simp [Exchange.broadcast, Exchange.set_peer]

theorem MailboxServer.handle_add (srv : MailboxServer) {side : String}
    (hside : (s.party r).side = some side) (hopened : (s.party r).opened = some mailbox) :
    srv.handle s r (.add phase body) =
      (s.set r ((s.party r).tell [.ack (srv.ackId (.add phase body))])).broadcast mailbox
        ⟨side, phase, body, srv.messageId (s.mailboxes mailbox).length⟩ := by
  have htold : ((s.party r).tell [.ack (srv.ackId (.add phase body))]).side = some side := hside
  have htold' : ((s.party r).tell [.ack (srv.ackId (.add phase body))]).opened = some mailbox :=
    hopened
  simp [MailboxServer.handle, htold, htold']

variable (h : s.Sound d outcome n pos)
include h

theorem Exchange.Sound.serveAdd (hapart : d.side .offer ≠ d.side .accept)
    (houtbox : (s.party r).outbox = [.add phase body]) (hahead : (pos r).ahead = 0)
    (hacts : (d.script r).drop (pos r).done = .ask (.add phase body) .ack :: rest)
    (hpos : 1 ≤ asks rest) (hle : asks rest ≤ 2) :
    ∃ pos', (srv.handle (s.set r { s.party r with outbox := [] }) r (.add phase body)).Sound d
      outcome (n + 1) pos' := by
  have hstands := h.stands r
  have hne := Deal.sides_ne hapart r
  have hleft : (pos r).left d r = asks rest + 1 := by
    rw [Position.left, hahead, Nat.add_zero, hacts]
    rfl
  have hside : (s.party r).side = some (d.side r) := hstands.side (by omega)
  have hopened : (s.party r).opened = some d.mailbox :=
    hstands.opened.trans (if_pos ⟨by omega, by omega⟩)
  -- the adder has its acknowledgement before its message
  let acked : Party :=
    { s.party r with outbox := [] }.tell [.ack (srv.ackId (.add phase body))]
  let m : PhaseMessage :=
    ⟨d.side r, phase, body, srv.messageId (s.mailboxes d.mailbox).length⟩
  have hhandle : srv.handle (s.set r { s.party r with outbox := [] }) r (.add phase body) =
      (s.set r acked).broadcast d.mailbox m := by
    have hside' : ((s.set r { s.party r with outbox := [] }).party r).side = some (d.side r) := by
      rw [Exchange.set_self]
      exact hside
    have hopened' : ((s.set r { s.party r with outbox := [] }).party r).opened =
        some d.mailbox := by
      rw [Exchange.set_self]
      exact hopened
    rw [srv.handle_add hside' hopened', Exchange.set_self, Exchange.set_set]
    rfl
  obtain ⟨hself, hpeer, hlog⟩ := s.broadcast_set r acked hopened m
  have hadder : ∃ pos' : Position, pos'.left d r + 1 = (pos r).left d r ∧
      Stands d outcome (s.mailboxes d.mailbox ++ [m]) (acked.tell [.message m]) r pos' := by
    refine hstands.served hahead hacts (houtbox ▸ cons_ne_nil _ _)
      [.ack (srv.ackId (.add phase body))] [m] ⟨.ack _, trivial, .inl rfl⟩ rfl ?_ rfl hside ?_ ?_
      ?_ ?_ ?_ ?_
    · simp [acked, Party.tell]
    · rw [if_pos ⟨by omega, hpos⟩]
      exact hopened
    · intro hmany
      omega
    · intro x hx
      rw [mem_singleton.mp hx]
      exact .inl rfl
    · rw [length_append]
      exact Nat.add_le_add_right hstands.length _
    · intro _ _
      rw [messagesOf_append, messagesOf_append, hstands.heard (by omega) (by omega),
        append_assoc]
    · have hlast : messagesOf (d.side r) [m] = [(phase, body)] := messagesOf_cons_eq rfl
      rw [messagesOf_append, hlast]
      rfl
  obtain ⟨pos', hleft', hadder⟩ := hadder
  obtain ⟨peerPos, hpeerLeft, hhearer⟩ := (h.stands r.peer).hear
    (Deal.sides_ne hapart r.peer) (m := m) (by rw [Role.peer_peer])
  rw [hhandle]
  rw [← hself, ← hlog] at hadder
  rw [← hpeer, ← hlog] at hhearer
  refine h.next hadder hhearer ?_ ?_
  · rw [hlog]
    intro x hx
    rcases mem_append.mp hx with hx | hx
    · exact h.logged r x hx
    · rw [mem_singleton.mp hx]
      exact .inl rfl
  · have hmore : (if (s.party r.peer).opened = some d.mailbox then
        (s.party r.peer).tell [.message m] else s.party r.peer).inbox.length ≤
          (s.party r.peer).inbox.length + 1 := by
      split
      · simp [Party.tell]
      · exact Nat.le_succ _
    simp only [weight, hself, hpeer, hpeerLeft]
    simp only [acked, Party.tell, length_append, length_cons, length_nil] at hmore ⊢
    omega

/-- The server takes a command it answers with an acknowledgement and a frame,
outside of the time in which the mailbox is open. -/
theorem Exchange.Sound.serveReply {reply : Reply} (frame : ServerMessage)
    (houtbox : (s.party r).outbox = [command]) (hahead : (pos r).ahead = 0)
    (hacts : (d.script r).drop (pos r).done = .ask command reply :: rest) (hreply : reply ≠ .ack)
    (hframe : reply.Matches frame) (hproc : p.proc = (s.party r).proc)
    (hinbox : p.inbox = (s.party r).inbox ++ [.ack id] ++ [frame]) (hempty : p.outbox = [])
    (hside : p.side = some (d.side r)) (hopened : p.opened = none)
    (hclosed : 3 < asks rest ∨ asks rest = 0) (hadds : adds [.ask command reply] = []) :
    ∃ pos', (s.set r p).Sound d outcome (n + 1) pos' := by
  have hstands := h.stands r
  refine h.serveOne (hstands.served hahead hacts (houtbox ▸ cons_ne_nil _ _)
    [.ack id, frame] [] ⟨frame, hframe, .inr ⟨hreply, id, rfl⟩⟩ hproc ?_ hempty hside ?_
    (fun _ => rfl) (fun x hx => absurd hx not_mem_nil) hstands.length ?_ ?_) ?_
  · rw [hinbox, append_assoc]
    rfl
  · rw [if_neg (by omega)]
    exact hopened
  · intro hpos hle
    omega
  · rw [hadds, append_nil]
  · rw [hinbox, length_append, length_append]
    exact Nat.add_lt_add_left (by decide : 2 < 10) _

theorem Exchange.Sound.serveOpen (hapart : d.side .offer ≠ d.side .accept)
    (houtbox : (s.party r).outbox = [.openMailbox d.mailbox]) (hahead : (pos r).ahead = 0)
    (hacts : (d.script r).drop (pos r).done = .ask (.openMailbox d.mailbox) .ack :: rest)
    (hproc : p.proc = (s.party r).proc) (hinbox : p.inbox =
      (s.party r).inbox ++ [.ack id] ++ (s.mailboxes d.mailbox).map .message)
    (hempty : p.outbox = []) (hside : p.side = (s.party r).side)
    (hopened : p.opened = some d.mailbox) (hrest : asks rest = 3) :
    ∃ pos', (s.set r p).Sound d outcome (n + 1) pos' := by
  have hstands := h.stands r
  have hleft : asks ((d.script r).drop (pos r).done) = 4 := by
    rw [hacts]
    exact congrArg (· + 1) hrest
  have hleft' : (pos r).left d r = 4 := by
    rw [Position.left, hahead, Nat.add_zero, hleft]
  have hunread : (pos r).unread = [] := hstands.early (by omega)
  have hunheard := d.hears_before_open r (i := (pos r).done) (by omega)
  have hlog := h.log_length hapart
  refine h.serveOne (hstands.served hahead hacts (houtbox ▸ cons_ne_nil _ _) [.ack id]
    (s.mailboxes d.mailbox) ⟨.ack id, trivial, .inl rfl⟩ hproc ?_ hempty
    (hside.trans (hstands.side (by omega))) ?_ ?_ (h.logged r) ?_ ?_ ?_) ?_
  · rw [hinbox, append_assoc]
  · rw [if_pos (by omega)]
    exact hopened
  · intro hmany
    omega
  · rw [hunread, length_nil, Nat.zero_add]
  · intro _ _
    rw [hunheard, hunread]
    rfl
  · exact (append_nil _).symm
  · rw [hinbox, length_append, length_append, length_map, length_singleton]
    omega

theorem Exchange.Sound.serve (hapart : d.side .offer ≠ d.side .accept)
    (hmailbox : d.mailbox = srv.mailboxOf d.nameplate)
    (houtbox : (s.party r).outbox = command :: outbox) :
    ∃ pos', (srv.handle (s.set r { s.party r with outbox := outbox }) r command).Sound d outcome
      (n + 1) pos' := by
  have hstands := h.stands r
  obtain ⟨rfl, hahead, reply, rest, hacts⟩ := hstands.asked houtbox
  have hleft : (pos r).left d r = asks rest + 1 := by
    rw [Position.left, hahead, Nat.add_zero, hacts]
    rfl
  have hplaced := d.asks_of_drop r hacts
  generalize hk : asks rest = k at hplaced
  cases hplaced with
  | bind appid =>
    simp only [MailboxServer.handle, Exchange.set_self, Exchange.set_set]
    exact h.serveReply (.welcome _) houtbox hahead hacts (by decide) trivial rfl rfl rfl rfl
      (hstands.opened.trans (if_neg (by omega))) (by omega) rfl
  | claim =>
    simp only [MailboxServer.handle, Exchange.set_self, Exchange.set_set]
    exact h.serveReply (.claimed _) houtbox hahead hacts nofun hmailbox.symm rfl rfl rfl
      (hstands.side (by omega)) (hstands.opened.trans (if_neg (by omega))) (by omega) rfl
  | openMailbox =>
    simp only [MailboxServer.handle, Exchange.set_self, Exchange.set_set]
    exact h.serveOpen hapart houtbox hahead hacts rfl rfl rfl rfl rfl hk
  | add phase body hpos hle =>
    exact h.serveAdd hapart houtbox hahead hacts (hk ▸ hpos) (hk ▸ hle)
  | close mailbox mood =>
    simp only [MailboxServer.handle, Exchange.set_self, Exchange.set_set]
    exact h.serveReply (.closed _) houtbox hahead hacts (by decide) trivial rfl rfl rfl
      (hstands.side (by omega)) rfl (by omega) rfl

theorem Exchange.Sound.step {srv : MailboxServer} (hapart : d.side .offer ≠ d.side .accept)
    (hmailbox : d.mailbox = srv.mailboxOf d.nameplate) {action : ExchangeAction} {s' : Exchange}
    (hstep : s.step srv action = some s') : ∃ pos', s'.Sound d outcome (n + 1) pos' := by
  cases action with
  | serve r =>
    cases houtbox : (s.party r).outbox with
    | nil => simp only [Exchange.step, houtbox, reduceCtorEq] at hstep
    | cons command outbox =>
      simp only [Exchange.step, houtbox, Option.some.injEq] at hstep
      subst hstep
      exact h.serve hapart hmailbox houtbox
  | deliver r =>
    cases hinbox : (s.party r).inbox with
    | nil => simp only [Exchange.step, hinbox, reduceCtorEq] at hstep
    | cons frame inbox =>
      simp only [Exchange.step, hinbox, Option.some.injEq] at hstep
      subst hstep
      exact h.deliver hapart hinbox

omit h

theorem Exchange.Sound.run (hapart : d.side .offer ≠ d.side .accept)
    (hmailbox : d.mailbox = srv.mailboxOf d.nameplate) {schedule : List ExchangeAction}
    (h : s.Sound d outcome n pos) (hrun : s.run srv schedule = some s') :
    ∃ pos', s'.Sound d outcome (n + schedule.length) pos' := by
  induction schedule generalizing s n pos with
  | nil =>
    cases hrun
    exact ⟨pos, h⟩
  | cons action schedule ih =>
    obtain ⟨mid, hstep, hrest⟩ := Option.bind_eq_some_iff.mp hrun
    obtain ⟨pos', hmid⟩ := h.step hapart hmailbox hstep
    obtain ⟨pos'', hlast⟩ := ih hmid hrest
    refine ⟨pos'', ?_⟩
    rwa [length_cons, Nat.add_comm schedule.length 1, ← Nat.add_assoc]

theorem Exchange.sound_start (d : Deal) (outcome : Role → Outcome) {sides : Role → Side}
    (hsides : ∀ r, ∃ F, F [] = (sides r).settle ∧
      Follows (d.side r) (d.side r.peer) (outcome r) (d.script r) F) :
    (Exchange.start sides).Sound d outcome 0 fun _ => ⟨0, 0, []⟩ := by
  have hall : ∀ r, asks (d.script r) = 6 := fun r => by cases r <;> rfl
  refine ⟨fun r => ?_, fun _ m hm => absurd hm not_mem_nil, fun r => ?_⟩
  · have hleft : Position.left d r ⟨0, 0, []⟩ = 6 := hall r
    refine ⟨?_, fun h => ?_, ?_, fun _ => rfl, fun m hm => absurd hm not_mem_nil, le_rfl,
      fun _ _ => rfl, rfl⟩
    · obtain ⟨F, hF, hfollows⟩ := hsides r
      have hfirst : ∃ command reply rest, d.script r = .ask command reply :: rest := by
        cases r <;> exact ⟨_, _, _, rfl⟩
      obtain ⟨command, reply, rest, hscript⟩ := hfirst
      rw [hscript] at hfollows
      obtain ⟨Q, G, hQ, hawaits, hG⟩ := hfollows
      have hsettle : (sides r).settle = ([command], Q []) := hF.symm.trans (hQ [])
      have hproc : (Party.start (sides r)).proc = Q [] := congrArg Prod.snd hsettle
      have houtbox : (Party.start (sides r)).outbox = [command] := congrArg Prod.fst hsettle
      have hinbox : (Party.start (sides r)).inbox = ([] : List PhaseMessage).map .message := rfl
      exact .asked hscript hawaits hG hproc hinbox houtbox rfl rfl
    · omega
    · rw [if_neg (by omega)]
      rfl
  · simp only [weight, Position.left, drop_zero, Nat.add_zero, hall]
    exact le_refl _

theorem Standing.idle {own peer : String} {result : Outcome} {acts : List Act}
    {unread : List PhaseMessage} {ahead : Nat} (h : Standing own peer result acts p unread ahead)
    (hinbox : p.inbox = []) (houtbox : p.outbox = []) :
    acts = [] ∧ p.proc = .ret result ∨
      ahead = 0 ∧ unread = [] ∧ ∃ phase body rest, acts = .hear phase body :: rest := by
  cases h with
  | asked _ _ _ _ _ hout => cases houtbox.symm.trans hout
  | answered _ _ _ _ hanswer hin =>
    obtain ⟨frame, -, rfl | ⟨-, id, rfl⟩⟩ := hanswer
    all_goals
      rw [hinbox] at hin
      have hlength := congrArg List.length hin
      simp at hlength
  | listening hacts _ _ _ hin _ hahead =>
    rw [hinbox] at hin
    exact .inr ⟨hahead, map_eq_nil_iff.mp hin.symm, _, _, _, hacts⟩
  | finished hacts hproc => exact .inl ⟨hacts, hproc⟩

theorem Exchange.Sound.heard_all (h : s.Sound d outcome n pos)
    (hacts : (d.script r).drop (pos r).done = .hear phase body :: rest) (hahead : (pos r).ahead = 0)
    (hunread : (pos r).unread = []) :
    adds ((d.script r.peer).take ((pos r.peer).done + (pos r.peer).ahead)) =
      hears ((d.script r).take (pos r).done) := by
  obtain ⟨hpos, hle⟩ := d.asks_of_hear r hacts
  have hleft : (pos r).left d r = asks ((d.script r).drop (pos r).done) := by
    rw [Position.left, hahead, Nat.add_zero]
  rw [← (h.stands r.peer).added, (h.stands r).heard (hleft ▸ hpos) (hleft ▸ hle), hunread]
  exact append_nil _

theorem Exchange.Sound.finished (h : s.Sound d outcome n pos)
    (hstuck : ∀ action, s.step srv action = none) (r : Role) :
    (s.party r).proc = .ret (outcome r) := by
  have hinbox : ∀ q, (s.party q).inbox = [] := fun q => by
    have hq := hstuck (.deliver q)
    cases hin : (s.party q).inbox with
    | nil => rfl
    | cons frame inbox => simp only [Exchange.step, hin, reduceCtorEq] at hq
  have houtbox : ∀ q, (s.party q).outbox = [] := fun q => by
    have hq := hstuck (.serve q)
    cases hout : (s.party q).outbox with
    | nil => rfl
    | cons command outbox => simp only [Exchange.step, hout, reduceCtorEq] at hq
  rcases (h.stands r).standing.idle (hinbox r) (houtbox r) with
    ⟨-, hret⟩ | ⟨hahead, hunread, phase, body, rest, hacts⟩
  · exact hret
  · have hall := h.heard_all hacts hahead hunread
    rcases (h.stands r.peer).standing.idle (hinbox r.peer) (houtbox r.peer) with
      ⟨hdone, -⟩ | ⟨hahead', hunread', phase', body', rest', hacts'⟩
    · -- a finished peer has added all there is to hear
      have htake : (d.script r.peer).take ((pos r.peer).done + (pos r.peer).ahead) =
          d.script r.peer := by
        refine take_of_length_le ?_
        exact (drop_eq_nil_iff.mp hdone).trans (Nat.le_add_right _ _)
      rw [htake] at hall
      exact absurd hall.symm (d.hears_take_ne r hacts)
    · have hback := h.heard_all hacts' hahead' hunread'
      rw [Role.peer_peer, hahead, Nat.add_zero] at hback
      rw [hahead', Nat.add_zero] at hall
      exact absurd hback (d.no_deadlock r hacts hacts' hall)

end Exchange

/-! ## The share -/

section Share

variable {W : Wormhole}

def shareSides (random : Role → SideRandom W) (code : ShortCode) (hello : RecipientHelloV1)
    (offered : OfferedEnvelope) : Role → Side
  | .offer => sideOf (offerOverMailbox W (random .offer) code offered) (random .offer).side
      fun _ => none
  | .accept => sideOf (acceptOverMailbox W (random .accept) code hello) (random .accept).side some

def shareOutcome (offered : OfferedEnvelope) : Role → Outcome
  | .offer => .ok none
  | .accept => .ok (some offered)

/-- In every interleaving a side that returns returns its outcome, no schedule goes
on for ever, and where none goes on both sides have returned. -/
def Exchange.Transfers (srv : MailboxServer) (start : Exchange) (outcome : Role → Outcome) : Prop :=
  ∀ schedule s, start.run srv schedule = some s →
    (∀ r result, (s.party r).proc = .ret result → result = outcome r) ∧
    schedule.length ≤ 120 ∧
    ((∀ action, s.step srv action = none) → ∀ r, (s.party r).proc = .ret (outcome r))

/-- Against every script the accepting side returns an error, or an envelope for
which the first two messages of a peer vouch. -/
def AcceptsOnlyVouched (random : SideRandom W) (code : ShortCode) (hello : RecipientHelloV1) :
    Prop :=
  ∀ aEnd e as is, ∃ result c' rest,
    playClient aEnd e (acceptOverMailbox W random code hello)
      (MailboxClient.new portlExchangeAppidV1 random.side) as is = some ((result, c'), rest) ∧
    ((∃ error, result = .error error) ∨ ∃ offered first second others, result = .ok offered ∧
      fromPeers random.side (messagesIn is) = first :: second :: others ∧
      Vouch W random code first second offered)

variable {random : Role → SideRandom W} {code : ShortCode} {hello : RecipientHelloV1}
  {offered : OfferedEnvelope}

theorem Wormhole.Ideal.made (hW : W.Ideal hello offered) (code : ShortCode)
    (hapart : (random .offer).side ≠ (random .accept).side) (hhello : hello.validate = .ok ())
    (hoffered : offered.envelope.validate = .ok ()) (mailbox : String) :
    ∃ d : Deal, d.mailbox = mailbox ∧ ∃ key helloJson envelopeJson,
      d.Made code random hello offered key helloJson envelopeJson := by
  obtain ⟨key, hoffer, haccept⟩ := hW.key code.password portlExchangeAppidV1
    (random .offer).spake (random .accept).spake
  obtain ⟨helloJson, hto, hfrom⟩ := hW.helloJson
  obtain ⟨envelopeJson, hto', hfrom'⟩ := hW.deserialize hoffered
  refine ⟨⟨code.nameplate, mailbox, fun r => (random r).side,
    fun r => (startPake W code.password portlExchangeAppidV1 (random r).spake).2,
    encryptPhase W (random .accept).nonce key (random .accept).side "0" helloJson,
    encryptPhase W (random .offer).nonce key (random .offer).side "1" envelopeJson⟩, rfl, key,
    helloJson, envelopeJson, rfl, fun _ => rfl, hapart, fun _ => rfl, fun r => ?_, hhello, hto, hfrom,
    rfl, hW.decrypt_encrypt _ _ _ _ _, hto', hfrom', rfl, hW.decrypt_encrypt _ _ _ _ _⟩
  cases r with
  | offer => exact hoffer
  | accept => exact haccept

theorem Deal.Made.follows {d : Deal} {key : Bytes32} {helloJson envelopeJson : Bytes}
    (hmade : d.Made code random hello offered key helloJson envelopeJson) (r : Role) :
    ∃ F, F [] = (shareSides random code hello offered r).settle ∧
      Follows (d.side r) (d.side r.peer) (shareOutcome offered r) (d.script r) F := by
  cases r with
  | offer =>
    unfold shareSides
    rw [← hmade.side .offer]
    exact (performs_offerOverMailbox hmade).follows fun _ _ => rfl
  | accept =>
    unfold shareSides
    rw [← hmade.side .accept]
    exact (performs_acceptOverMailbox hmade).follows fun _ ha => congrArg some ha

theorem share_transfers (srv : MailboxServer) (hW : W.Ideal hello offered)
    (hapart : (random .offer).side ≠ (random .accept).side) (hhello : hello.validate = .ok ())
    (hoffered : offered.envelope.validate = .ok ()) :
    (Exchange.start (shareSides random code hello offered)).Transfers srv (shareOutcome offered) ∧
      AcceptsOnlyVouched (random .accept) code hello := by
  constructor
  · intro schedule s hrun
    obtain ⟨d, hmailbox, key, helloJson, envelopeJson, hmade⟩ :=
      hW.made code hapart hhello hoffered (srv.mailboxOf code.nameplate)
    have hmailbox' : d.mailbox = srv.mailboxOf d.nameplate := by
      rw [hmailbox, hmade.nameplate]
    have hstart := Exchange.sound_start d (shareOutcome offered) hmade.follows
    obtain ⟨pos, hsound⟩ := hstart.run hmade.apart hmailbox' hrun
    refine ⟨fun r result hret => (hsound.stands r).standing.outcome_eq hret, ?_, hsound.finished⟩
    have hbudget := hsound.budget .offer
    omega
  · intro aEnd e as is
    obtain ⟨result, c', rest, hplay, hvouched⟩ :=
      acceptOverMailbox_returns W (random .accept) code hello aEnd e as is
    refine ⟨result, c', rest, hplay, ?_⟩
    cases result with
    | error error => exact .inl ⟨error, rfl⟩
    | ok offered =>
      obtain ⟨first, second, others, hpeers, hvouch⟩ := hvouched offered rfl
      exact .inr ⟨offered, first, second, others, rfl, hpeers, hvouch⟩

/-! ### A share without secrets -/

def sampleOffered : OfferedEnvelope := ⟨sampleEnvelope, none, "ws_test", "7k3p"⟩

/-- A wormhole with one key for everybody, that seals nothing and writes two
documents only. -/
def Wormhole.plain : Wormhole where
  Spake := Unit
  Random := Unit
  startSymmetric _ _ _ := ((), [])
  finish _ _ := .ok (List.replicate 32 0)
  sha256 _ := Vector.replicate 32 0
  hkdf key _ := key
  encrypt _ _ plaintext := plaintext
  decrypt _ _ ciphertext := some ciphertext
  pakeToVec text := (Hex.decode text).getD []
  pakeFromSlice bytes := .ok (Hex.encode bytes)
  helloToVec hello := if hello = .anonymous then .ok [0] else .error "another hello"
  helloFromSlice bytes := if bytes = [0] then .ok .anonymous else .error "not a hello"
  envelopeToVec offered := if offered = sampleOffered then .ok [1] else .error "another envelope"
  envelopeFromSlice bytes := if bytes = [1] then .ok sampleOffered else .error "not an envelope"

theorem Wormhole.plain_ideal : Wormhole.plain.Ideal .anonymous sampleOffered where
  agrees _ _ _ _ := ⟨List.replicate 32 0, rfl, rfl, rfl⟩
  opens _ _ _ := rfl
  pakeJson bytes := by
    show Except.ok (Hex.encode ((Hex.decode (Hex.encode bytes)).getD [])) = _
    rw [Hex.decode_encode]
    rfl
  helloJson := ⟨[0], by simp only [plain, if_true], by simp only [plain, if_true]⟩
  envelopeJson := ⟨[1], by simp only [plain, if_true], by simp only [plain, if_true]⟩

def annAndBob : Role → SideRandom Wormhole.plain
  | .offer => ⟨"ann", (), Vector.replicate 24 7⟩
  | .accept => ⟨"bob", (), Vector.replicate 24 8⟩

def sampleServer : MailboxServer where
  welcome := "motd"
  mailboxOf nameplate := "mailbox-" ++ nameplate
  ackId _ := "ack"
  messageId _ := "msg"

theorem share_transfers_plain :
    (Exchange.start (shareSides annAndBob ⟨"7", ["guitarist", "revenge"]⟩ .anonymous
        sampleOffered)).Transfers sampleServer (shareOutcome sampleOffered) ∧
      AcceptsOnlyVouched (annAndBob .accept) ⟨"7", ["guitarist", "revenge"]⟩ .anonymous :=
  share_transfers sampleServer Wormhole.plain_ideal (by decide) (by decide +kernel)
    (by decide +kernel)

end Share

end Portl
