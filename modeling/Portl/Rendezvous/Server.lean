import Mathlib.Tactic.IntervalCases
import Portl.Rendezvous.Script

/-!
# Two sides and a mailbox server

The server acknowledges a command before it does anything else about it. A mailbox
is a list of messages: who opens it is sent what is there, and each message that is
added is sent to all who have it open, the adder too.

An `Exchange` is the state of the whole: for each side its process, the frames on
the way to it and the commands on the way from it. A schedule is a list of
actions; each lets the server take one command or a side take one frame.
-/

namespace Portl

/-! ## State -/

/-- One side as the system sees it; `side` and `opened` are what the server knows
about its connection. -/
structure Party where
  proc : Side
  inbox : List ServerMessage
  outbox : List ClientMessage
  side : Option String
  opened : Option String

structure Exchange where
  party : Role → Party
  mailboxes : String → List PhaseMessage

structure MailboxServer where
  welcome : String
  mailboxOf : String → String
  ackId : ClientMessage → String
  messageId : Nat → String

def Party.tell (p : Party) (frames : List ServerMessage) : Party :=
  { p with inbox := p.inbox ++ frames }

def Exchange.set (s : Exchange) (r : Role) (p : Party) : Exchange :=
  { s with party := Function.update s.party r p }

def Exchange.broadcast (s : Exchange) (mailbox : String) (m : PhaseMessage) : Exchange where
  party r := if (s.party r).opened = some mailbox then (s.party r).tell [.message m] else s.party r
  mailboxes := Function.update s.mailboxes mailbox (s.mailboxes mailbox ++ [m])

/-! ## Steps -/

/-- What the server does about a command of `r`. -/
def MailboxServer.handle (srv : MailboxServer) (s : Exchange) (r : Role) (command : ClientMessage) :
    Exchange :=
  let p := (s.party r).tell [.ack (srv.ackId command)]
  match command with
  | .bind _ side => s.set r ({ p with side := some side }.tell [.welcome srv.welcome])
  | .allocate => s.set r (p.tell [.allocated "1"])
  | .claim nameplate => s.set r (p.tell [.claimed (srv.mailboxOf nameplate)])
  | .release _ => s.set r (p.tell [.released])
  | .openMailbox mailbox =>
    s.set r ({ p with opened := some mailbox }.tell ((s.mailboxes mailbox).map .message))
  | .add phase body =>
    match p.side, p.opened with
    | some side, some mailbox =>
      (s.set r p).broadcast mailbox
        ⟨side, phase, body, srv.messageId (s.mailboxes mailbox).length⟩
    | _, _ => s.set r (p.tell [.error "must open a mailbox first"])
  | .close _ _ => s.set r ({ p with opened := none }.tell [.closed none])

inductive ExchangeAction where
  /-- The server takes a command. -/
  | serve (r : Role)
  /-- A side takes a frame; after its return it is only thrown away. -/
  | deliver (r : Role)
deriving DecidableEq

def Exchange.step (srv : MailboxServer) (s : Exchange) : ExchangeAction → Option Exchange
  | .serve r =>
    match (s.party r).outbox with
    | [] => none
    | command :: outbox => some (srv.handle (s.set r { s.party r with outbox := outbox }) r command)
  | .deliver r =>
    match (s.party r).inbox with
    | [] => none
    | frame :: inbox =>
      let handed := (s.party r).proc.hand frame
      some (s.set r { s.party r with
        proc := handed.2, inbox := inbox, outbox := (s.party r).outbox ++ handed.1 })

def Exchange.run (srv : MailboxServer) (s : Exchange) (schedule : List ExchangeAction) :
    Option Exchange :=
  schedule.foldlM (Exchange.step srv) s

def Party.start (p : Side) : Party := ⟨p.settle.2, [], p.settle.1, none, none⟩

def Exchange.start (sides : Role → Side) : Exchange := ⟨fun r => .start (sides r), fun _ => []⟩

/-! ## The order of the commands

The commands of a script come in a fixed order. What the server knows of a side
depends on how many of them it has still to serve. -/

def adds : List Act → List (String × Bytes)
  | [] => []
  | .ask (.add phase body) _ :: rest => (phase, body) :: adds rest
  | _ :: rest => adds rest

def hears : List Act → List (String × Bytes)
  | [] => []
  | .hear phase body :: rest => (phase, body) :: hears rest
  | _ :: rest => hears rest

def asks : List Act → Nat
  | [] => 0
  | .ask _ _ :: rest => asks rest + 1
  | _ :: rest => asks rest

/-- What a side can ask for when it has `left` commands more to come. -/
inductive Deal.Asks (d : Deal) (r : Role) : Nat → ClientMessage → Reply → Prop where
  | bind (appid : String) : Deal.Asks d r 5 (.bind appid (d.side r)) .welcome
  | claim : Deal.Asks d r 4 (.claim d.nameplate) (.claimed d.mailbox)
  | openMailbox : Deal.Asks d r 3 (.openMailbox d.mailbox) .ack
  | add (phase : String) (body : Bytes) {left : Nat} (hpos : 1 ≤ left) (hle : left ≤ 2) :
      Deal.Asks d r left (.add phase body) .ack
  | close (mailbox mood : Option String) : Deal.Asks d r 0 (.close mailbox mood) .closed

section Order

variable (d : Deal) (r : Role) {i : Nat}

theorem Deal.length_script : (d.script r).length = 8 := by
  cases r <;> rfl

variable {rest : List Act} {body : Bytes} {phase : String}

theorem Deal.lt_of_drop {act : Act} (h : (d.script r).drop i = act :: rest) : i < 8 := by
  by_contra hge
  rw [List.drop_eq_nil_of_le (by rw [d.length_script]; omega)] at h
  cases h

theorem Deal.asks_of_drop {command : ClientMessage} {reply : Reply}
    (h : (d.script r).drop i = .ask command reply :: rest) :
    Deal.Asks d r (asks rest) command reply := by
  have hlt := d.lt_of_drop r h
  cases r <;> interval_cases i <;> cases h <;> constructor <;> simp [asks]

theorem Deal.asks_of_hear (h : (d.script r).drop i = .hear phase body :: rest) :
    1 ≤ asks ((d.script r).drop i) ∧ asks ((d.script r).drop i) ≤ 3 := by
  have hlt := d.lt_of_drop r h
  rw [h]
  cases r <;> interval_cases i <;> cases h <;> simp [asks]

theorem Deal.hears_before_open (h : 3 < asks ((d.script r).drop i)) :
    hears ((d.script r).take i) = [] := by
  rcases Nat.lt_or_ge i 8 with hlt | hge
  · cases r <;> interval_cases i <;> first
      | rfl
      | simp [Deal.script, Deal.greeting, asks] at h
  · rw [List.drop_eq_nil_of_le (by rw [d.length_script]; exact hge)] at h
    exact absurd h (by decide)

theorem Deal.hears_after_close {ahead : Nat} (hahead : ahead ≤ 1)
    (h : asks ((d.script r).drop (i + ahead)) = 0) : hears ((d.script r).drop i) = [] := by
  rcases Nat.lt_or_ge i 8 with hlt | hge
  · interval_cases ahead <;> cases r <;> interval_cases i <;> first
      | rfl
      | simp [Deal.script, Deal.greeting, asks] at h
  · rw [List.drop_eq_nil_of_le (by rw [d.length_script]; exact hge)]
    rfl

theorem Deal.hears_script : hears (d.script r) = adds (d.script r.peer) := by
  cases r <;> rfl

theorem Deal.hears_take_ne (h : (d.script r).drop i = .hear phase body :: rest) :
    hears ((d.script r).take i) ≠ adds (d.script r.peer) := by
  have hlt := d.lt_of_drop r h
  cases r <;> interval_cases i <;> cases h <;>
    simp [Deal.script, Deal.greeting, Role.peer, hears, adds]

theorem Deal.no_deadlock {j : Nat} {phase' : String} {body' : Bytes} {rest' : List Act}
    (hi : (d.script r).drop i = .hear phase body :: rest)
    (hj : (d.script r.peer).drop j = .hear phase' body' :: rest')
    (hheard : adds ((d.script r.peer).take j) = hears ((d.script r).take i)) :
    adds ((d.script r).take i) ≠ hears ((d.script r.peer).take j) := by
  have hlt := d.lt_of_drop r hi
  have hlt' := d.lt_of_drop r.peer hj
  revert hheard
  cases r <;> interval_cases i <;> cases hi <;> interval_cases j <;> cases hj <;>
    simp [Deal.script, Deal.greeting, Role.peer, hears, adds]

end Order

end Portl
