import Mathlib.Data.String.Basic
import Mathlib.Logic.Function.Basic
import Portl.Lib.Run
import Portl.Caps.Enforce

/-!
# Reverse streams of an SSH connection

For each connection to a listener the agent opens a stream to the client, whose
request names the listener. Every remote TCP forward and every agent forward of an
SSH stdio connection runs a loop of its own that takes the next stream of the
connection, reads the request and only then asks whether the stream is its own. A
stream of another forward is refused, or never answered, and the loop ends or hangs.
-/

namespace Portl

open List

/-! ## Requests -/

def alpnTcpV2 : String := "portl/tcp/v2"

def alpnUnixV1 : String := "portl/unix/v1"

inductive TcpOp where
  | connect (host : String) (port : UInt16)
  | listen (bindHost : String) (bindPort : UInt16)
  | accepted (bindHost : String) (bindPort : UInt16) (originatorHost : String)
      (originatorPort : UInt16)
deriving DecidableEq

inductive ReverseOp where
  | tcp (op : TcpOp)
  | unix (op : UnixOp)
deriving DecidableEq

/-- `listener` is the forward for whose listener the agent has opened the stream. -/
structure ReverseStream where
  listener : ℕ
  preamble : StreamPreamble
  op : ReverseOp
deriving DecidableEq

/-- `read_frame`, also of what was written as the request of the other protocol. -/
inductive TailRead (α : Type) where
  | value (op : α)
  | invalid
  | waits

/-- What postcard makes of a request that was written for the other protocol. -/
structure Misread where
  asTcp : UnixOp → TailRead TcpOp
  asUnix : TcpOp → TailRead UnixOp

section Requests

variable (M : Misread)

def readTcpReqV2Tail : ReverseOp → TailRead TcpOp
  | .tcp op => .value op
  | .unix op => M.asTcp op

def readUnixReqTail : ReverseOp → TailRead UnixOp
  | .unix op => .value op
  | .tcp op => M.asUnix op

/-- `TcpAck` and `UnixAck`. -/
structure ReverseAck where
  ok : Bool
  error : Option String
deriving DecidableEq

/-- What has become of a stream: `unavailable` is the `Ok(None)` of
`accept_unix_reverse_connection`. -/
inductive Taken (α : Type) where
  | accepted (value : α)
  | unavailable
  | failed (message : String)
  | waiting
deriving DecidableEq

def refuse {α : Type} (error message : String) : Option ReverseAck × Taken α :=
  (some ⟨false, some error⟩, .failed message)

structure AcceptedTcpReverse where
  bindHost : String
  bindPort : UInt16
  originatorHost : String
  originatorPort : UInt16
deriving DecidableEq

/-- `accept_tcp_reverse_once` on the stream it has taken. -/
def acceptTcpReverseOnce (peerToken : Bytes16) (bindHost : String) (bindPort : UInt16)
    (stream : ReverseStream) : Option ReverseAck × Taken AcceptedTcpReverse :=
  match readTcpReqV2Tail M stream.op with
  | .waits => (none, .waiting)
  | .invalid => (none, .failed "decode postcard frame")
  | .value op =>
    if stream.preamble.peerToken ≠ peerToken ∨ stream.preamble.alpn ≠ alpnTcpV2 then
      refuse "invalid tcp v2 preamble" "invalid reverse tcp preamble"
    else
      match op with
      | .accepted acceptedHost acceptedPort originatorHost originatorPort =>
        if acceptedHost ≠ bindHost ∨ acceptedPort ≠ bindPort then
          let message := s!"unexpected reverse tcp listener {acceptedHost}:{acceptedPort}"
          refuse message message
        else
          (some ⟨true, none⟩,
            .accepted ⟨acceptedHost, acceptedPort, originatorHost, originatorPort⟩)
      | .connect _ _ | .listen _ _ =>
        refuse "unexpected reverse tcp operation" "unexpected reverse tcp operation"

/-- `accept_unix_reverse_connection` on the stream it has taken; `connect` is what
connecting to the local socket gives. -/
def acceptUnixReverseConnection (peerToken : Bytes16) (forwards : List (String × String))
    (connect : String → Except String Unit) (stream : ReverseStream) :
    Option ReverseAck × Taken (String × String) :=
  match readUnixReqTail M stream.op with
  | .waits => (none, .waiting)
  | .invalid => (none, .failed "decode postcard frame")
  | .value op =>
    if stream.preamble.peerToken ≠ peerToken ∨ stream.preamble.alpn ≠ alpnUnixV1 then
      refuse "invalid unix preamble" "invalid reverse unix preamble"
    else
      match op with
      | .connect path =>
        match forwards.lookup path with
        | some localPath =>
          match connect localPath with
          | .ok () => (some ⟨true, none⟩, .accepted (path, localPath))
          | .error err => (some ⟨false, some err⟩, .unavailable)
        | none =>
          let message := s!"unexpected reverse unix path {path}"
          refuse message message
      | .listen _ _ _ =>
        refuse "unexpected reverse unix listen request" "unexpected reverse unix listen request"

end Requests

/-! ## Forwards -/

/-- A remote TCP forward, under the port its listener is bound to, or an agent
forward. -/
inductive Forward where
  | tcp (bindHost : String) (bindPort : UInt16)
  | agent (remoteAgentPath localAgentPath : String)
deriving DecidableEq

namespace Forward

/-- `forward_accepted`, of `tcp_handler` and of `unix_handler`: what the agent writes
on a stream for the listener of the forward. -/
def forwardAccepted (peerToken : Bytes16) (originatorHost : String) (originatorPort : UInt16) :
    Forward → StreamPreamble × ReverseOp
  | .tcp bindHost bindPort =>
    (⟨peerToken, alpnTcpV2⟩, .tcp (.accepted bindHost bindPort originatorHost originatorPort))
  | .agent remoteAgentPath _ => (⟨peerToken, alpnUnixV1⟩, .unix (.connect remoteAgentPath))

inductive Fate where
  | accepted
  | unavailable
  | ended
  | waiting
deriving DecidableEq

def fate {α : Type} : Taken α → Fate
  | .accepted _ => .accepted
  | .unavailable => .unavailable
  | .failed _ => .ended
  | .waiting => .waiting

/-- One round of `spawn_remote_tcp_forward_accept_loop`, or of
`run_unix_reverse_forwards_logged` as `run_unix_reverse_forward` calls it. -/
def accept (M : Misread) (peerToken : Bytes16) (connect : String → Except String Unit)
    (stream : ReverseStream) : Forward → Option ReverseAck × Fate
  | .tcp bindHost bindPort =>
    let taken := acceptTcpReverseOnce M peerToken bindHost bindPort stream
    (taken.1, fate taken.2)
  | .agent remoteAgentPath localAgentPath =>
    let taken := acceptUnixReverseConnection M peerToken [(remoteAgentPath, localAgentPath)]
      connect stream
    (taken.1, fate taken.2)

end Forward

/-! ## The connection -/

inductive LoopState where
  | running
  | waiting
  | ended
deriving DecidableEq

/-- `active` until the forward is cancelled. -/
structure ReverseEntry where
  forward : Forward
  active : Bool
  loop : LoopState
deriving DecidableEq

structure Taking where
  loop : ℕ
  stream : ReverseStream
  ack : Option ReverseAck
  fate : Forward.Fate
deriving DecidableEq

/-- `queue` holds the streams that no loop has taken, `opened` and `taken` are all
that were opened and taken. -/
structure ReverseConn where
  peerToken : Bytes16
  entries : ℕ → Option ReverseEntry
  next : ℕ
  queue : List ReverseStream
  closed : Bool
  opened : List ReverseStream
  taken : List Taking

/-- `opens` is a connection to the listener of a forward, `accept` a loop that takes
the next stream; `intact` says that the request can be read and the acknowledgement
written. -/
inductive ReverseEvent where
  | start (forward : Forward)
  | cancel (id : ℕ)
  | opens (id : ℕ) (originatorHost : String) (originatorPort : UInt16)
  | accept (id : ℕ) (connect : String → Except String Unit) (intact : Bool)
  | close

namespace ReverseConn

def new (peerToken : Bytes16) : ReverseConn where
  peerToken := peerToken
  entries _ := none
  next := 0
  queue := []
  closed := false
  opened := []
  taken := []

def setEntry (s : ReverseConn) (id : ℕ) (entry : ReverseEntry) : ReverseConn :=
  { s with entries := Function.update s.entries id (some entry) }

def afterFate : Forward.Fate → LoopState
  | .accepted | .unavailable => .running
  | .ended => .ended
  | .waiting => .waiting

/-- The loop of `entry` takes the first stream of the queue. -/
def take (M : Misread) (s : ReverseConn) (id : ℕ) (entry : ReverseEntry)
    (connect : String → Except String Unit) (intact : Bool) (stream : ReverseStream)
    (queue : List ReverseStream) : ReverseConn :=
  let (ack, fate) :=
    if intact then entry.forward.accept M s.peerToken connect stream else (none, .ended)
  { s.setEntry id { entry with loop := afterFate fate } with
    queue := queue
    taken := s.taken ++ [⟨id, stream, ack, fate⟩] }

def step (M : Misread) (s : ReverseConn) : ReverseEvent → ReverseConn
  | .start forward =>
    { s.setEntry s.next ⟨forward, true, if s.closed then .ended else .running⟩ with
      next := s.next + 1 }
  | .cancel id =>
    match s.entries id with
    | some entry => s.setEntry id { entry with active := false, loop := .ended }
    | none => s
  | .opens id originatorHost originatorPort =>
    match s.entries id, s.closed with
    | some entry, false =>
      let request := entry.forward.forwardAccepted s.peerToken originatorHost originatorPort
      let stream : ReverseStream := ⟨id, request.1, request.2⟩
      { s with queue := s.queue ++ [stream], opened := s.opened ++ [stream] }
    | _, _ => s
  | .accept id connect intact =>
    match s.entries id, s.queue with
    | some entry, stream :: queue =>
      if entry.loop = .running then s.take M id entry connect intact stream queue else s
    | _, _ => s
  | .close =>
    { s with
      closed := true
      entries := fun id => (s.entries id).map fun entry => { entry with loop := .ended } }

def Belongs (s : ReverseConn) (stream : ReverseStream) : Prop :=
  ∃ entry originatorHost originatorPort, s.entries stream.listener = some entry ∧
    entry.active = true ∧
    (stream.preamble, stream.op) =
      entry.forward.forwardAccepted s.peerToken originatorHost originatorPort

/-- Every stream that was taken was taken and accepted by the forward it belongs to,
and while the connection is open the loops of the active forwards run, the one of
the next stream among them. -/
structure Served (M : Misread) (s : ReverseConn) : Prop where
  own : ∀ taking ∈ s.taken, taking.loop = taking.stream.listener ∧ taking.fate = .accepted ∧
    taking.ack = some ⟨true, none⟩
  all : s.opened = s.taken.map Taking.stream ++ s.queue
  running : s.closed = false → ∀ id entry, s.entries id = some entry → entry.active = true →
    entry.loop = .running
  next : ∀ stream ∈ s.queue, ∃ entry, s.entries stream.listener = some entry ∧
    entry.active = true ∧
    entry.forward.accept M s.peerToken (fun _ => .ok ()) stream = (some ⟨true, none⟩, .accepted)

def Reachable (connect : String → Except String Unit) : Forward → Prop
  | .tcp _ _ => True
  | .agent _ localAgentPath => connect localAgentPath = .ok ()

/-- Each stream is taken by the loop of its own forward, and can be served there: the
request and the acknowledgement go through and the local socket is there. No forward
is cancelled with a stream on its way. -/
def Orderly (s : ReverseConn) : ReverseEvent → Prop
  | .start _ | .close => True
  | .cancel id => ∀ stream ∈ s.queue, stream.listener ≠ id
  | .opens id _ _ => ∀ entry, s.entries id = some entry → entry.active = true
  | .accept id connect intact =>
    (∀ stream, s.queue.head? = some stream → stream.listener = id) ∧
      (∀ entry, s.entries id = some entry → Reachable connect entry.forward) ∧ intact = true

/-! ## Orderly steps -/

variable {M : Misread} {connect : String → Except String Unit} {originatorHost : String}
  {originatorPort : UInt16} {stream : ReverseStream} {entry : ReverseEntry}

theorem accept_own {peerToken : Bytes16} {forward : Forward}
    (hrequest : (stream.preamble, stream.op) =
      forward.forwardAccepted peerToken originatorHost originatorPort)
    (hreach : Reachable connect forward) :
    forward.accept M peerToken connect stream = (some ⟨true, none⟩, .accepted) := by
  cases forward with
  | tcp bindHost bindPort =>
    obtain ⟨hpreamble, hop⟩ := Prod.mk.inj hrequest
    simp [Forward.accept, acceptTcpReverseOnce, hpreamble, hop, readTcpReqV2Tail, Forward.fate]
  | agent remoteAgentPath localAgentPath =>
    obtain ⟨hpreamble, hop⟩ := Prod.mk.inj hrequest
    have hconnect : connect localAgentPath = .ok () := hreach
    simp [Forward.accept, acceptUnixReverseConnection, hpreamble, hop, readUnixReqTail, hconnect,
      Forward.fate]

structure Sound (s : ReverseConn) : Prop where
  own : ∀ taking ∈ s.taken, taking.loop = taking.stream.listener ∧ taking.fate = .accepted ∧
    taking.ack = some ⟨true, none⟩
  all : s.opened = s.taken.map Taking.stream ++ s.queue
  running : s.closed = false → ∀ id entry, s.entries id = some entry → entry.active = true →
    entry.loop = .running
  belongs : ∀ stream ∈ s.queue, s.Belongs stream
  fresh : ∀ id, s.next ≤ id → s.entries id = none

variable {s : ReverseConn}

theorem Sound.served (h : s.Sound) : s.Served M := by
  refine ⟨h.own, h.all, h.running, fun stream hmem => ?_⟩
  obtain ⟨entry, originatorHost, originatorPort, hentry, hactive, hrequest⟩ := h.belongs stream hmem
  refine ⟨entry, hentry, hactive, accept_own hrequest ?_⟩
  cases entry.forward
  · trivial
  · rfl

theorem Sound.new (peerToken : Bytes16) : (ReverseConn.new peerToken).Sound :=
  ⟨nofun, rfl, nofun, nofun, fun _ _ => rfl⟩

theorem setEntry_self (s : ReverseConn) (id : ℕ) (entry : ReverseEntry) :
    (s.setEntry id entry).entries id = some entry :=
  Function.update_self ..

variable {id : ℕ}

theorem setEntry_of_ne {other : ℕ} (h : other ≠ id) (s : ReverseConn) (entry : ReverseEntry) :
    (s.setEntry id entry).entries other = s.entries other :=
  Function.update_of_ne h ..

/-- A stream still belongs to its forward when an entry is changed that is not the
entry of that forward, or stays active. -/
theorem Belongs.setEntry (h : s.Belongs stream)
    (hentry : stream.listener = id → ∀ old, s.entries id = some old →
      entry.forward = old.forward ∧ entry.active = old.active) :
    (s.setEntry id entry).Belongs stream := by
  obtain ⟨old, originatorHost, originatorPort, hold, hactive, hrequest⟩ := h
  rcases eq_or_ne stream.listener id with hsame | hne
  · rw [hsame] at hold
    obtain ⟨hforward, hkept⟩ := hentry hsame old hold
    refine ⟨entry, originatorHost, originatorPort, ?_, hkept.trans hactive, ?_⟩
    · rw [hsame, setEntry_self]
    · rw [hforward]
      exact hrequest
  · refine ⟨old, originatorHost, originatorPort, ?_, hactive, hrequest⟩
    rw [setEntry_of_ne hne]
    exact hold

theorem running_setEntry
    (h : ∀ id entry, s.entries id = some entry → entry.active = true → entry.loop = .running)
    (hentry : entry.active = true → entry.loop = .running) :
    ∀ other entry', (s.setEntry id entry).entries other = some entry' → entry'.active = true →
      entry'.loop = .running := by
  intro other entry' hother
  rcases eq_or_ne other id with rfl | hne
  · rw [setEntry_self] at hother
    cases hother
    exact hentry
  · rw [setEntry_of_ne hne] at hother
    exact h other entry' hother

variable (h : s.Sound)
include h

theorem Sound.start (forward : Forward) : (s.step M (.start forward)).Sound := by
  have hfresh := h.fresh s.next (Nat.le_refl _)
  refine ⟨h.own, h.all, fun hopen => ?_, fun stream hmem => ?_, fun id hid => ?_⟩
  · have hclosed : s.closed = false := hopen
    refine running_setEntry (h.running hclosed) fun _ => ?_
    rw [hclosed]
    rfl
  · refine (h.belongs stream hmem).setEntry fun _ old hold => ?_
    rw [hfresh] at hold
    cases hold
  · have hne : id ≠ s.next := Nat.ne_of_gt hid
    exact (setEntry_of_ne hne s _).trans (h.fresh id (Nat.le_of_succ_le hid))

theorem Sound.cancel (hok : s.Orderly (.cancel id)) : (s.step M (.cancel id)).Sound := by
  simp only [ReverseConn.step]
  split
  · next entry hentry =>
      refine ⟨h.own, h.all, fun hopen => ?_, fun stream hmem => ?_, fun other hother => ?_⟩
      · exact running_setEntry (h.running hopen) nofun
      · exact (h.belongs stream hmem).setEntry fun hsame => absurd hsame (hok stream hmem)
      · have hne : other ≠ id := by
          rintro rfl
          rw [h.fresh other hother] at hentry
          cases hentry
        rw [setEntry_of_ne hne]
        exact h.fresh other hother
  · exact h

theorem Sound.opens (hok : s.Orderly (.opens id originatorHost originatorPort)) :
    (s.step M (.opens id originatorHost originatorPort)).Sound := by
  simp only [ReverseConn.step]
  split
  · next entry hentry hopen =>
      refine ⟨h.own, ?_, h.running, fun stream hmem => ?_, h.fresh⟩
      · rw [h.all, append_assoc]
      · rcases mem_append.mp hmem with hold | hnew
        · exact h.belongs stream hold
        · cases mem_singleton.mp hnew
          exact ⟨entry, originatorHost, originatorPort, hentry, hok entry hentry, rfl⟩
  · exact h

theorem Sound.accept {intact : Bool} (hok : s.Orderly (.accept id connect intact)) :
    (s.step M (.accept id connect intact)).Sound := by
  obtain ⟨hown, hreach, rfl⟩ := hok
  simp only [ReverseConn.step]
  split
  · next entry stream queue hentry hqueue =>
      split
      · next hrunning =>
          have hmem : stream ∈ s.queue := by
            rw [hqueue]
            exact mem_cons_self
          have hlistener : stream.listener = id := hown stream (by rw [hqueue]; rfl)
          obtain ⟨entry', originatorHost, originatorPort, hentry', hactive, hrequest⟩ :=
            h.belongs stream hmem
          rw [hlistener, hentry] at hentry'
          cases hentry'
          have haccept := accept_own (M := M) hrequest (hreach entry hentry)
          simp only [take, if_true, haccept]
          refine ⟨fun taking htaking => ?_, ?_, fun hopen => ?_, fun other hother => ?_,
            fun other hother => ?_⟩
          · rcases mem_append.mp htaking with hold | hnew
            · exact h.own taking hold
            · cases mem_singleton.mp hnew
              exact ⟨hlistener.symm, rfl, rfl⟩
          · show s.opened = List.map Taking.stream (s.taken ++ [Taking.mk id stream _ _]) ++ queue
            rw [h.all, hqueue, map_append, append_assoc]
            rfl
          · exact running_setEntry (h.running hopen) fun _ => rfl
          · have hqueued : other ∈ s.queue := by
              rw [hqueue]
              exact mem_cons_of_mem _ hother
            refine (h.belongs other hqueued).setEntry fun _ old hold => ?_
            rw [hentry] at hold
            cases hold
            exact ⟨rfl, rfl⟩
          · have hne : other ≠ id := by
              rintro rfl
              rw [h.fresh other hother] at hentry
              cases hentry
            exact (setEntry_of_ne hne s _).trans (h.fresh other hother)
      · exact h
  · exact h

theorem Sound.close : (s.step M .close).Sound := by
  refine ⟨h.own, h.all, nofun, fun stream hmem => ?_, fun id hid => ?_⟩
  · obtain ⟨entry, originatorHost, originatorPort, hentry, hactive, hrequest⟩ := h.belongs stream hmem
    refine ⟨{ entry with loop := .ended }, originatorHost, originatorPort, ?_, hactive, hrequest⟩
    show (s.entries stream.listener).map _ = _
    rw [hentry]
    rfl
  · show (s.entries id).map _ = none
    rw [h.fresh id hid]
    rfl

theorem Sound.step {event : ReverseEvent} (hok : s.Orderly event) : (s.step M event).Sound := by
  cases event with
  | start forward => exact h.start forward
  | cancel id => exact h.cancel hok
  | opens id originatorHost originatorPort => exact h.opens hok
  | accept id connect intact => exact h.accept hok
  | close => exact h.close

end ReverseConn

/-- **Reverse streams reach their forward.** In every run in which each stream is
taken by the loop of its own forward and can be served there, every stream that was
taken was accepted by the forward it was opened for, and the loops of the active
forwards run as long as the connection is open. -/
theorem reverse_streams_served (M : Misread) (peerToken : Bytes16) (events : List ReverseEvent)
    (hrun : Run.Guarded (ReverseConn.step M) ReverseConn.Orderly (.new peerToken) events) :
    (events.foldl (ReverseConn.step M) (.new peerToken)).Served M := by
  have hsound := hrun.invariant (I := ReverseConn.Sound) (fun _ _ h hok => h.step hok)
    (ReverseConn.Sound.new peerToken)
  exact hsound.served

def twoForwards : List ReverseEvent :=
  [.start (.tcp "localhost" 8080), .start (.agent "/tmp/agent.sock" "/run/agent.sock"),
    .opens 1 "" 0, .opens 0 "10.0.0.7" 40000, .accept 1 (fun _ => .ok ()) true,
    .accept 0 (fun _ => .ok ()) true]

theorem reverse_streams_served_two :
    (twoForwards.foldl (ReverseConn.step ⟨fun _ => .waits, fun _ => .invalid⟩)
      (.new (Vector.replicate 16 0))).Served ⟨fun _ => .waits, fun _ => .invalid⟩ := by
  refine reverse_streams_served _ _ twoForwards ⟨trivial, trivial, ?_, ?_, ?_, ?_, trivial⟩
  · rintro entry ⟨⟩
    rfl
  · rintro entry ⟨⟩
    rfl
  · refine ⟨?_, ?_, rfl⟩
    · rintro stream ⟨⟩
      rfl
    · rintro entry ⟨⟩
      rfl
  · refine ⟨?_, ?_, rfl⟩
    · rintro stream ⟨⟩
      rfl
    · rintro entry ⟨⟩
      trivial

/-- The loop of one TCP forward takes the stream of another: the stream is refused
and the loop ends. -/
theorem reverse_stream_refused_by_other :
    let s := ([.start (.tcp "localhost" 8080), .start (.tcp "localhost" 9090),
        .opens 1 "10.0.0.7" 40000, .accept 0 (fun _ => .ok ()) true] : List ReverseEvent).foldl
      (ReverseConn.step ⟨fun _ => .waits, fun _ => .invalid⟩) (.new (Vector.replicate 16 0))
    s.taken.map (fun taking => (taking.loop, taking.stream.listener, taking.ack)) =
        [(0, 1, some ⟨false, some "unexpected reverse tcp listener localhost:9090"⟩)] ∧
      s.entries 0 = some ⟨.tcp "localhost" 8080, true, .ended⟩ := by
  decide

end Portl
