import Mathlib.Data.Fintype.Basic
import Portl.Lib.Run

/-!
# The pump of the herdr server lanes

`pump_herdr_server_lane_events_to_local` writes what arrives on three lanes to the
local client. A pass of its loop first drains the channels of the lanes, then writes
one frame, and only with nothing to write waits in a `select!` for a lane that is
open. The loop goes on while a lane is open or a frame is pending; this was asked
before the drains. Where a drain finds the end of the last lane, the `select!` has
no branch left, and panics.
-/

namespace Portl

open List

inductive ServerLane where
  | control
  | render
  | bulk
deriving DecidableEq

instance : Fintype ServerLane where
  elems := {.control, .render, .bulk}
  complete lane := by cases lane <;> decide

def herdrServerLaneBuffer : ℕ := 16

/-- `HERDR_PENDING_CONTROL_LIMIT` and the other two. -/
def herdrPendingLimit : ServerLane → ℕ
  | .control => 16
  | .render => 16
  | .bulk => 8

structure HerdrPendingFrames (Frame : Type) where
  max : ℕ
  frames : List Frame

namespace HerdrPendingFrames

variable {Frame : Type}

def new (max : ℕ) : HerdrPendingFrames Frame := ⟨max, []⟩

def isEmpty (p : HerdrPendingFrames Frame) : Bool := p.frames.isEmpty

def canAccept (p : HerdrPendingFrames Frame) : Bool := decide (p.frames.length < p.max)

def push (p : HerdrPendingFrames Frame) (frame : Frame) : HerdrPendingFrames Frame :=
  { p with frames := p.frames ++ [frame] }

def popFront (p : HerdrPendingFrames Frame) : Option (Frame × HerdrPendingFrames Frame) :=
  match p.frames with
  | [] => none
  | frame :: frames => some (frame, { p with frames := frames })

end HerdrPendingFrames

/-! ## A lane -/

abbrev LaneEvent (Frame ε : Type) := Except ε (Option Frame)

inductive TryRecvError where
  | empty
  | disconnected
deriving DecidableEq

/-- `connected` says that the reader task holds its sender. `sent` and `received` are
what has gone into the channel and come out of it. -/
structure HerdrLane (Frame ε : Type) where
  channel : List (LaneEvent Frame ε)
  connected : Bool
  isOpen : Bool
  pending : HerdrPendingFrames Frame
  sent : List (LaneEvent Frame ε)
  received : List (LaneEvent Frame ε)

namespace HerdrLane

variable {Frame ε : Type}

def new (max : ℕ) : HerdrLane Frame ε := ⟨[], true, true, .new max, [], []⟩

/-- `read_herdr_server_lane` returns after an end or an error. It waits while the
channel is full. -/
def send (l : HerdrLane Frame ε) (event : LaneEvent Frame ε) : HerdrLane Frame ε :=
  if l.connected && decide (l.channel.length < herdrServerLaneBuffer) then
    { l with
      channel := l.channel ++ [event]
      sent := l.sent ++ [event]
      connected := match event with
        | .ok (some _) => true
        | .ok none | .error _ => false }
  else l

def hangUp (l : HerdrLane Frame ε) : HerdrLane Frame ε := { l with connected := false }

def got (l : HerdrLane Frame ε) (event : LaneEvent Frame ε) (rest : List (LaneEvent Frame ε)) :
    HerdrLane Frame ε :=
  { l with channel := rest, received := l.received ++ [event] }

def tryRecv (l : HerdrLane Frame ε) : Except TryRecvError (LaneEvent Frame ε) × HerdrLane Frame ε :=
  match l.channel with
  | event :: channel => (.ok event, l.got event channel)
  | [] => (.error (if l.connected then .empty else .disconnected), l)

/-- `recv`, once it is ready: `none` when the channel has been closed. -/
def recv (l : HerdrLane Frame ε) : Option (Option (LaneEvent Frame ε) × HerdrLane Frame ε) :=
  match l.tryRecv with
  | (.ok event, l) => some (some event, l)
  | (.error .disconnected, l) => some (none, l)
  | (.error .empty, _) => none

def applyHerdrLaneEvent (event : Option (LaneEvent Frame ε)) (l : HerdrLane Frame ε) :
    Except ε (HerdrLane Frame ε) :=
  match event with
  | some (.ok (some frame)) => .ok { l with pending := l.pending.push frame }
  | some (.ok none) | none => .ok { l with isOpen := false }
  | some (.error e) => .error e

def atEnd (l : HerdrLane Frame ε) : Bool :=
  match l.channel with
  | .ok none :: _ => true
  | [] => !l.connected
  | _ => false

end HerdrLane

/-! ## The pump -/

inductive PumpError (ε : Type) where
  | lane (e : ε)
  | write
deriving DecidableEq

inductive PumpPhase (ε : Type) where
  | top
  | drain (lane : ServerLane)
  | schedule
  | select
  | returned (result : Except (PumpError ε) Unit)
  | panicked

/-- `written` is what the local client has got, with the lane it came from. -/
structure HerdrPump (Frame ε : Type) where
  lanes : ServerLane → HerdrLane Frame ε
  controlStreak : ℕ
  renderStreak : ℕ
  phase : PumpPhase ε
  written : List (ServerLane × Frame)
  writeFailed : Bool

/-- What the reader tasks do, and one step of the pump; `run` carries whether a
write to the client succeeds. -/
inductive PumpEvent (Frame ε : Type) where
  | send (lane : ServerLane) (event : LaneEvent Frame ε)
  | hangUp (lane : ServerLane)
  | run (wrote : Bool)

namespace HerdrPump

variable {Frame ε : Type}

def new : HerdrPump Frame ε where
  lanes lane := .new (herdrPendingLimit lane)
  controlStreak := 0
  renderStreak := 0
  phase := .top
  written := []
  writeFailed := false

def setLane (s : HerdrPump Frame ε) (lane : ServerLane) (l : HerdrLane Frame ε) :
    HerdrPump Frame ε :=
  { s with lanes := Function.update s.lanes lane l }

def goTo (s : HerdrPump Frame ε) (phase : PumpPhase ε) : HerdrPump Frame ε :=
  { s with phase := phase }

def anyOpen (s : HerdrPump Frame ε) : Bool :=
  (s.lanes .control).isOpen || (s.lanes .render).isOpen || (s.lanes .bulk).isOpen

def anyPending (s : HerdrPump Frame ε) : Bool :=
  !(s.lanes .control).pending.isEmpty || !(s.lanes .render).pending.isEmpty ||
    !(s.lanes .bulk).pending.isEmpty

def afterDrain : ServerLane → PumpPhase ε
  | .control => .drain .render
  | .render => .drain .bulk
  | .bulk => .schedule

/-- One `try_recv` of `drain_ready_herdr_lane_events`. -/
def drainReadyHerdrLaneEvents (s : HerdrPump Frame ε) (lane : ServerLane) : HerdrPump Frame ε :=
  if (s.lanes lane).isOpen && (s.lanes lane).pending.canAccept then
    match (s.lanes lane).tryRecv with
    | (.error .empty, _) => s.goTo (afterDrain lane)
    | (.error .disconnected, l) =>
      (s.setLane lane { l with isOpen := false }).goTo (afterDrain lane)
    | (.ok event, l) =>
      match HerdrLane.applyHerdrLaneEvent (some event) l with
      | .error e => (s.setLane lane l).goTo (.returned (.error (.lane e)))
      | .ok l => (s.setLane lane l).goTo (if l.isOpen then .drain lane else afterDrain lane)
  else s.goTo (afterDrain lane)

def nextLane (s : HerdrPump Frame ε) : Option ServerLane :=
  let lowerPending := !(s.lanes .render).pending.isEmpty || !(s.lanes .bulk).pending.isEmpty
  if (decide (s.controlStreak < 8) || !lowerPending) && !(s.lanes .control).pending.isEmpty then
    some .control
  else if decide (s.renderStreak ≥ 4) && !(s.lanes .bulk).pending.isEmpty then some .bulk
  else if !(s.lanes .render).pending.isEmpty then some .render
  else if !(s.lanes .bulk).pending.isEmpty then some .bulk
  else none

/-- `u8::saturating_add(1)`. -/
def bump (n : ℕ) : ℕ := min (n + 1) 255

def countStreaks (s : HerdrPump Frame ε) : ServerLane → HerdrPump Frame ε
  | .control => { s with controlStreak := bump s.controlStreak }
  | .render => { s with controlStreak := 0, renderStreak := bump s.renderStreak }
  | .bulk => { s with controlStreak := 0, renderStreak := 0 }

/-- `write_herdr_local_frame` of the first pending frame of a lane. -/
def writeFront (s : HerdrPump Frame ε) (lane : ServerLane) (wrote : Bool) : HerdrPump Frame ε :=
  match (s.lanes lane).pending.popFront with
  | none => s
  | some (frame, pending) =>
    let s := s.setLane lane { s.lanes lane with pending := pending }
    if wrote then
      ({ s with written := s.written ++ [(lane, frame)] }.countStreaks lane).goTo .top
    else { s with writeFailed := true }.goTo (.returned (.error .write))

def schedule (s : HerdrPump Frame ε) (wrote : Bool) : HerdrPump Frame ε :=
  match s.nextLane with
  | some lane => s.writeFront lane wrote
  | none => s.goTo .select

/-- A lane whose branch of the `select!` is enabled and ready. -/
def ready (s : HerdrPump Frame ε) (lane : ServerLane) : Bool :=
  (s.lanes lane).isOpen && (s.lanes lane).recv.isSome

/-- The `select!` is biased and has no `else`. -/
def select (s : HerdrPump Frame ε) : HerdrPump Frame ε :=
  if s.anyOpen then
    match [ServerLane.control, .render, .bulk].find? s.ready with
    | none => s
    | some lane =>
      match (s.lanes lane).recv with
      | none => s
      | some (event, l) =>
        match HerdrLane.applyHerdrLaneEvent event l with
        | .error e => (s.setLane lane l).goTo (.returned (.error (.lane e)))
        | .ok l => (s.setLane lane l).goTo .top
  else s.goTo .panicked

/-- `pump_herdr_server_lane_events_to_local`. -/
def advance (s : HerdrPump Frame ε) (wrote : Bool) : HerdrPump Frame ε :=
  match s.phase with
  | .top =>
    if s.anyOpen || s.anyPending then s.goTo (.drain .control)
    else s.goTo (.returned (.ok ()))
  | .drain lane => s.drainReadyHerdrLaneEvents lane
  | .schedule => s.schedule wrote
  | .select => s.select
  | .returned _ | .panicked => s

def step (s : HerdrPump Frame ε) : PumpEvent Frame ε → HerdrPump Frame ε
  | .send lane event => s.setLane lane ((s.lanes lane).send event)
  | .hangUp lane => s.setLane lane (s.lanes lane).hangUp
  | .run wrote => s.advance wrote

def FedAt (s : HerdrPump Frame ε) : PumpPhase ε → Prop
  | .drain lane => (s.lanes lane).isOpen = true → (s.lanes lane).atEnd = true →
      (∃ other, other ≠ lane ∧ (s.lanes other).isOpen = true) ∨ s.anyPending = true
  | .top | .schedule | .select | .returned _ | .panicked => True

def Fed (s : HerdrPump Frame ε) : PumpEvent Frame ε → Prop
  | .run _ => s.FedAt s.phase
  | .send _ _ | .hangUp _ => True

instance (s : HerdrPump Frame ε) : (phase : PumpPhase ε) → Decidable (s.FedAt phase)
  | .drain lane => inferInstanceAs (Decidable ((s.lanes lane).isOpen = true →
      (s.lanes lane).atEnd = true →
      (∃ other, other ≠ lane ∧ (s.lanes other).isOpen = true) ∨ s.anyPending = true))
  | .top | .schedule | .select | .returned _ | .panicked => isTrue trivial

instance (s : HerdrPump Frame ε) : (event : PumpEvent Frame ε) → Decidable (s.Fed event)
  | .run _ => inferInstanceAs (Decidable (s.FedAt s.phase))
  | .send _ _ | .hangUp _ => isTrue trivial

end HerdrPump

/-! ## What a lane keeps -/

namespace HerdrLane

variable {Frame ε : Type} {l l' : HerdrLane Frame ε} {written : List Frame}

def framesOf (events : List (LaneEvent Frame ε)) : List Frame :=
  events.filterMap fun
    | .ok frame => frame
    | .error _ => none

/-- Only the last event of a channel is not a frame, and nothing is sent after it. -/
def EndsLast (connected : Bool) (channel : List (LaneEvent Frame ε)) : Prop :=
  ∃ (frames : List Frame) (last : List (LaneEvent Frame ε)),
    channel = frames.map (fun frame => .ok (some frame)) ++ last ∧ last.length ≤ 1 ∧
      (last ≠ [] → connected = false)

/-- `written` is what has been written of the lane. -/
structure Sound (l : HerdrLane Frame ε) (written : List Frame) : Prop where
  ledger : l.sent = l.received ++ l.channel
  frames : framesOf l.received = written ++ l.pending.frames
  shape : EndsLast l.connected l.channel
  closed : l.isOpen = false → l.channel = [] ∧ l.connected = false
  clean : ∀ e, .error e ∉ l.received
  bounded : l.pending.frames.length ≤ l.pending.max
  room : 0 < l.pending.max

theorem Sound.new {max : ℕ} (h : 0 < max) : (HerdrLane.new max : HerdrLane Frame ε).Sound [] :=
  ⟨rfl, rfl, ⟨[], [], rfl, Nat.zero_le _, fun h => absurd rfl h⟩, nofun, nofun, Nat.zero_le _, h⟩

theorem framesOf_append (events events' : List (LaneEvent Frame ε)) :
    framesOf (events ++ events') = framesOf events ++ framesOf events' :=
  filterMap_append

variable (h : l.Sound written)
include h

theorem Sound.send (event : LaneEvent Frame ε) : (l.send event).Sound written := by
  unfold HerdrLane.send
  split
  · next hcan =>
      have hconnected : l.connected = true := (Bool.and_eq_true_iff.mp hcan).1
      obtain ⟨frames, last, hchannel, -, hlast⟩ := h.shape
      have hnone : last = [] := by
        by_contra hne
        rw [hlast hne] at hconnected
        cases hconnected
      subst hnone
      rw [append_nil] at hchannel
      refine ⟨?_, h.frames, ?_, fun hclosed => ?_, h.clean, h.bounded, h.room⟩
      · show l.sent ++ [event] = l.received ++ (l.channel ++ [event])
        rw [h.ledger, append_assoc]
      · rcases event with e | (_ | frame)
        · exact ⟨frames, [.error e], congrArg (· ++ _) hchannel, Nat.le_refl _, fun _ => rfl⟩
        · exact ⟨frames, [.ok none], congrArg (· ++ _) hchannel, Nat.le_refl _, fun _ => rfl⟩
        · refine ⟨frames ++ [frame], [], ?_, Nat.zero_le _, fun hne => absurd rfl hne⟩
          show l.channel ++ [.ok (some frame)] = _
          rw [hchannel, append_nil, map_append]
          rfl
      · have hoff := (h.closed hclosed).2
        rw [hoff] at hconnected
        cases hconnected
  · exact h

theorem Sound.hangUp : l.hangUp.Sound written := by
  obtain ⟨frames, last, hchannel, hlength, -⟩ := h.shape
  exact ⟨h.ledger, h.frames, ⟨frames, last, hchannel, hlength, fun _ => rfl⟩,
    fun hclosed => ⟨(h.closed hclosed).1, rfl⟩, h.clean, h.bounded, h.room⟩

theorem Sound.disconnected (hchannel : l.channel = []) (hoff : l.connected = false) :
    { l with isOpen := false }.Sound written :=
  ⟨h.ledger, h.frames, h.shape, fun _ => ⟨hchannel, hoff⟩, h.clean, h.bounded, h.room⟩

variable {event : LaneEvent Frame ε} {later : List (LaneEvent Frame ε)}

theorem Sound.rest (hchannel : l.channel = event :: later) :
    EndsLast l.connected later ∧
      ((∃ frame, event = .ok (some frame)) ∨ later = [] ∧ l.connected = false) := by
  obtain ⟨frames, last, hshape, hlength, hlast⟩ := h.shape
  rw [hchannel] at hshape
  cases frames with
  | nil =>
    have hone : last = event :: later := hshape.symm
    subst hone
    have hrest : later = [] :=
      length_eq_zero_iff.mp (Nat.le_zero.mp (Nat.le_of_succ_le_succ hlength))
    exact ⟨⟨[], [], hrest, Nat.zero_le _, fun hne => absurd rfl hne⟩,
      .inr ⟨hrest, hlast (cons_ne_nil _ _)⟩⟩
  | cons frame frames =>
    obtain ⟨hevent, hrest⟩ := cons_eq_cons.mp hshape
    exact ⟨⟨frames, last, hrest, hlength, hlast⟩, .inl ⟨frame, hevent⟩⟩

theorem Sound.got_ledger (hchannel : l.channel = event :: later) :
    l.sent = l.received ++ [event] ++ later := by
  rw [h.ledger, hchannel, append_assoc, singleton_append]

theorem Sound.got_clean (hevent : ∀ e, event ≠ .error e) :
    ∀ e, .error e ∉ l.received ++ [event] := by
  intro e hmem
  rcases mem_append.mp hmem with hold | hnew
  · exact h.clean e hold
  · exact hevent e (mem_singleton.mp hnew).symm

variable {frame : Frame}

theorem Sound.receiveFrame (hchannel : l.channel = .ok (some frame) :: later)
    (hopen : l.isOpen = true) (hroom : l.pending.canAccept = true) :
    { l.got (.ok (some frame)) later with pending := l.pending.push frame }.Sound written := by
  refine ⟨?_, ?_, (h.rest hchannel).1, fun hclosed => ?_, h.got_clean nofun, ?_, h.room⟩
  · exact h.got_ledger hchannel
  · show framesOf (l.received ++ [_]) = written ++ (l.pending.frames ++ [frame])
    rw [framesOf_append, h.frames, append_assoc]
    rfl
  · rw [show l.isOpen = false from hclosed] at hopen
    cases hopen
  · show (l.pending.frames ++ [frame]).length ≤ l.pending.max
    rw [length_append]
    exact of_decide_eq_true hroom

theorem Sound.receiveEnd (hchannel : l.channel = .ok none :: later) :
    { l.got (.ok none) later with isOpen := false }.Sound written := by
  obtain ⟨hshape, hrest⟩ := h.rest hchannel
  refine ⟨?_, ?_, hshape, fun _ => ?_, h.got_clean nofun, h.bounded, h.room⟩
  · exact h.got_ledger hchannel
  · show framesOf (l.received ++ [_]) = written ++ l.pending.frames
    rw [framesOf_append, h.frames]
    exact append_nil _
  · rcases hrest with ⟨frame, hframe⟩ | hend
    · cases hframe
    · exact hend

theorem Sound.pop {pending : HerdrPendingFrames Frame}
    (hpop : l.pending.popFront = some (frame, pending)) :
    { l with pending := pending }.Sound (written ++ [frame]) := by
  unfold HerdrPendingFrames.popFront at hpop
  split at hpop
  · cases hpop
  · next frames hframes =>
      cases hpop
      refine ⟨h.ledger, ?_, h.shape, h.closed, h.clean, ?_, h.room⟩
      · show framesOf l.received = written ++ [frame] ++ frames
        rw [h.frames, hframes, append_assoc, singleton_append]
      · have hbounded := h.bounded
        rw [hframes, length_cons] at hbounded
        exact Nat.le_of_succ_le hbounded

omit h

/-- The lane `l'` is `l` after its end was received. -/
def Closes (l l' : HerdrLane Frame ε) : Prop :=
  (l.channel = [] ∧ l.connected = false ∧ l' = { l with isOpen := false }) ∨
    ∃ rest, l.channel = .ok none :: rest ∧ l' = { l.got (.ok none) rest with isOpen := false }

theorem Closes.sound (hcloses : l.Closes l') (h : l.Sound written) : l'.Sound written := by
  rcases hcloses with ⟨hchannel, hoff, rfl⟩ | ⟨rest, hchannel, rfl⟩
  · exact h.disconnected hchannel hoff
  · exact h.receiveEnd hchannel

theorem Closes.atEnd (hcloses : l.Closes l') : l.atEnd = true := by
  unfold HerdrLane.atEnd
  rcases hcloses with ⟨hchannel, hoff, -⟩ | ⟨rest, hchannel, -⟩
  · rw [hchannel, hoff]
    rfl
  · rw [hchannel]

theorem Closes.pending (hcloses : l.Closes l') : l'.pending = l.pending := by
  rcases hcloses with ⟨-, -, rfl⟩ | ⟨rest, -, rfl⟩
  · rfl
  · rfl

theorem recv_cases (l : HerdrLane Frame ε) :
    (l.channel = [] ∧ l.connected = true ∧ l.recv = none) ∨
      (l.channel = [] ∧ l.connected = false ∧ l.recv = some (none, l)) ∨
      ∃ event rest, l.channel = event :: rest ∧ l.recv = some (some event, l.got event rest) := by
  cases hchannel : l.channel with
  | nil =>
    cases hconnected : l.connected with
    | true =>
      left
      refine ⟨rfl, rfl, ?_⟩
      simp [HerdrLane.recv, HerdrLane.tryRecv, hchannel, hconnected]
    | false =>
      right
      left
      refine ⟨rfl, rfl, ?_⟩
      simp [HerdrLane.recv, HerdrLane.tryRecv, hchannel, hconnected]
  | cons event rest =>
    right
    right
    refine ⟨event, rest, rfl, ?_⟩
    simp [HerdrLane.recv, HerdrLane.tryRecv, hchannel]

end HerdrLane

end Portl
