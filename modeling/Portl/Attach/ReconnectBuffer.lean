import Portl.Attach.Input

/-!
# Input while reconnecting

`attach_input_coordinator_loop`: without a sink what is typed goes through the response
filter into a buffer of 256 KiB, and the next sink that is set is sent the buffer first.

The buffer is emptied before that send. When the send fails the sink is not set, and the
bytes are in no place any more; when the resize before it fails they are still there.
-/

namespace Portl

open List

inductive ReconnectBufferPush where
  | accepted
  | full
deriving DecidableEq

structure ReconnectInputBuffer (limit : ℕ) where
  bytes : Bytes
  within : bytes.length ≤ limit

namespace ReconnectInputBuffer

variable {limit : ℕ}

def new (limit : ℕ) : ReconnectInputBuffer limit := ⟨[], Nat.zero_le limit⟩

def room (b : ReconnectInputBuffer limit) (bytes : Bytes) : Bytes :=
  bytes.take (limit - b.bytes.length)

theorem within_push (b : ReconnectInputBuffer limit) (bytes : Bytes) :
    (b.bytes ++ b.room bytes).length ≤ limit := by
  have hwithin := b.within
  rw [length_append, room, length_take]
  omega

def push (b : ReconnectInputBuffer limit) (bytes : Bytes) :
    ReconnectBufferPush × ReconnectInputBuffer limit :=
  (if bytes.length > limit - b.bytes.length then .full else .accepted,
    ⟨b.bytes ++ b.room bytes, b.within_push bytes⟩)

def isFull (b : ReconnectInputBuffer limit) : Bool := decide (limit ≤ b.bytes.length)

def take (b : ReconnectInputBuffer limit) : Bytes × ReconnectInputBuffer limit :=
  (b.bytes, new limit)

end ReconnectInputBuffer

def reconnectBufferLimit : ℕ := 256 * 1024

inductive AttachInputMode where
  | connected
  | disconnected (visible : Bool)
deriving DecidableEq

/-- What becomes of the buffer: bytes are accepted, or a sink is set and sent the bytes. -/
inductive ReconnectEntry where
  | accepted (bytes : Bytes)
  | installed (sink : ℕ) (flushed : Bytes)
deriving DecidableEq

/-- The state of the loop. Sinks are numbered, and `log` is a history. -/
structure AttachCoordinator where
  sink : Option ℕ
  mode : AttachInputMode
  buffer : ReconnectInputBuffer reconnectBufferLimit
  lastSize : UInt16 × UInt16
  pendingSize : Option (UInt16 × UInt16)
  input : AttachInput
  ended : Bool
  log : List ReconnectEntry

/-- A command, a read, the half second without either, or an end of the loop. The flags say
which calls of the sink fail; `size` is what the terminal answers. -/
inductive CoordinatorEvent where
  | setSink (next : ℕ) (resizeFails sendFails : Bool)
  | clearSink
  | setReconnectVisible (visible : Bool)
  | requestViewport
  | read (r : AttachRead) (sendFails : Bool)
  | tick (size : Option (UInt16 × UInt16)) (sendFails resizeFails : Bool)
  | ends

namespace AttachInput

def outbound (s : AttachInput) (r : AttachRead) : Bytes × QueryResponseFilter :=
  if isCtrlBackslashSequence r.chunk ∨ (s.observe r).paste.active ∧ r.chunk = [esc] then
    ([], s.filter)
  else filterAttachStdinOutbound s.filter r.reload (r.chunk ++ escapeTail true r)

/-- `handle_attach_input_bytes` up to a send that fails. -/
def sendFailed (s : AttachInput) (r : AttachRead) : AttachInput :=
  let outbound := s.outbound r
  let s := (s.observe r).take (escapeTail true r)
  { s with filter := outbound.2, paste := s.paste.observeQueued outbound.1.length }

end AttachInput

namespace AttachCoordinator

def start (size : UInt16 × UInt16) : AttachCoordinator :=
  ⟨none, .disconnected false, .new _, size, none, .new, false, []⟩

def lose (s : AttachCoordinator) : AttachCoordinator :=
  { s with sink := none, mode := .disconnected false }

def accept (s : AttachCoordinator) (bytes : Bytes) : AttachCoordinator :=
  { s with
    buffer := (s.buffer.push bytes).2
    log := s.log ++ [.accepted (s.buffer.room bytes)] }

def setSink (s : AttachCoordinator) (next : ℕ) (resizeFails sendFails : Bool) :
    AttachCoordinator :=
  if s.pendingSize.isSome ∧ resizeFails = true then { s with mode := .disconnected false }
  else
    let taken := s.buffer.take
    if taken.1 ≠ [] ∧ sendFails = true then
      { s with buffer := taken.2, mode := .disconnected false }
    else
      { s with
        buffer := taken.2
        mode := .connected
        sink := some next
        log := s.log ++ [.installed next taken.1] }

def settle (s : AttachCoordinator) : AttachCoordinator :=
  if s.sink.isSome then { s with pendingSize := none } else s

/-- `handle_attach_input_bytes`. -/
def read (controls : AttachControls) (s : AttachCoordinator) (r : AttachRead) (sendFails : Bool) :
    AttachCoordinator :=
  match s.mode with
  | .connected =>
    if s.sink = none then { s with mode := .disconnected false }
    else if sendFails = true ∧ (s.input.outbound r).1 ≠ [] then
      { s with input := s.input.sendFailed r }.lose
    else { s with input := s.input.handleAttachInputBytes controls r }
  | .disconnected true => s
  | .disconnected false =>
    let filtered := s.input.filter.feed r.chunk
    let s := { s with input := { s.input with filter := filtered.2 } }
    if filtered.1 = [] then s
    else
      let pushed := s.buffer.push filtered.1
      let s := s.accept filtered.1
      if pushed.1 = .full ∨ pushed.2.isFull then { s with mode := .disconnected true } else s

def flush (s : AttachCoordinator) (sendFails : Bool) : AttachCoordinator :=
  let flushed := s.input.filter.flushTimeout
  let s := { s with input := { s.input with filter := flushed.2 } }
  if flushed.1 = [] then s
  else
    match s.mode with
    | .connected =>
      if s.sink = none then s
      else if sendFails then s.lose
      else { s with input := s.input.sendStdin flushed.1 }
    | .disconnected false => s.accept flushed.1
    | .disconnected true => s

def resize (s : AttachCoordinator) (size : Option (UInt16 × UInt16)) (resizeFails : Bool) :
    AttachCoordinator :=
  match size with
  | none => s
  | some now =>
    if now = s.lastSize then s
    else
      let s := { s with lastSize := now, pendingSize := some now }
      if s.sink = none then s
      else if resizeFails then s.lose
      else { s with pendingSize := none }

def step (controls : AttachControls) (s : AttachCoordinator) (event : CoordinatorEvent) :
    AttachCoordinator :=
  if s.ended then s
  else
    match event with
    | .setSink next resizeFails sendFails => (s.setSink next resizeFails sendFails).settle
    | .clearSink => s.lose.settle
    | .setReconnectVisible visible =>
      (if s.sink = none then { s with mode := .disconnected visible } else s).settle
    | .requestViewport => s.settle
    | .read r sendFails => s.read controls r sendFails
    | .tick size sendFails resizeFails => (s.flush sendFails).resize size resizeFails
    | .ends => { s with ended := true }

/-! ## What became of the bytes -/

/-- The bytes that wait after an entry; nothing when a sink was sent others than those. -/
def waitingAfter (waiting : Bytes) : ReconnectEntry → Option Bytes
  | .accepted bytes => some (waiting ++ bytes)
  | .installed _ flushed => if flushed = waiting then some [] else none

def waiting (log : List ReconnectEntry) : Option Bytes := log.foldlM waitingAfter []

def Refuses (s : AttachCoordinator) (resizeFails sendFails : Bool) : Prop :=
  s.ended = false ∧
    (s.pendingSize.isSome = true ∧ resizeFails = true ∨ s.buffer.bytes ≠ [] ∧ sendFails = true)

def Flushes (s : AttachCoordinator) : CoordinatorEvent → Prop
  | .setSink _ resizeFails sendFails => s.ended = false →
      ¬ (s.pendingSize.isSome = true ∧ resizeFails = true) → s.buffer.bytes ≠ [] → sendFails = false
  | _ => True

instance (s : AttachCoordinator) (event : CoordinatorEvent) : Decidable (s.Flushes event) := by
  unfold Flushes
  split <;> infer_instance

/-- **What a step can do** to the buffer. -/
inductive Change (s : AttachCoordinator) (event : CoordinatorEvent) : AttachCoordinator → Prop where
  | keeps {b} (hflushes : s.Flushes event) (hbuffer : b.buffer = s.buffer) (hlog : b.log = s.log) :
      Change s event b
  | accepts {b bytes} (hflushes : s.Flushes event) (hbuffer : b.buffer.bytes = s.buffer.bytes ++ bytes)
      (hlog : b.log = s.log ++ [.accepted bytes]) : Change s event b
  | installs {b next} (hflushes : s.Flushes event) (hbuffer : b.buffer.bytes = [])
      (hlog : b.log = s.log ++ [.installed next s.buffer.bytes]) : Change s event b
  | drops {b} (hloses : ¬ s.Flushes event) (hsome : s.buffer.bytes ≠ []) (hbuffer : b.buffer.bytes = [])
      (hlog : b.log = s.log) : Change s event b

variable {s b : AttachCoordinator} {event : CoordinatorEvent}

theorem Change.upTo {b' : AttachCoordinator} (h : s.Change event b) (hbuffer : b'.buffer = b.buffer)
    (hlog : b'.log = b.log) : s.Change event b' := by
  cases h with
  | keeps hflushes hold hsame => exact .keeps hflushes (hbuffer.trans hold) (hlog.trans hsame)
  | accepts hflushes hold hmore => exact .accepts hflushes (hbuffer ▸ hold) (hlog.trans hmore)
  | installs hflushes hold hmore => exact .installs hflushes (hbuffer ▸ hold) (hlog.trans hmore)
  | drops hloses hsome hold hsame => exact .drops hloses hsome (hbuffer ▸ hold) (hlog.trans hsame)

theorem change_setSink (hopen : s.ended = false) (next : ℕ) (resizeFails sendFails : Bool) :
    s.Change (.setSink next resizeFails sendFails) (s.setSink next resizeFails sendFails) := by
  unfold setSink
  split
  · next hresize => exact .keeps (fun _ hnot => absurd hresize hnot) rfl rfl
  · next hresize =>
      by_cases hlost : s.buffer.take.1 ≠ [] ∧ sendFails = true
      · simp only [if_pos hlost]
        refine .drops (fun hflushes => ?_) hlost.1 rfl rfl
        rw [hflushes hopen hresize hlost.1] at hlost
        cases hlost.2
      · simp only [if_neg hlost]
        refine .installs (fun _ _ hsome => ?_) rfl rfl
        by_contra hfails
        exact hlost ⟨hsome, Bool.of_not_eq_false hfails⟩

theorem settle_same (s : AttachCoordinator) : s.settle.buffer = s.buffer ∧ s.settle.log = s.log := by
  unfold settle
  split
  · exact ⟨rfl, rfl⟩
  · exact ⟨rfl, rfl⟩

theorem change_read (controls : AttachControls) (r : AttachRead) (sendFails : Bool) :
    s.Change (.read r sendFails) (s.read controls r sendFails) := by
  unfold read
  cases s.mode with
  | connected =>
    simp only
    split_ifs
    all_goals exact .keeps trivial rfl rfl
  | disconnected visible =>
    cases visible with
    | true => exact .keeps trivial rfl rfl
    | false =>
      simp only
      split_ifs
      · exact .keeps trivial rfl rfl
      · exact .accepts trivial rfl rfl
      · exact .accepts trivial rfl rfl

theorem change_flush (hflushes : s.Flushes event) (sendFails : Bool) :
    s.Change event (s.flush sendFails) := by
  unfold flush
  by_cases hnone : s.input.filter.flushTimeout.1 = []
  · simp only [if_pos hnone]
    exact .keeps hflushes rfl rfl
  · simp only [if_neg hnone]
    rcases s.mode with _ | ⟨_ | _⟩
    · simp only
      split_ifs
      all_goals exact .keeps hflushes rfl rfl
    · exact .accepts hflushes rfl rfl
    · exact .keeps hflushes rfl rfl

theorem resize_same (s : AttachCoordinator) (size : Option (UInt16 × UInt16)) (resizeFails : Bool) :
    (s.resize size resizeFails).buffer = s.buffer ∧ (s.resize size resizeFails).log = s.log := by
  unfold resize
  cases size with
  | none => exact ⟨rfl, rfl⟩
  | some now =>
    simp only
    split_ifs
    all_goals exact ⟨rfl, rfl⟩

theorem change_step (controls : AttachControls) (s : AttachCoordinator) (event : CoordinatorEvent) :
    s.Change event (s.step controls event) := by
  unfold step
  by_cases hended : s.ended = true
  · rw [if_pos hended]
    refine .keeps ?_ rfl rfl
    cases event
    case setSink => exact fun hopen => absurd (hopen.symm.trans hended) Bool.false_ne_true
    all_goals trivial
  · rw [if_neg hended]
    have hsettle : ∀ b : AttachCoordinator, s.Change event b → s.Change event b.settle :=
      fun b h => h.upTo b.settle_same.1 b.settle_same.2
    cases event with
    | setSink next resizeFails sendFails =>
      exact hsettle _ (change_setSink (Bool.of_not_eq_true hended) next resizeFails sendFails)
    | clearSink => exact hsettle _ (.keeps trivial rfl rfl)
    | setReconnectVisible visible =>
      refine hsettle _ ?_
      split_ifs
      · exact .keeps trivial rfl rfl
      · exact .keeps trivial rfl rfl
    | requestViewport => exact hsettle _ (.keeps trivial rfl rfl)
    | read r sendFails => exact change_read controls r sendFails
    | tick size sendFails resizeFails =>
      obtain ⟨hbuffer, hlog⟩ := (s.flush sendFails).resize_same size resizeFails
      exact Change.upTo (change_flush (by exact trivial) sendFails) hbuffer hlog
    | ends => exact .keeps trivial rfl rfl

/-! ## Runs -/

theorem waiting_concat (log : List ReconnectEntry) (entry : ReconnectEntry) :
    waiting (log ++ [entry]) = (waiting log).bind (waitingAfter · entry) := by
  unfold waiting
  rw [foldlM_append]
  cases log.foldlM waitingAfter [] with
  | none => rfl
  | some bytes => exact Option.bind_fun_some _

theorem waiting_step_iff (h : waiting s.log = some s.buffer.bytes) (hchange : s.Change event b) :
    waiting b.log = some b.buffer.bytes ↔ s.Flushes event := by
  cases hchange with
  | keeps hflushes hbuffer hlog =>
    rw [hbuffer, hlog]
    exact iff_of_true h hflushes
  | accepts hflushes hbuffer hlog =>
    rw [hbuffer, hlog, waiting_concat, h]
    exact iff_of_true rfl hflushes
  | installs hflushes hbuffer hlog =>
    rw [hbuffer, hlog, waiting_concat, h]
    exact iff_of_true (if_pos rfl) hflushes
  | drops hloses hsome hbuffer hlog =>
    rw [hbuffer, hlog, h, Option.some.injEq]
    exact iff_of_false hsome hloses

end AttachCoordinator

/-- **Input typed while reconnecting.** All along a run the bytes that were accepted have gone,
in order and once, to the first sink that was set after them or are in the buffer, and a sink
that is not set leaves the buffer as it is, exactly when no sink fails while it is sent the
buffer. -/
theorem reconnect_input_delivered_iff (controls : AttachControls) (size : UInt16 × UInt16)
    (events : List CoordinatorEvent) :
    let run := fun events : List CoordinatorEvent =>
      events.foldl (AttachCoordinator.step controls) (.start size)
    ((∀ front, front <+: events →
        AttachCoordinator.waiting (run front).log = some (run front).buffer.bytes) ∧
      ∀ front next resizeFails sendFails back,
        events = front ++ .setSink next resizeFails sendFails :: back →
        (run front).Refuses resizeFails sendFails →
        (run (front ++ [.setSink next resizeFails sendFails])).buffer.bytes =
          (run front).buffer.bytes) ↔
      Run.Guarded (AttachCoordinator.step controls) AttachCoordinator.Flushes (.start size) events := by
  intro run
  have hiff : (∀ front, front <+: events →
      AttachCoordinator.waiting (run front).log = some (run front).buffer.bytes) ↔
      Run.Guarded (AttachCoordinator.step controls) AttachCoordinator.Flushes (.start size) events := by
    refine @Run.Guarded.iff_lockstep AttachCoordinator _ _ _ _ _ Unit (fun t _ => t) (fun _ _ => True)
      (fun _ s => AttachCoordinator.waiting s.log = some s.buffer.bytes) ?_ ?_ () trivial rfl
    · exact fun _ _ _ _ => trivial
    · intro _ s event _ h
      exact AttachCoordinator.waiting_step_iff h (s.change_step controls event)
  constructor
  · rintro ⟨hwaiting, -⟩
    exact hiff.mp hwaiting
  · intro hguarded
    refine ⟨hiff.mpr hguarded, ?_⟩
    rintro front next resizeFails sendFails back rfl ⟨hopen, hrefuses⟩
    obtain ⟨-, hflushes, -⟩ := hguarded.of_append
    -- the send does not fail, so it is the resize that did
    have hresize : (run front).pendingSize.isSome = true ∧ resizeFails = true := by
      by_contra hnot
      rcases hrefuses with hresize | ⟨hsome, hfails⟩
      · exact hnot hresize
      · rw [hflushes hopen hnot hsome] at hfails
        cases hfails
    have hstep : run (front ++ [.setSink next resizeFails sendFails]) =
        ({ run front with mode := .disconnected false } : AttachCoordinator).settle := by
      simp only [run, foldl_append, foldl_cons, foldl_nil, AttachCoordinator.step]
      rw [if_neg (by rw [hopen]; exact Bool.false_ne_true), AttachCoordinator.setSink,
        if_pos hresize]
    rw [hstep, (AttachCoordinator.settle_same _).1]

def typedWhileAway : AttachRead := ⟨[0x68, 0x69], 0, false, [], false, 0, .timeout⟩

/-- The first sink fails its resize, the second gets the bytes. -/
theorem reconnect_input_delivered_second :
    ∀ front, front <+: [.tick (some (80, 24)) false false, .read typedWhileAway false,
        .setSink 0 true false, .setSink 1 false false] →
      AttachCoordinator.waiting (front.foldl (AttachCoordinator.step ⟨false, false⟩)
          (.start (1, 1))).log =
        some (front.foldl (AttachCoordinator.step ⟨false, false⟩) (.start (1, 1))).buffer.bytes :=
  ((reconnect_input_delivered_iff ⟨false, false⟩ (1, 1) _).mpr (by decide +kernel)).1

/-- The sink fails while it is sent the buffer: the two bytes are nowhere. -/
theorem reconnect_input_lost :
    let s := [CoordinatorEvent.read typedWhileAway false, .setSink 0 false true].foldl
      (AttachCoordinator.step ⟨false, false⟩) (.start (1, 1))
    s.sink = none ∧ AttachCoordinator.waiting s.log = some [0x68, 0x69] ∧ s.buffer.bytes = [] := by
  decide +kernel

end Portl
