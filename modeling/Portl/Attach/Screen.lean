import Portl.Lib.Run
import Portl.Lib.Slice
import Portl.Terminal.ResponseFilter

/-!
# The attached screen

`run_remote_attach_v2_once`: the loop that draws the output of a session from the
frames of four streams, and its `ReloadCoordinator`. A viewport snapshot redraws
the screen as of a live sequence number; live frames extend it; a gap between the
two asks for a new snapshot and drops live frames until it has come.

Two things come between the drawn output and `covered_live_seq`. Within a second of
the snapshot that ends a reload the loop drops live frames that clear the screen.
And it draws a snapshot that is older than what it has drawn already.
-/

namespace Portl

open Slice

/-! ## Frames -/

abbrev AttachId := Bytes

/-- `AttachV2ServerFrame`. A payload is what `decode` makes of it. -/
inductive AttachV2ServerFrame where
  | attachReady (attachId : AttachId)
  | heartbeat (attachId : AttachId)
  | preludeChunk (attachId : AttachId) (payload : Option Bytes)
  | viewportSnapshot (attachId : AttachId) (generation coversLiveSeq cols rows resizeId : ℕ)
      (payload : Option Bytes)
  | liveOutput (attachId : AttachId) (startSeq endSeq : ℕ) (payload : Option Bytes)
  | reloadStarted (attachId : AttachId) (reloadId : ℕ)
  | reloadChunk (attachId : AttachId) (reloadId : ℕ) (payload : Option Bytes)
  | reloadDone (attachId : AttachId) (reloadId : ℕ)
  | reloadCancelled (attachId : AttachId) (reloadId : ℕ)
  | backpressureNotice (attachId : AttachId)
  | resyncRequired (attachId : AttachId)
  | exit (attachId : AttachId) (code : ℤ)
  | error (attachId : AttachId) (message : String)

namespace AttachV2ServerFrame

def attachId : AttachV2ServerFrame → AttachId
  | attachReady id | heartbeat id | preludeChunk id _ | viewportSnapshot id _ _ _ _ _ _
  | liveOutput id _ _ _ | reloadStarted id _ | reloadChunk id _ _ | reloadDone id _
  | reloadCancelled id _ | backpressureNotice id | resyncRequired id | exit id _ | error id _ => id

end AttachV2ServerFrame

/-- What `read_attach_v2_frame` returns. -/
inductive AttachV2Read where
  | frame (frame : AttachV2ServerFrame)
  | ended
  | failed

inductive AttachError where
  | controlEnded
  | inputStopped
  | server (message : String)
  | failed
deriving DecidableEq

inductive AttachEnd where
  | exited (code : ℤ)
  | detached
  | quitReconnect
  | signal
  | disconnected (error : AttachError)
deriving DecidableEq

/-! ## Reloads -/

inductive AttachV2ReloadState where
  | idle
  | loading (reloadId : ℕ)
  | awaitingViewport (reloadId : ℕ)
deriving DecidableEq

namespace AttachV2ReloadState

def activeReloadId : AttachV2ReloadState → Option ℕ
  | idle => none
  | loading reloadId | awaitingViewport reloadId => some reloadId

def acceptsChunk (state : AttachV2ReloadState) (reloadId : ℕ) : Bool := state = loading reloadId

def markDone (state : AttachV2ReloadState) (reloadId : ℕ) : Bool × AttachV2ReloadState :=
  if state = loading reloadId then (true, awaitingViewport reloadId)
  else (decide (state = awaitingViewport reloadId), state)

def markCancelled (state : AttachV2ReloadState) (reloadId : ℕ) : Bool × AttachV2ReloadState :=
  if state.activeReloadId = some reloadId then (true, awaitingViewport reloadId)
  else (false, state)

def isAwaitingViewport : AttachV2ReloadState → Bool
  | awaitingViewport _ => true
  | _ => false

def clearAfterViewport (state : AttachV2ReloadState) : AttachV2ReloadState :=
  if state.isAwaitingViewport then idle else state

def allowsViewportRender : AttachV2ReloadState → Bool
  | loading _ => false
  | _ => true

end AttachV2ReloadState

structure QueuedLiveOutput where
  startSeq : ℕ
  endSeq : ℕ
  bytes : Bytes
deriving DecidableEq

/-- `ReloadCoordinator`; of the last viewport only what it covers is used. -/
structure ReloadCoordinator where
  state : AttachV2ReloadState
  queuedLive : List QueuedLiveOutput
  postReloadViewport : Option ℕ
deriving DecidableEq

namespace ReloadCoordinator

def new : ReloadCoordinator := ⟨.idle, [], none⟩

def activeReloadId (c : ReloadCoordinator) : Option ℕ := c.state.activeReloadId

def start (c : ReloadCoordinator) (reloadId : ℕ) : ReloadCoordinator :=
  if c.activeReloadId = some reloadId then c else ⟨.loading reloadId, [], none⟩

def markDone (c : ReloadCoordinator) (reloadId : ℕ) : Bool × ReloadCoordinator :=
  ((c.state.markDone reloadId).1, { c with state := (c.state.markDone reloadId).2 })

def markCancelled (c : ReloadCoordinator) (reloadId : ℕ) : Bool × ReloadCoordinator :=
  ((c.state.markCancelled reloadId).1,
    { c with queuedLive := [], state := (c.state.markCancelled reloadId).2 })

def handleLiveOutput (c : ReloadCoordinator) (startSeq endSeq : ℕ) (bytes : Bytes) :
    ReloadCoordinator :=
  if c.activeReloadId.isSome then
    { c with queuedLive := c.queuedLive ++ [⟨startSeq, endSeq, bytes⟩] }
  else c

def recordPostReloadViewport (c : ReloadCoordinator) (coversLiveSeq : ℕ) : ReloadCoordinator :=
  if c.state.isAwaitingViewport then { c with postReloadViewport := some coversLiveSeq } else c

/-- The loop of `drain_queued_live`. -/
def drain (covered : ℕ) : List QueuedLiveOutput → List QueuedLiveOutput
  | [] => []
  | live :: rest =>
    if live.endSeq ≤ covered then drain covered rest
    else
      let live : QueuedLiveOutput :=
        if live.startSeq < covered then
          ⟨covered, live.endSeq, live.bytes.drop (covered - live.startSeq)⟩
        else live
      if live.bytes = [] then drain live.endSeq rest else live :: drain live.endSeq rest

def drainQueuedLive (c : ReloadCoordinator) (coveredLiveSeq : ℕ) :
    List QueuedLiveOutput × ReloadCoordinator :=
  (drain (max coveredLiveSeq (c.postReloadViewport.getD coveredLiveSeq)) c.queuedLive,
    { c with queuedLive := [], state := c.state.clearAfterViewport })

def finishReloadAfterViewport (c : ReloadCoordinator) (coversLiveSeq : ℕ) :
    List QueuedLiveOutput × ReloadCoordinator :=
  (c.recordPostReloadViewport coversLiveSeq).drainQueuedLive coversLiveSeq

end ReloadCoordinator

/-- `ESC [ ? 1049 h`, `ESC [ 2 J`, `ESC [ H`. -/
def screenClear : Bytes :=
  [esc, 0x5b, 0x3f, 0x31, 0x30, 0x34, 0x39, 0x68, esc, 0x5b, 0x32, 0x4a, esc, 0x5b, 0x48]

def liveOutputOverlapsViewport (bytes : Bytes) : Bool := screenClear.isPrefixOf bytes

/-! ## Viewports -/

structure AttachV2ResizeState where
  resizeId : ℕ
  cols : ℕ
  rows : ℕ
deriving DecidableEq

inductive AttachV2ViewportDecision where
  | render
  | deferForReload
  | stale
deriving DecidableEq

def attachV2ViewportDecision (generation lastViewportGeneration resizeId cols rows : ℕ)
    (currentResize : AttachV2ResizeState) (reloadState : AttachV2ReloadState) :
    AttachV2ViewportDecision :=
  if generation ≤ lastViewportGeneration ∨ currentResize ≠ ⟨resizeId, cols, rows⟩ then .stale
  else if reloadState.allowsViewportRender = false then .deferForReload
  else .render

/-- Whether to ask now for the viewport that was put off, and what is left to ask
for. -/
def takeDeferredViewportRequest (deferred : Bool) (state : AttachV2ReloadState) : Bool × Bool :=
  if deferred ∧ state.allowsViewportRender then (true, false) else (false, deferred)

/-! ## The loop -/

/-- What the loop does to the display, in order. `suppressed` and `window` draw
nothing: a live frame that is dropped as a duplicate, and the beginning of the
second in which that may happen. -/
inductive AttachAct where
  | viewport (coversLiveSeq : ℕ) (bytes : Bytes)
  | live (bytes : Bytes)
  | sgrReset
  | preludeOutput (bytes : Bytes)
  | suppressed (startSeq endSeq : ℕ) (bytes : Bytes) (now : ℕ)
  | window (now : ℕ)
deriving DecidableEq

/-- What a step meets: the readings of the clock in milliseconds, whether writes
to the display and requests to the agent work, and whether the sink starts a reload
where the loop does not hold the lock. -/
structure AttachMoment where
  now : ℕ → ℕ
  writes : ℕ → Bool
  requests : Bool
  reloads : ℕ → Bool

structure AttachScreen where
  coveredLiveSeq : ℕ
  lastViewportGeneration : ℕ
  viewportSeen : Bool
  viewportOpen : Bool
  historyOpen : Bool
  liveOpen : Bool
  resyncPending : Bool
  postReloadDedupUntil : Option ℕ
  viewportDeferred : Bool
  reload : ReloadCoordinator
  resize : AttachV2ResizeState
  nextResizeId : ℕ
  nextReloadId : ℕ
  requested : List String
  acts : List AttachAct
deriving DecidableEq

def failedEnd : AttachEnd := .disconnected .failed

namespace AttachScreen

def new (cols rows : ℕ) : AttachScreen where
  coveredLiveSeq := 0
  lastViewportGeneration := 0
  viewportSeen := false
  viewportOpen := true
  historyOpen := true
  liveOpen := true
  resyncPending := false
  postReloadDedupUntil := none
  viewportDeferred := false
  reload := .new
  resize := ⟨0, cols, rows⟩
  nextResizeId := 0
  nextReloadId := 0
  requested := []
  acts := []

def record (s : AttachScreen) (act : AttachAct) : AttachScreen := { s with acts := s.acts ++ [act] }

/-- `write_tracked_output`. -/
def write (m : AttachMoment) (i : ℕ) (s : AttachScreen) (act : AttachAct) :
    Except AttachEnd AttachScreen :=
  if m.writes i then .ok (s.record act) else .error failedEnd

/-- `set_bar`, where the loop ends if it fails. -/
def setBar (m : AttachMoment) (i : ℕ) (s : AttachScreen) : Except AttachEnd AttachScreen :=
  if m.writes i then .ok s else .error failedEnd

def requestViewport (m : AttachMoment) (s : AttachScreen) (reason : String) :
    Except AttachEnd AttachScreen :=
  if m.requests then .ok { s with requested := s.requested ++ [reason] } else .error failedEnd

/-- `AttachInputSink::resize`. -/
def sinkResize (s : AttachScreen) (cols rows : ℕ) : AttachScreen :=
  let next := min (s.nextResizeId + 1) (2 ^ 64 - 1)
  { s with nextResizeId := next, resize := ⟨next, cols, rows⟩ }

/-- `AttachInputSink::reload`. -/
def sinkReload (s : AttachScreen) : AttachScreen :=
  let next := min (s.nextReloadId + 1) (2 ^ 64 - 1)
  { s with nextReloadId := next, reload := s.reload.start next }

def sinkMayReload (m : AttachMoment) (i : ℕ) (s : AttachScreen) : AttachScreen :=
  if m.reloads i then s.sinkReload else s

def handleAttachV2ControlFrame (m : AttachMoment) (s : AttachScreen) :
    AttachV2ServerFrame → Except AttachEnd AttachScreen
  | .reloadStarted _ reloadId => do
    let s ← write m 0 { s with reload := s.reload.start reloadId } .sgrReset
    setBar m 1 s
  | .reloadDone _ reloadId =>
    let marked := s.reload.markDone reloadId
    if marked.1 then do
      let s ← write m 0 { s with reload := marked.2 } .sgrReset
      setBar m 1 s
    else .ok { s with reload := marked.2 }
  | .reloadCancelled _ reloadId =>
    let marked := s.reload.markCancelled reloadId
    if marked.1 then setBar m 0 { s with reload := marked.2, resyncPending := true }
    else .ok { s with reload := marked.2 }
  | .backpressureNotice _ | .resyncRequired _ => setBar m 0 { s with resyncPending := true }
  | .exit _ code => .error (.exited code)
  | .error _ message => .error (.disconnected (.server message))
  | .heartbeat _ | .attachReady _ | .preludeChunk _ _ | .viewportSnapshot _ _ _ _ _ _ _
  | .liveOutput _ _ _ _ | .reloadChunk _ _ _ => .ok s

def controlArm (attachId : AttachId) (m : AttachMoment) (s : AttachScreen) :
    AttachV2Read → Except AttachEnd AttachScreen
  | .frame frame =>
    if frame.attachId = attachId then do
      let s ← handleAttachV2ControlFrame m s frame
      let s := sinkMayReload m 0 s
      let taken := takeDeferredViewportRequest s.viewportDeferred s.reload.state
      let s := { s with viewportDeferred := taken.2 }
      if taken.1 then requestViewport m s "deferred_reload_viewport" else .ok s
    else .ok s
  | .ended => .error (.disconnected .controlEnded)
  | .failed => .error failedEnd

def isDuplicate (s : AttachScreen) (now : ℕ) (bytes : Bytes) : Bool :=
  s.postReloadDedupUntil.any (fun deadline => now ≤ deadline) && liveOutputOverlapsViewport bytes

def renderQueued (m : AttachMoment) (i : ℕ) (s : AttachScreen) :
    List QueuedLiveOutput → Except AttachEnd AttachScreen
  | [] => .ok s
  | live :: rest =>
    if live.startSeq > s.coveredLiveSeq then
      requestViewport m { s with resyncPending := true } "reload_live_seq_gap"
    else if s.isDuplicate (m.now i) live.bytes then
      renderQueued m (i + 1)
        ({ s with coveredLiveSeq := live.endSeq }.record
          (.suppressed live.startSeq live.endSeq live.bytes (m.now i))) rest
    else do
      let s ← write m i { s with coveredLiveSeq := live.endSeq } (.live live.bytes)
      renderQueued m (i + 1) s rest

/-- A viewport that is drawn. The sink may start a reload while it is written, and
between the two looks at the state of the reload. -/
def renderViewport (m : AttachMoment) (s : AttachScreen) (generation coversLiveSeq : ℕ)
    (bytes : Bytes) : Except AttachEnd AttachScreen := do
  let s := { s with
    viewportDeferred := false
    lastViewportGeneration := generation
    coveredLiveSeq := max s.coveredLiveSeq coversLiveSeq
    resyncPending := false
    viewportSeen := true }
  let s ← write m 0 s (.viewport coversLiveSeq bytes)
  let s := sinkMayReload m 0 s
  let postReloadViewportRendered := s.reload.state.isAwaitingViewport
  let s := sinkMayReload m 1 s
  let finished := s.reload.finishReloadAfterViewport coversLiveSeq
  let s := { s with reload := finished.2 }
  let s :=
    if postReloadViewportRendered then
      { s with postReloadDedupUntil := some (m.now 0 + 1000) }.record (.window (m.now 0))
    else s
  renderQueued m 1 s finished.1

def viewportArm (attachId : AttachId) (m : AttachMoment) (s : AttachScreen) :
    AttachV2Read → Except AttachEnd AttachScreen
  | .frame (.viewportSnapshot frameAttachId generation coversLiveSeq cols rows resizeId payload) =>
    if frameAttachId = attachId then
      match attachV2ViewportDecision generation s.lastViewportGeneration resizeId cols rows
          s.resize s.reload.state with
      | .render =>
        match payload with
        | some bytes => renderViewport m s generation coversLiveSeq bytes
        | none => .error failedEnd
      | .deferForReload => .ok { s with viewportDeferred := true }
      | .stale =>
        if generation > s.lastViewportGeneration then .ok { s with viewportSeen := true }
        else .ok s
    else .ok s
  | .frame _ => .ok s
  | .ended => .ok { s with viewportOpen := false }
  | .failed => .error failedEnd

def historyArm (attachId : AttachId) (m : AttachMoment) (s : AttachScreen) :
    AttachV2Read → Except AttachEnd AttachScreen
  | .frame (.preludeChunk frameAttachId payload) =>
    if frameAttachId = attachId ∧ s.viewportSeen = false then
      match payload with
      | some bytes => write m 0 s (.preludeOutput bytes)
      | none => .error failedEnd
    else .ok s
  | .frame (.reloadChunk frameAttachId reloadId payload) =>
    if frameAttachId = attachId ∧ s.reload.state.acceptsChunk reloadId ∧ payload = none then
      .error failedEnd
    else .ok s
  | .frame _ => .ok s
  | .ended => .ok { s with historyOpen := false }
  | .failed => .error failedEnd

/-- A live frame that is drawn at once, from `covered_live_seq` on. -/
def renderLive (m : AttachMoment) (s : AttachScreen) (startSeq endSeq : ℕ) (bytes : Bytes) :
    Except AttachEnd AttachScreen :=
  let rest := bytes.drop (s.coveredLiveSeq - startSeq)
  if s.isDuplicate (m.now 0) rest then
    .ok ({ s with coveredLiveSeq := endSeq }.record
      (.suppressed s.coveredLiveSeq endSeq rest (m.now 0)))
  else
    let s :=
      if s.postReloadDedupUntil.any (fun deadline => deadline < m.now 1) then
        { s with postReloadDedupUntil := none }
      else s
    write m 0 { s with coveredLiveSeq := endSeq } (.live rest)

def liveArm (attachId : AttachId) (m : AttachMoment) (s : AttachScreen) :
    AttachV2Read → Except AttachEnd AttachScreen
  | .frame (.liveOutput frameAttachId startSeq endSeq payload) =>
    if frameAttachId = attachId ∧ s.resyncPending = false ∧ endSeq > s.coveredLiveSeq then
      if s.reload.activeReloadId.isSome then
        match payload with
        | some bytes => .ok { s with reload := s.reload.handleLiveOutput startSeq endSeq bytes }
        | none => .error failedEnd
      else if startSeq > s.coveredLiveSeq then
        requestViewport m { s with resyncPending := true } "live_seq_gap"
      else
        match payload with
        | some bytes => renderLive m s startSeq endSeq bytes
        | none => .error failedEnd
    else .ok s
  | .frame _ => .ok s
  | .ended => .ok { s with liveOpen := false }
  | .failed => .error failedEnd

end AttachScreen

inductive AttachInputEvent where
  | detached
  | closed
  | quitReconnect
  | sinkFailed
  | retryNow
  | bufferFull
deriving DecidableEq

/-- The branches of `select!`, and what the sink does between them. -/
inductive AttachScreenEvent where
  | control (read : AttachV2Read)
  | viewport (read : AttachV2Read)
  | history (read : AttachV2Read)
  | live (read : AttachV2Read)
  | input (event : Option AttachInputEvent)
  | signal
  | sinkResize (cols rows : ℕ)
  | sinkReload

namespace AttachScreen

def step (attachId : AttachId) (s : AttachScreen) :
    AttachMoment × AttachScreenEvent → Except AttachEnd AttachScreen
  | (m, .control read) => controlArm attachId m s read
  | (m, .viewport read) => if s.viewportOpen then viewportArm attachId m s read else .ok s
  | (m, .history read) => if s.historyOpen then historyArm attachId m s read else .ok s
  | (m, .live read) => if s.liveOpen then liveArm attachId m s read else .ok s
  | (_, .input (some .detached)) | (_, .input (some .closed)) => .error .detached
  | (_, .input (some .quitReconnect)) => .error .quitReconnect
  | (_, .input (some .sinkFailed)) => .error failedEnd
  | (_, .input (some .retryNow)) | (_, .input (some .bufferFull)) => .ok s
  | (_, .input none) => .error (.disconnected .inputStopped)
  | (_, .signal) => .error .signal
  | (_, .sinkResize cols rows) => .ok (s.sinkResize cols rows)
  | (_, .sinkReload) => .ok s.sinkReload

/-- `run_remote_attach_v2_once`, until it ends. -/
def run (attachId : AttachId) (cols rows : ℕ) (events : List (AttachMoment × AttachScreenEvent)) :
    Except AttachEnd AttachScreen :=
  events.foldlM (step attachId) (new cols rows)

end AttachScreen

/-! ## What has been drawn -/

/-- A viewport draws the state after so much of the output, live output is appended.
The prelude is what went before. -/
def AttachAct.draw (output screen : Bytes) : AttachAct → Bytes
  | viewport coversLiveSeq _ => output.take coversLiveSeq
  | live bytes => screen ++ bytes
  | sgrReset => screen ++ [esc, 0x5b, 0x30, 0x6d]
  | preludeOutput _ | suppressed _ _ _ _ | window _ => screen

def drawnOutput (output : Bytes) (acts : List AttachAct) : Bytes :=
  acts.foldl (AttachAct.draw output) []

def AttachAct.drop (gaps : List (ℕ × ℕ)) : AttachAct → List (ℕ × ℕ)
  | viewport _ _ => []
  | suppressed startSeq endSeq _ _ => gaps ++ [(startSeq, endSeq)]
  | live _ | sgrReset | preludeOutput _ | window _ => gaps

def droppedSince (acts : List AttachAct) : List (ℕ × ℕ) := acts.foldl AttachAct.drop []

/-- A dropped frame clears the screen and comes within a second of the viewport
that ended a reload before it. -/
def AttachScreen.DropsDuplicates (output : Bytes) (s : AttachScreen) : Prop :=
  ∀ before startSeq endSeq bytes now after,
    s.acts = before ++ .suppressed startSeq endSeq bytes now :: after →
      bytes = slice output startSeq endSeq ∧ liveOutputOverlapsViewport bytes = true ∧
        ∃ opened, .window opened ∈ before ∧ now ≤ opened + 1000

/-- A live frame brings its piece of the output. A viewport that is drawn is not
older than what has been drawn. -/
def AttachScreen.Fresh (attachId : AttachId) (output : Bytes) (s : AttachScreen) :
    AttachMoment × AttachScreenEvent → Prop
  | (_, .live (.frame (.liveOutput frameAttachId startSeq endSeq (some bytes)))) =>
    frameAttachId = attachId → bytes = slice output startSeq endSeq
  | (_, .viewport (.frame (.viewportSnapshot frameAttachId generation coversLiveSeq cols rows
        resizeId _))) =>
      frameAttachId = attachId →
        attachV2ViewportDecision generation s.lastViewportGeneration resizeId cols rows s.resize
          s.reload.state = .render →
        s.coveredLiveSeq ≤ coversLiveSeq
  | _ => True

end Portl
