import Mathlib.Data.List.Forall2
import Mathlib.Tactic.Ring
import Portl.Lib.Framing
import Portl.Lib.Run
import Portl.Ticket.Schema

/-!
# Frames between the agent and the ghostty helper

`write_frame` and `read_frame`, and the loops that read: the two attach loops of
`handle_client` on the side of the helper, and `attach_v2_dispatch_loop` on the side
of the agent. In each of them `read_frame` is one branch of a `select!`. When
another branch is taken its future is dropped, and with it the bytes it has read of
a frame; what comes next is then taken for the beginning of a frame.
-/

namespace Portl

open List

open Framing (Reader)

/-! ## Frames -/

def maxFrameBytes : ℕ := 4 * 1024 * 1024

def toBeBytes (n : ℕ) : Bytes :=
  [UInt8.ofNat (n / 2 ^ 24), UInt8.ofNat (n / 2 ^ 16), UInt8.ofNat (n / 2 ^ 8), UInt8.ofNat n]

def fromBeBytes (bytes : Bytes) : ℕ := bytes.foldl (fun n byte => n * 256 + byte.toNat) 0

theorem fromBeBytes_toBeBytes {n : ℕ} (h : n < 2 ^ 32) : fromBeBytes (toBeBytes n) = n := by
  simp only [fromBeBytes, toBeBytes, foldl_cons, foldl_nil, UInt8.toNat_ofNat']
  omega

def ghosttyHeader : Framing.Header UInt8 where
  width := 4
  limit := maxFrameBytes
  encode := toBeBytes
  decode := fromBeBytes
  width_pos := by decide
  length_encode _ := rfl
  decode_encode n h := fromBeBytes_toBeBytes (h.trans_lt (by decide))

/-- `postcard`, of which only the round trip is used. -/
structure FrameCodec (α : Type) where
  encode : α → Option Bytes
  decode : Bytes → Option α
  decode_encode : ∀ value bytes, encode value = some bytes → decode bytes = some value

inductive FrameError where
  | encode
  | tooLarge (length : ℕ)
  | read
  | decode
deriving DecidableEq

def writeFrame {α : Type} (C : FrameCodec α) (value : α) : Except FrameError Bytes :=
  match C.encode value with
  | none => .error .encode
  | some bytes =>
    if bytes.length > maxFrameBytes then .error (.tooLarge bytes.length)
    else .ok (Framing.frame ghosttyHeader bytes)

/-! ## One direction of a connection -/

/-- `wire` is on its way, `socket` has arrived and not been read. `reader` is the
future of `read_frame`, `written` and `returned` are what went in and came out, and
`error` is what `read_frame` has failed with. -/
structure FrameStream (α : Type) where
  written : List α
  wire : Bytes
  socket : Bytes
  closed : Bool
  reader : Reader UInt8
  returned : List α
  error : Option FrameError
deriving DecidableEq

inductive PeerEvent (α : Type) where
  | write (value : α)
  | arrive (bytes : ℕ)
  | close
deriving DecidableEq

namespace FrameStream

variable {α : Type}

def new : FrameStream α := ⟨[], [], [], false, .start, [], none⟩

def peer (C : FrameCodec α) (s : FrameStream α) : PeerEvent α → FrameStream α
  | .write value =>
    match s.closed, writeFrame C value with
    | false, .ok bytes => { s with written := s.written ++ [value], wire := s.wire ++ bytes }
    | _, _ => s
  | .arrive n => { s with socket := s.socket ++ s.wire.take n, wire := s.wire.drop n }
  | .close => { s with wire := [], closed := true }

/-- A poll of `read_frame`; `none` while it is pending. The end of the stream is
`None` inside a length and an error inside a payload. -/
def poll (C : FrameCodec α) (s : FrameStream α) :
    Option (Except FrameError (Option α)) × FrameStream α :=
  match s.reader.poll ghosttyHeader s.socket with
  | (.pending reader, rest) =>
    let s := { s with reader := reader, socket := rest }
    match s.closed, reader with
    | false, _ => (none, s)
    | true, .header _ => (some (.ok none), s)
    | true, .body _ _ => (some (.error .read), { s with error := some .read })
  | (.oversize length, rest) =>
    (some (.error (.tooLarge length)),
      { s with reader := .start, socket := rest, error := some (.tooLarge length) })
  | (.ready bytes, rest) =>
    match C.decode bytes with
    | some value =>
      (some (.ok (some value)),
        { s with reader := .start, socket := rest, returned := s.returned ++ [value] })
    | none =>
      (some (.error .decode),
        { s with reader := .start, socket := rest, error := some .decode })

/-- Another branch of the `select!` is taken. -/
def dropRead (s : FrameStream α) : FrameStream α := { s with reader := .start }

/-- The frames that were returned are the frames that were written, in order, up to
those on their way. Until the connection closes no read fails, and a read that
returns nothing waits for bytes that have not arrived. -/
structure Intact (C : FrameCodec α) (s : FrameStream α) : Prop where
  order : s.returned <+: s.written
  complete : s.closed = false → s.wire = [] → s.socket = [] → s.returned = s.written
  noError : s.closed = false → s.error = none
  reads : s.closed = false → (∃ value, (s.poll C).1 = some (.ok (some value))) ∨
    (s.poll C).1 = none ∧ (s.poll C).2.socket = []

end FrameStream

/-! ## The loops -/

inductive GhosttyRequest where
  | probe
  | attach (cols rows : ℕ)
  | attachV2 (cols rows : ℕ)
  | input (bytes : Bytes)
  | resize (cols rows : ℕ)
  | run (cwd : Option String) (argv : List String)
  | history
  | kill
  | detach
  | reloadV2 (reloadId : ℕ)
  | cancelReloadV2 (reloadId : ℕ)
  | requestViewportV2 (resizeId : ℕ) (reason : String)
deriving DecidableEq

/-- `GhosttyResponse`, without the metadata and results no loop reads. -/
inductive GhosttyResponse where
  | ack
  | attached (snapshot : Bytes)
  | attachedV2 (prelude viewport : Bytes)
  | output (bytes : Bytes)
  | outputV2 (startSeq endSeq : ℕ) (bytes : Bytes)
  | viewportV2 (generation coversLiveSeq cols rows resizeId : ℕ) (bytes : Bytes)
  | reloadStartedV2 (reloadId : ℕ) (totalBytes : Option ℕ)
  | reloadChunkV2 (reloadId seq : ℕ) (bytes : Bytes)
  | reloadDoneV2 (reloadId finalGeneration : ℕ)
  | reloadCancelledV2 (reloadId : ℕ)
  | resyncRequiredV2 (reason : String) (fromSeq : ℕ)
  | runResult
  | history (output : String)
  | exit (code : ℤ)
  | error (message : String)
deriving DecidableEq

/-- An attach loop of `handle_client`; `reloadRx` says that there is a reload to
listen to. -/
structure HelperLoop where
  stream : FrameStream GhosttyRequest
  reloadRx : Bool
  ended : Bool
deriving DecidableEq

/-- The other branches and the poll of the read. Each carries whether what its
handler sends is sent. -/
inductive HelperEvent where
  | peer (event : PeerEvent GhosttyRequest)
  | output (bytes : Option Bytes) (sent : Bool)
  | event (event : Option GhosttyResponse) (sent : Bool)
  | reload (response : Option GhosttyResponse) (sent : Bool)
  | request (sent : Bool)

namespace HelperLoop

def new : HelperLoop := ⟨.new, false, false⟩

def finish (l : HelperLoop) : HelperLoop := { l with ended := true }

def goOn (l : HelperLoop) (sent : Bool) : HelperLoop := if sent then l else l.finish

def dropRead (l : HelperLoop) : HelperLoop := { l with stream := l.stream.dropRead }

def handleV2 (l : HelperLoop) (sent : Bool) : GhosttyRequest → HelperLoop
  | .reloadV2 _ => { l with reloadRx := true }.goOn sent
  | .cancelReloadV2 _ => { l with reloadRx := false }.goOn sent
  | .input _ | .resize _ _ | .requestViewportV2 _ _ => l.goOn sent
  | .detach | .kill => l.finish
  | _ => l

def handleV1 (l : HelperLoop) (sent : Bool) : GhosttyRequest → HelperLoop
  | .input _ | .resize _ _ => l.goOn sent
  | .detach | .kill => l.finish
  | _ => l

/-- The branch of `read_frame`, once it is ready. -/
def onRead (handle : HelperLoop → GhosttyRequest → HelperLoop) (C : FrameCodec GhosttyRequest)
    (l : HelperLoop) : HelperLoop :=
  let polled := l.stream.poll C
  let l := { l with stream := polled.2 }
  match polled.1 with
  | none => l
  | some (.ok (some request)) => handle l request
  | some (.ok none) | some (.error _) => l.finish

def isFinal : GhosttyResponse → Bool
  | .exit _ | .error _ => true
  | _ => false

def endsReload : GhosttyResponse → Bool
  | .reloadDoneV2 _ _ | .reloadCancelledV2 _ => true
  | _ => false

/-- The loop after `AttachedV2`. A reload channel that is closed disables its branch
and drops nothing. -/
def stepV2 (C : FrameCodec GhosttyRequest) (l : HelperLoop) (event : HelperEvent) : HelperLoop :=
  if l.ended then l
  else
    match event with
    | .peer event => { l with stream := l.stream.peer C event }
    | .output none _ | .event none _ => l.finish
    | .output (some _) sent => l.dropRead.goOn sent
    | .event (some response) sent =>
      if isFinal response then l.finish else l.dropRead.goOn sent
    | .reload none _ => l
    | .reload (some response) sent =>
      if l.reloadRx then
        { l.dropRead with reloadRx := !endsReload response }.goOn sent
      else l
    | .request sent => l.onRead (fun l request => l.handleV2 sent request) C

/-- The loop after `Attached`: empty output is the end of the session. -/
def stepV1 (C : FrameCodec GhosttyRequest) (l : HelperLoop) (event : HelperEvent) : HelperLoop :=
  if l.ended then l
  else
    match event with
    | .peer event => { l with stream := l.stream.peer C event }
    | .output none _ => l.finish
    | .output (some bytes) sent => if bytes = [] then l.finish else l.dropRead.goOn sent
    | .request sent => l.onRead (fun l request => l.handleV1 sent request) C
    | .event _ _ | .reload _ _ => l

end HelperLoop

inductive GhosttyAttachV2Command where
  | input (bytes : Bytes)
  | resize (resizeId cols rows : ℕ)
  | detach
  | reload (reloadId : ℕ)
  | cancelReload (reloadId : ℕ)
  | requestViewport (resizeId : ℕ) (reason : String)
deriving DecidableEq

/-- `attach_v2_dispatch_loop`. -/
structure DispatchLoop where
  stream : FrameStream GhosttyResponse
  pendingResizeViewport : Option ℕ
  ended : Bool
deriving DecidableEq

/-- `lanes` says that the queues to the client are open. -/
inductive DispatchEvent where
  | peer (event : PeerEvent GhosttyResponse)
  | command (command : Option GhosttyAttachV2Command) (sent : Bool)
  | resizeTimer (sent : Bool)
  | response (lanes sent : Bool)

namespace DispatchLoop

def new : DispatchLoop := ⟨.new, none, false⟩

def finish (l : DispatchLoop) : DispatchLoop := { l with ended := true }

def goOn (l : DispatchLoop) (sent : Bool) : DispatchLoop := if sent then l else l.finish

def dropRead (l : DispatchLoop) : DispatchLoop := { l with stream := l.stream.dropRead }

def handleCommand (l : DispatchLoop) : GhosttyAttachV2Command → DispatchLoop
  | .resize resizeId _ _ => { l with pendingResizeViewport := some resizeId }
  | _ => l

/-- `handle_attach_v2_response` and what follows it: output after a resize settles
it. -/
def handleResponse (l : DispatchLoop) (lanes sent : Bool) : GhosttyResponse → DispatchLoop
  | .exit _ | .error _ => l.finish
  | .outputV2 _ _ _ =>
    if lanes then { l with pendingResizeViewport := none }.goOn sent else l.finish
  | .reloadChunkV2 _ _ _ => if lanes then l.goOn sent else l.finish
  | _ => l.goOn sent

def onRead (C : FrameCodec GhosttyResponse) (l : DispatchLoop) (lanes sent : Bool) : DispatchLoop :=
  let polled := l.stream.poll C
  let l := { l with stream := polled.2 }
  match polled.1 with
  | none => l
  | some (.ok (some response)) => l.handleResponse lanes sent response
  | some (.ok none) | some (.error _) => l.finish

def step (C : FrameCodec GhosttyResponse) (l : DispatchLoop) (event : DispatchEvent) :
    DispatchLoop :=
  if l.ended then l
  else
    match event with
    | .peer event => { l with stream := l.stream.peer C event }
    | .command none _ => l
    | .command (some command) sent => (l.dropRead.handleCommand command).goOn sent
    | .resizeTimer sent =>
      if l.pendingResizeViewport.isSome then
        { l.dropRead with pendingResizeViewport := none }.goOn sent
      else l
    | .response lanes sent => l.onRead C lanes sent

end DispatchLoop

/-! ## What the loops must avoid -/

def HelperLoop.Unbroken (l : HelperLoop) : HelperEvent → Prop
  | .output (some _) _ | .event (some _) _ | .reload (some _) _ => l.stream.reader = .start
  | .output none _ | .event none _ | .reload none _ | .peer _ | .request _ => True

instance (l : HelperLoop) : (event : HelperEvent) → Decidable (l.Unbroken event)
  | .output (some _) _ | .event (some _) _ | .reload (some _) _ =>
    inferInstanceAs (Decidable (_ = _))
  | .output none _ | .event none _ | .reload none _ | .peer _ | .request _ => isTrue trivial

def DispatchLoop.Unbroken (l : DispatchLoop) : DispatchEvent → Prop
  | .command (some _) _ | .resizeTimer _ => l.stream.reader = .start
  | .command none _ | .peer _ | .response _ _ => True

instance (l : DispatchLoop) : (event : DispatchEvent) → Decidable (l.Unbroken event)
  | .command (some _) _ | .resizeTimer _ => inferInstanceAs (Decidable (_ = _))
  | .command none _ | .peer _ | .response _ _ => isTrue trivial

/-! ## The stream keeps its frames -/

namespace FrameStream

variable {α : Type} {C : FrameCodec α} {s : FrameStream α}

/-- What is left to return is on its way, part of it perhaps lost with the
connection. -/
structure Sound (C : FrameCodec α) (s : FrameStream α) : Prop where
  onWay : ∃ unread payloads later, s.written = s.returned ++ unread ∧
    List.Forall₂ (fun value bytes => C.encode value = some bytes ∧ bytes.length ≤ maxFrameBytes)
      unread payloads ∧
    s.reader.taken ghosttyHeader ++ s.socket ++ later = Framing.frames ghosttyHeader payloads ∧
    (s.closed = false → later = s.wire)
  midway : s.reader.Midway ghosttyHeader
  noWire : s.closed = true → s.wire = []
  noError : s.closed = false → s.error = none

theorem Sound.new : (FrameStream.new : FrameStream α).Sound C :=
  ⟨⟨[], [], [], rfl, .nil, rfl, fun _ => rfl⟩, Reader.start_midway _, nofun, fun _ => rfl⟩

theorem writeFrame_eq_ok {value : α} {bytes : Bytes} (h : writeFrame C value = .ok bytes) :
    ∃ payload, C.encode value = some payload ∧ payload.length ≤ maxFrameBytes ∧
      bytes = Framing.frame ghosttyHeader payload := by
  unfold writeFrame at h
  split at h
  · cases h
  · next payload hencode =>
      split at h
      · cases h
      · next hlength => exact ⟨payload, hencode, Nat.le_of_not_lt hlength, (Except.ok.inj h).symm⟩

variable (h : s.Sound C)
include h

theorem Sound.write (value : α) : (s.peer C (.write value)).Sound C := by
  simp only [FrameStream.peer]
  split
  · next bytes hopen hwrite =>
      obtain ⟨payload, hencode, hlength, rfl⟩ := writeFrame_eq_ok hwrite
      obtain ⟨unread, payloads, later, hwritten, hpayloads, hbytes, hwire⟩ := h.onWay
      refine ⟨⟨unread ++ [value], payloads ++ [payload], s.wire ++ Framing.frame ghosttyHeader payload,
        ?_, ?_, ?_, fun _ => rfl⟩, h.midway, fun hclosed => ?_, h.noError⟩
      · show s.written ++ [value] = s.returned ++ (unread ++ [value])
        rw [hwritten, append_assoc]
      · exact rel_append hpayloads (.cons ⟨hencode, hlength⟩ .nil)
      · rw [Framing.frames_append, ← hbytes, hwire hopen]
        simp [Framing.frames]
      · rw [show s.closed = true from hclosed] at hopen
        cases hopen
  · exact h

theorem Sound.arrive (n : ℕ) : (s.peer C (.arrive n)).Sound C := by
  obtain ⟨unread, payloads, later, hwritten, hpayloads, hbytes, hwire⟩ := h.onWay
  cases hclosed : s.closed with
  | true =>
    have hnone : s.wire = [] := h.noWire hclosed
    refine ⟨⟨unread, payloads, later, hwritten, hpayloads, ?_, fun hopen => ?_⟩, h.midway, fun _ => ?_,
      h.noError⟩
    · show s.reader.taken ghosttyHeader ++ (s.socket ++ s.wire.take n) ++ later = _
      rw [hnone, take_nil, append_nil]
      exact hbytes
    · rw [show s.closed = false from hopen] at hclosed
      cases hclosed
    · show s.wire.drop n = []
      rw [hnone, drop_nil]
  | false =>
    refine ⟨⟨unread, payloads, s.wire.drop n, hwritten, hpayloads, ?_, fun _ => rfl⟩, h.midway,
      fun hclosed' => ?_, h.noError⟩
    · show s.reader.taken ghosttyHeader ++ (s.socket ++ s.wire.take n) ++ s.wire.drop n = _
      rw [← hbytes, hwire hclosed]
      simp
    · rw [show s.closed = true from hclosed'] at hclosed
      cases hclosed

theorem Sound.close : (s.peer C .close).Sound C := by
  obtain ⟨unread, payloads, later, hwritten, hpayloads, hbytes, -⟩ := h.onWay
  exact ⟨⟨unread, payloads, later, hwritten, hpayloads, hbytes, nofun⟩, h.midway, fun _ => rfl, nofun⟩

theorem Sound.peer (event : PeerEvent α) : (s.peer C event).Sound C := by
  cases event with
  | write value => exact h.write value
  | arrive n => exact h.arrive n
  | close => exact h.close

theorem Sound.dropRead (hstart : s.reader = .start) : s.dropRead.Sound C := by
  have hsame : s.dropRead = s := by
    unfold FrameStream.dropRead
    rw [← hstart]
  rwa [hsame]

omit h

theorem within_limit {unread : List α} {payloads : List Bytes}
    (h : List.Forall₂ (fun value bytes => C.encode value = some bytes ∧
      bytes.length ≤ maxFrameBytes) unread payloads) :
    ∀ payload ∈ payloads, payload.length ≤ ghosttyHeader.limit := by
  induction h with
  | nil => nofun
  | cons hhead _ ih =>
    intro payload hmem
    rcases mem_cons.mp hmem with rfl | hmem
    · exact hhead.2
    · exact ih payload hmem

theorem Sound.poll (h : s.Sound C) : (s.poll C).2.Sound C := by
  obtain ⟨unread, payloads, later, hwritten, hpayloads, hbytes, hwire⟩ := h.onWay
  unfold FrameStream.poll
  rcases Framing.poll_frames ghosttyHeader (within_limit hpayloads) h.midway hbytes with
    ⟨reader, hpoll, hmidway, htaken⟩ | ⟨payload, payloads', left, rfl, hpoll, hleft⟩
  · have honWay : reader.taken ghosttyHeader ++ [] ++ later =
        Framing.frames ghosttyHeader payloads := by
      rw [htaken, append_nil, hbytes]
    rw [hpoll]
    cases hclosed : s.closed with
    | false =>
      exact ⟨⟨unread, payloads, later, hwritten, hpayloads, honWay, fun _ => hwire hclosed⟩, hmidway,
        nofun, fun _ => h.noError hclosed⟩
    | true =>
      -- the end of the stream, within a length or within a payload
      cases reader with
      | header | body =>
        exact ⟨⟨unread, payloads, later, hwritten, hpayloads, honWay, nofun⟩, hmidway,
          fun _ => h.noWire hclosed, nofun⟩
  · obtain _ | ⟨⟨hencode, -⟩, hrest⟩ := hpayloads
    next value unread =>
      rw [hpoll]
      simp only [C.decode_encode _ _ hencode]
      refine ⟨⟨unread, payloads', later, ?_, hrest, hleft, hwire⟩, Reader.start_midway _, h.noWire,
        h.noError⟩
      rw [hwritten, append_assoc, singleton_append]

theorem Sound.poll_open (h : s.Sound C) (hopen : s.closed = false) :
    (∃ value, (s.poll C).1 = some (.ok (some value))) ∨
      (s.poll C).1 = none ∧ (s.poll C).2.socket = [] := by
  obtain ⟨unread, payloads, later, -, hpayloads, hbytes, -⟩ := h.onWay
  unfold FrameStream.poll
  rcases Framing.poll_frames ghosttyHeader (within_limit hpayloads) h.midway hbytes with
    ⟨reader, hpoll, -, -⟩ | ⟨payload, payloads', left, rfl, hpoll, -⟩
  · right
    rw [hpoll, hopen]
    exact ⟨rfl, rfl⟩
  · left
    obtain _ | ⟨⟨hencode, -⟩, -⟩ := hpayloads
    next value unread =>
      refine ⟨value, ?_⟩
      rw [hpoll]
      simp [C.decode_encode _ _ hencode]

theorem Sound.intact (h : s.Sound C) : s.Intact C := by
  obtain ⟨unread, payloads, later, hwritten, hpayloads, hbytes, hwire⟩ := h.onWay
  refine ⟨⟨unread, hwritten.symm⟩, fun hopen hnoWire hnoSocket => ?_, h.noError, h.poll_open⟩
  rw [hwire hopen, hnoWire, hnoSocket, append_nil, append_nil] at hbytes
  have hnone : payloads = [] :=
    Framing.taken_lt_frames ghosttyHeader (within_limit hpayloads) h.midway hbytes
  subst hnone
  cases hpayloads
  rw [hwritten, append_nil]

end FrameStream

/-! ## The loops keep the stream -/

namespace HelperLoop

variable {C : FrameCodec GhosttyRequest} {l : HelperLoop}

@[simp] theorem goOn_stream (l : HelperLoop) (sent : Bool) : (l.goOn sent).stream = l.stream := by
  cases sent <;> rfl

@[simp] theorem finish_stream (l : HelperLoop) : l.finish.stream = l.stream := rfl

theorem handleV2_stream (l : HelperLoop) (sent : Bool) (request : GhosttyRequest) :
    (l.handleV2 sent request).stream = l.stream := by
  cases request <;> simp [handleV2]

theorem handleV1_stream (l : HelperLoop) (sent : Bool) (request : GhosttyRequest) :
    (l.handleV1 sent request).stream = l.stream := by
  cases request <;> simp [handleV1]

theorem onRead_stream {handle : HelperLoop → GhosttyRequest → HelperLoop}
    (hhandle : ∀ l request, (handle l request).stream = l.stream) :
    (l.onRead handle C).stream = (l.stream.poll C).2 := by
  unfold onRead
  rcases l.stream.poll C with ⟨_ | (_ | (_ | request)), s⟩
  · rfl
  · rfl
  · rfl
  · exact hhandle _ _

variable {event : HelperEvent}

theorem stepV2_sound (h : l.stream.Sound C) (hok : l.Unbroken event) :
    (l.stepV2 C event).stream.Sound C := by
  unfold stepV2
  split
  · exact h
  · rcases event with event | ⟨_ | bytes, sent⟩ | ⟨_ | response, sent⟩ | ⟨_ | response, sent⟩ | sent
    · exact h.peer event
    · exact h
    · rw [goOn_stream]
      exact h.dropRead hok
    · exact h
    · dsimp only
      split
      · exact h
      · rw [goOn_stream]
        exact h.dropRead hok
    · exact h
    · dsimp only
      split
      · rw [goOn_stream]
        exact h.dropRead hok
      · exact h
    · dsimp only
      rw [onRead_stream fun l => l.handleV2_stream sent]
      exact h.poll

theorem stepV1_sound (h : l.stream.Sound C) (hok : l.Unbroken event) :
    (l.stepV1 C event).stream.Sound C := by
  unfold stepV1
  split
  · exact h
  · rcases event with event | ⟨_ | bytes, sent⟩ | ⟨response, sent⟩ | ⟨response, sent⟩ | sent
    · exact h.peer event
    · exact h
    · dsimp only
      split
      · exact h
      · rw [goOn_stream]
        exact h.dropRead hok
    · exact h
    · exact h
    · dsimp only
      rw [onRead_stream fun l => l.handleV1_stream sent]
      exact h.poll

end HelperLoop

namespace DispatchLoop

variable {C : FrameCodec GhosttyResponse} {l : DispatchLoop}

@[simp] theorem goOn_stream (l : DispatchLoop) (sent : Bool) : (l.goOn sent).stream = l.stream := by
  cases sent <;> rfl

@[simp] theorem finish_stream (l : DispatchLoop) : l.finish.stream = l.stream := rfl

theorem handleCommand_stream (l : DispatchLoop) (command : GhosttyAttachV2Command) :
    (l.handleCommand command).stream = l.stream := by
  cases command <;> rfl

theorem handleResponse_stream (l : DispatchLoop) (lanes sent : Bool) (response : GhosttyResponse) :
    (l.handleResponse lanes sent response).stream = l.stream := by
  cases response <;> cases lanes <;> simp [handleResponse]

theorem onRead_stream (lanes sent : Bool) :
    (l.onRead C lanes sent).stream = (l.stream.poll C).2 := by
  unfold onRead
  rcases l.stream.poll C with ⟨_ | (_ | (_ | response)), s⟩
  · rfl
  · rfl
  · rfl
  · exact handleResponse_stream _ _ _ _

theorem step_sound {event : DispatchEvent} (h : l.stream.Sound C) (hok : l.Unbroken event) :
    (l.step C event).stream.Sound C := by
  unfold step
  split
  · exact h
  · rcases event with event | ⟨_ | command, sent⟩ | sent | ⟨lanes, sent⟩
    · exact h.peer event
    · exact h
    · rw [goOn_stream, handleCommand_stream]
      exact h.dropRead hok
    · dsimp only
      split
      · rw [goOn_stream]
        exact h.dropRead hok
      · exact h
    · rw [onRead_stream]
      exact h.poll

end DispatchLoop

/-! ## Runs -/

/-- **Frames survive.** In every run of an attach loop of the helper, or of the loop
of the agent, in which no branch is taken while the read is inside a frame, the
frames that are returned are the frames that were written. -/
theorem helper_frames_survive (C : FrameCodec GhosttyRequest) (D : FrameCodec GhosttyResponse)
    (events : List HelperEvent) (dispatch : List DispatchEvent) :
    (Run.Guarded (HelperLoop.stepV2 C) HelperLoop.Unbroken .new events →
        (events.foldl (HelperLoop.stepV2 C) .new).stream.Intact C) ∧
      (Run.Guarded (HelperLoop.stepV1 C) HelperLoop.Unbroken .new events →
        (events.foldl (HelperLoop.stepV1 C) .new).stream.Intact C) ∧
      (Run.Guarded (DispatchLoop.step D) DispatchLoop.Unbroken .new dispatch →
        (dispatch.foldl (DispatchLoop.step D) .new).stream.Intact D) := by
  refine ⟨fun hrun => ?_, fun hrun => ?_, fun hrun => ?_⟩
  · have hsound := hrun.invariant (I := fun l => l.stream.Sound C)
      (fun _ _ => HelperLoop.stepV2_sound) FrameStream.Sound.new
    exact hsound.intact
  · have hsound := hrun.invariant (I := fun l => l.stream.Sound C)
      (fun _ _ => HelperLoop.stepV1_sound) FrameStream.Sound.new
    exact hsound.intact
  · have hsound := hrun.invariant (I := fun l => l.stream.Sound D)
      (fun _ _ => DispatchLoop.step_sound) FrameStream.Sound.new
    exact hsound.intact

/-- `postcard` on short inputs. -/
def keyCodec : FrameCodec GhosttyRequest where
  encode
    | .input bytes => some (3 :: UInt8.ofNat bytes.length :: bytes)
    | _ => none
  decode bytes := some (.input (bytes.drop 2))
  decode_encode value bytes h := by
    cases value <;> cases h
    rfl

/-- `postcard` on short outputs. -/
def outputCodec : FrameCodec GhosttyResponse where
  encode
    | .output bytes => some (3 :: UInt8.ofNat bytes.length :: bytes)
    | _ => none
  decode bytes := some (.output (bytes.drop 2))
  decode_encode value bytes h := by
    cases value <;> cases h
    rfl

theorem helper_frames_survive_keystroke :
    (([.peer (.write (.input [97])), .peer (.arrive 2), .request true, .peer (.arrive 5),
        .request true, .output (some [104]) true] : List HelperEvent).foldl
      (HelperLoop.stepV2 keyCodec) .new).stream.Intact keyCodec ∧
    (([.peer (.write (.input [97])), .peer (.arrive 7), .request true,
        .output (some [104]) true] : List HelperEvent).foldl
      (HelperLoop.stepV1 keyCodec) .new).stream.Intact keyCodec ∧
    (([.peer (.write (.output [104])), .peer (.arrive 7), .response true true,
        .command (some .detach) true] : List DispatchEvent).foldl
      (DispatchLoop.step outputCodec) .new).stream.Intact outputCodec :=
  ⟨(helper_frames_survive keyCodec outputCodec _ []).1 (by decide),
    (helper_frames_survive keyCodec outputCodec _ []).2.1 (by decide),
    (helper_frames_survive keyCodec outputCodec [] _).2.2 (by decide)⟩

/-- Output is sent to the client between the length and the payload of a keystroke:
the payload is read as a length, and with the next keystroke the read fails. -/
theorem helper_frames_lost_to_output :
    let l := ([.peer (.write (.input [97])), .peer (.write (.input [98])), .peer (.arrive 4),
        .request true, .output (some [104]) true, .peer (.arrive 10), .request true] :
      List HelperEvent).foldl (HelperLoop.stepV2 keyCodec) .new
    l.stream.written = [.input [97], .input [98]] ∧ l.stream.returned = [] ∧
      l.stream.closed = false ∧ l.stream.error = some (.tooLarge 0x03016100) ∧
      ¬ l.stream.Intact keyCodec := by
  intro l
  have herror : l.stream.error = some (.tooLarge 0x03016100) := by decide +kernel
  refine ⟨by decide, by decide, by decide, herror, fun h => ?_⟩
  rw [h.noError (by decide)] at herror
  cases herror

end Portl
