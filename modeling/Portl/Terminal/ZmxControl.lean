import Mathlib.Tactic.NormNum
import Portl.Lib.Octets
import Portl.Ticket.Schema

/-!
# zmx control frames

`terminal/zmx_control.rs`: a frame is a tag, the length of the payload in four octets,
and the payload. The writer takes any length that fits those octets; the reader refuses
what is longer than `MAX_FRAME_BYTES`.
-/

namespace Portl

namespace ZmxControl

open Octets List

def maxFrameBytes : ℕ := 16 * 1024 * 1024

/-- The errors of the two functions: their own, and a stream that ends inside a frame. -/
inductive FrameError where
  | invalidInput (message : String)
  | invalidData (message : String)
  | unexpectedEof
deriving DecidableEq

/-- `write_frame`, as the bytes it writes. -/
def writeFrame (tag : UInt8) (payload : Bytes) : Except FrameError Bytes :=
  if payload.length < 2 ^ 32 then .ok (tag :: toLe 4 payload.length ++ payload)
  else .error (.invalidInput "zmx-control frame too large")

/-- What follows the tag: the length and the payload, and the rest of the stream. -/
def readPayload (stream : Bytes) : Except FrameError (Bytes × Bytes) :=
  match readExact 4 stream with
  | none => .error .unexpectedEof
  | some (header, stream) =>
    if maxFrameBytes < ofLe header then
      .error (.invalidData "zmx-control frame exceeds maximum payload size")
    else
      match readExact (ofLe header) stream with
      | none => .error .unexpectedEof
      | some (payload, rest) => .ok (payload, rest)

/-- `read_frame`; a stream that ends before the tag is at its end. -/
def readFrame : Bytes → Except FrameError (Option (UInt8 × Bytes) × Bytes)
  | [] => .ok (none, [])
  | tag :: stream =>
    match readPayload stream with
    | .ok (payload, rest) => .ok (some (tag, payload), rest)
    | .error e => .error e

def writeFrames : List (UInt8 × Bytes) → Except FrameError Bytes
  | [] => .ok []
  | frame :: frames => do
    let first ← writeFrame frame.1 frame.2
    let rest ← writeFrames frames
    .ok (first ++ rest)

/-- So many calls of `read_frame`: the frames they return, and what is left. -/
def readFrames : ℕ → Bytes → Except FrameError (List (UInt8 × Bytes) × Bytes)
  | 0, stream => .ok ([], stream)
  | n + 1, stream =>
    match readFrame stream with
    | .error e => .error e
    | .ok (frame, stream) =>
      match readFrames n stream with
      | .error e => .error e
      | .ok (frames, rest) => .ok (frame.toList ++ frames, rest)

/-! ## One frame -/

variable {written payload : Bytes} {tag : UInt8}

theorem writeFrame_eq_ok (h : writeFrame tag payload = .ok written) :
    payload.length < 2 ^ 32 ∧ written = tag :: toLe 4 payload.length ++ payload := by
  unfold writeFrame at h
  split at h
  · next hlength =>
      cases h
      exact ⟨hlength, rfl⟩
  · cases h

theorem readFrame_written (h : writeFrame tag payload = .ok written) (rest : Bytes) :
    readFrame (written ++ rest) =
      if maxFrameBytes < payload.length then
        .error (.invalidData "zmx-control frame exceeds maximum payload size")
      else .ok (some (tag, payload), rest) := by
  obtain ⟨hlength, rfl⟩ := writeFrame_eq_ok h
  have hvalue : ofLe (toLe 4 payload.length) = payload.length :=
    ofLe_toLe (Nat.lt_of_lt_of_eq hlength (by norm_num))
  have hpayload : readPayload (toLe 4 payload.length ++ payload ++ rest) =
      if maxFrameBytes < payload.length then
        .error (.invalidData "zmx-control frame exceeds maximum payload size")
      else .ok (payload, rest) := by
    unfold readPayload
    rw [append_assoc, readExact_append (length_toLe 4 _)]
    simp only [hvalue, readExact_append]
  show readFrame (tag :: (toLe 4 payload.length ++ payload ++ rest)) = _
  unfold readFrame
  simp only [hpayload]
  split_ifs
  · rfl
  · rfl

/-! ## Any number of frames -/

theorem writeFrames_cons {frame : UInt8 × Bytes} {frames : List (UInt8 × Bytes)}
    (h : writeFrames (frame :: frames) = .ok written) :
    ∃ first rest, writeFrame frame.1 frame.2 = .ok first ∧ writeFrames frames = .ok rest ∧
      written = first ++ rest := by
  rw [writeFrames] at h
  cases hfirst : writeFrame frame.1 frame.2 with
  | error e => rw [hfirst] at h; cases h
  | ok first =>
    cases hrest : writeFrames frames with
    | error e => rw [hfirst, hrest] at h; cases h
    | ok rest =>
      rw [hfirst, hrest] at h
      cases h
      exact ⟨first, rest, rfl, rfl, rfl⟩

/-- **The reader gets what the writer sent, frame by frame and to the last byte, exactly
where no payload is longer than `MAX_FRAME_BYTES`.** -/
theorem frames_read_iff (frames : List (UInt8 × Bytes)) (written rest : Bytes)
    (h : writeFrames frames = .ok written) :
    readFrames frames.length (written ++ rest) = .ok (frames, rest) ↔
      ∀ frame ∈ frames, frame.2.length ≤ maxFrameBytes := by
  induction frames generalizing written with
  | nil =>
    cases h
    exact iff_of_true rfl nofun
  | cons frame frames ih =>
    obtain ⟨first, later, hfirst, hlater, rfl⟩ := writeFrames_cons h
    have hread := readFrame_written hfirst (later ++ rest)
    rw [forall_mem_cons, length_cons, readFrames, append_assoc, hread]
    by_cases hlong : maxFrameBytes < frame.2.length
    · rw [if_pos hlong]
      exact iff_of_false nofun fun hall => absurd hall.1 (Nat.not_le.mpr hlong)
    · rw [if_neg hlong, and_iff_right (Nat.not_lt.mp hlong), ← ih later hlater]
      cases hlast : readFrames frames.length (later ++ rest) with
      | error e =>
        simp only [hlast]
        exact iff_of_false nofun nofun
      | ok r =>
        obtain ⟨got, left⟩ := r
        simp only [hlast]
        constructor
        · intro heq
          obtain ⟨hframes, rfl⟩ := Prod.mk.inj (Except.ok.inj heq)
          obtain rfl : got = frames := (List.cons.inj hframes).2
          rfl
        · intro heq
          obtain ⟨rfl, rfl⟩ := Prod.mk.inj (Except.ok.inj heq)
          rfl

theorem frames_read_two :
    readFrames 2 ([2, 1, 0, 0, 0, 80, 1, 0, 0, 0, 0] ++ [9]) = .ok ([(2, [80]), (1, [])], [9]) :=
  (frames_read_iff [(2, [80]), (1, [])] [2, 1, 0, 0, 0, 80, 1, 0, 0, 0, 0] [9] (by decide)).mpr
    (by decide)

/-- A payload one byte too long is written and refused. -/
theorem long_frame_refused :
    ∃ payload written : Bytes, payload.length = maxFrameBytes + 1 ∧
      writeFrame 1 payload = .ok written ∧
      readFrame written =
        .error (.invalidData "zmx-control frame exceeds maximum payload size") := by
  have hlength : (List.replicate (maxFrameBytes + 1) (0 : UInt8)).length = maxFrameBytes + 1 :=
    length_replicate
  have hwrite : writeFrame 1 (List.replicate (maxFrameBytes + 1) 0) =
      .ok (1 :: toLe 4 (List.replicate (maxFrameBytes + 1) (0 : UInt8)).length ++
        List.replicate (maxFrameBytes + 1) 0) := by
    unfold writeFrame
    rw [if_pos (by rw [hlength]; decide)]
  refine ⟨_, _, hlength, hwrite, ?_⟩
  have hread := readFrame_written hwrite []
  rw [append_nil, if_pos (by rw [hlength]; exact Nat.lt_succ_self _)] at hread
  exact hread

end ZmxControl

end Portl
