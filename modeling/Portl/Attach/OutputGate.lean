import Mathlib.Algebra.Order.Ring.Int
import Portl.Ticket.Schema

/-!
# The output gate of an attached screen

While the control bar is shown, output is held back, up to 64 KiB for each stream;
what does not fit sends everything held before it on its way.
-/

namespace Portl

inductive AttachOutputStream where
  | stdout
  | stderr
deriving DecidableEq

/-- `ATTACH_OUTPUT_GATE_LIMIT`. -/
def attachOutputGateLimit : Nat := 64 * 1024

structure AttachOutputGate where
  holding : Bool
  buffer : AttachOutputStream → Bytes

inductive AttachOutputGateDecision where
  | notHolding
  | held (gate : AttachOutputGate)
  | overflow

def AttachOutputGate.hold (gate : AttachOutputGate) (stream : AttachOutputStream) (bytes : Bytes) :
    AttachOutputGateDecision :=
  if !gate.holding then .notHolding
  else if (gate.buffer stream).length + bytes.length > attachOutputGateLimit then .overflow
  else .held { gate with
    buffer := fun other => gate.buffer other ++ if stream = other then bytes else [] }

/-- What is written to a stream: output, or the control bar. -/
inductive StreamWrite where
  | output (bytes : Bytes)
  | bar (rows cols : UInt16) (text : String)

structure AttachDisplayState where
  cols : UInt16
  rows : UInt16
  bar : Option String
  gate : AttachOutputGate
  written : List (AttachOutputStream × StreamWrite)

namespace AttachDisplayState

def new (cols rows : UInt16) : AttachDisplayState :=
  ⟨cols, rows, none, ⟨false, fun _ => []⟩, []⟩

def writeAll (s : AttachDisplayState) (stream : AttachOutputStream) (write : StreamWrite) :
    AttachDisplayState :=
  { s with written := s.written ++ [(stream, write)] }

/-- `draw_attach_control_bar_to`. -/
def drawBar (s : AttachDisplayState) (text : String) : AttachDisplayState :=
  s.writeAll .stderr (.bar s.rows s.cols text)

def redrawBar (s : AttachDisplayState) : AttachDisplayState := s.bar.elim s s.drawBar

def heldWrite (gate : AttachOutputGate) (stream : AttachOutputStream) :
    List (AttachOutputStream × StreamWrite) :=
  if gate.buffer stream = [] then [] else [(stream, .output (gate.buffer stream))]

def flushHeldOutput (s : AttachDisplayState) : AttachDisplayState :=
  { s with
    gate := { s.gate with buffer := fun _ => [] }
    written := s.written ++ heldWrite s.gate .stdout ++ heldWrite s.gate .stderr }

/-- The end of `write_output`, behind the gate. -/
def pass (s : AttachDisplayState) (stream : AttachOutputStream) (bytes : Bytes) :
    AttachDisplayState :=
  if s.bar.isSome then ((s.drawBar "").writeAll stream (.output bytes)).redrawBar
  else s.writeAll stream (.output bytes)

/-- The calls of `AttachDisplay`. -/
inductive Call where
  | writeOutput (stream : AttachOutputStream) (bytes : Bytes)
  | updateSize (cols rows : UInt16)
  | setBar (text : String)
  | clearBar

def call (s : AttachDisplayState) : Call → AttachDisplayState
  | .writeOutput stream bytes =>
    match s.gate.hold stream bytes with
    | .held gate => { s with gate := gate }.redrawBar
    | .overflow => (s.drawBar "").flushHeldOutput.pass stream bytes
    | .notHolding => s.pass stream bytes
  | .updateSize cols rows =>
    if s.cols = cols ∧ s.rows = rows then s
    else if s.bar.isSome then { s.drawBar "" with cols := cols, rows := rows }.redrawBar
    else { s with cols := cols, rows := rows }
  | .setBar text => { s with gate := { s.gate with holding := true }, bar := some text }.redrawBar
  | .clearBar =>
    if s.bar.isNone then s
    else ({ s with bar := none, gate := { s.gate with holding := false } }.drawBar "").flushHeldOutput

/-! ## Nothing is lost -/

def shownOn (stream : AttachOutputStream) : AttachOutputStream × StreamWrite → Bytes
  | (other, .output bytes) => if other = stream then bytes else []
  | (_, .bar _ _ _) => []

/-- What was written to a stream, apart from the bar. -/
def shown (s : AttachDisplayState) (stream : AttachOutputStream) : Bytes :=
  s.written.flatMap (shownOn stream)

/-- What a call gives to a stream. -/
def Call.output (stream : AttachOutputStream) : Call → Bytes
  | .writeOutput other bytes => if other = stream then bytes else []
  | _ => []

/-- Output is held only under a bar, within the limit, and behind what was shown. -/
structure Keeps (s : AttachDisplayState) (given : AttachOutputStream → Bytes) : Prop where
  holding : s.gate.holding = s.bar.isSome
  idle : s.bar = none → s.gate.buffer = fun _ => []
  limit : ∀ stream, (s.gate.buffer stream).length ≤ attachOutputGateLimit
  all : ∀ stream, s.shown stream ++ s.gate.buffer stream = given stream

variable {s : AttachDisplayState} {given : AttachOutputStream → Bytes}

@[grind =] theorem shown_writeAll (s : AttachDisplayState) (stream other : AttachOutputStream)
    (write : StreamWrite) :
    (s.writeAll stream write).shown other = s.shown other ++ shownOn other (stream, write) := by
  simp [shown, writeAll]

theorem Keeps.drawBar (h : s.Keeps given) (text : String) : (s.drawBar text).Keeps given := by
  obtain ⟨hholding, hidle, hlimit, hall⟩ := h
  constructor <;> grind [AttachDisplayState.drawBar, writeAll, shownOn]

theorem Keeps.redrawBar (h : s.Keeps given) : s.redrawBar.Keeps given := by
  unfold AttachDisplayState.redrawBar
  cases s.bar with
  | none => exact h
  | some text => exact h.drawBar text

theorem keeps_flushHeldOutput (hholding : s.gate.holding = s.bar.isSome)
    (hall : ∀ stream, s.shown stream ++ s.gate.buffer stream = given stream) :
    s.flushHeldOutput.Keeps given := by
  refine ⟨hholding, fun _ => rfl, fun _ => Nat.zero_le _, fun stream => ?_⟩
  have hheld : ∀ other, (heldWrite s.gate other).flatMap (shownOn stream) =
      if other = stream then s.gate.buffer other else [] := by
    grind [heldWrite, shownOn]
  rw [← hall]
  cases stream <;> simp [flushHeldOutput, shown, hheld]

theorem Keeps.pass (h : s.Keeps given) (hempty : s.gate.buffer = fun _ => [])
    (stream : AttachOutputStream) (bytes : Bytes) :
    (s.pass stream bytes).Keeps fun other =>
      given other ++ Call.output other (.writeOutput stream bytes) := by
  have hwrite : ∀ {s : AttachDisplayState}, s.Keeps given → s.gate.buffer = (fun _ => []) →
      (s.writeAll stream (.output bytes)).Keeps fun other =>
        given other ++ Call.output other (.writeOutput stream bytes) := by
    rintro s ⟨hholding, hidle, hlimit, hall⟩ hempty
    constructor <;> grind [writeAll, shownOn, Call.output]
  unfold AttachDisplayState.pass
  split
  · exact (hwrite (h.drawBar "") hempty).redrawBar
  · exact hwrite h hempty

theorem Keeps.call (h : s.Keeps given) (c : Call) :
    (s.call c).Keeps fun stream => given stream ++ c.output stream := by
  have hdrawn := h.drawBar ""
  cases c with
  | writeOutput stream bytes =>
    dsimp only [AttachDisplayState.call, AttachOutputGate.hold]
    split
    · next gate hheld =>
      obtain ⟨hholding, hidle, hlimit, hall⟩ := h
      have hshown : ∀ other, { s with gate := gate }.shown other = s.shown other := fun _ => rfl
      refine Keeps.redrawBar ?_
      constructor <;> grind [Call.output]
    · exact (keeps_flushHeldOutput hdrawn.holding hdrawn.all).pass rfl stream bytes
    · refine h.pass (h.idle ?_) stream bytes
      grind [h.holding, Option.isNone_iff_eq_none]
  | updateSize cols rows =>
    simp only [Call.output, List.append_nil, AttachDisplayState.call]
    split_ifs
    · exact h
    · exact Keeps.redrawBar { hdrawn with }
    · exact { h with }
  | setBar text =>
    simp only [Call.output, List.append_nil]
    exact Keeps.redrawBar ⟨rfl, fun hnone => (by cases hnone), h.limit, h.all⟩
  | clearBar =>
    simp only [Call.output, List.append_nil, AttachDisplayState.call]
    split_ifs
    · exact h
    · exact keeps_flushHeldOutput rfl hdrawn.all

/-- **The gate loses nothing.** -/
theorem output_gate_lossless (cols rows : UInt16) (calls : List Call)
    (stream : AttachOutputStream) :
    ((calls.foldl call (new cols rows)).gate.buffer stream).length ≤ attachOutputGateLimit ∧
      ((calls.foldl call (new cols rows)).call .clearBar).shown stream =
        calls.flatMap (Call.output stream) := by
  have hrun : ∀ (calls : List Call) s given, s.Keeps given → (calls.foldl call s).Keeps
      fun stream => given stream ++ calls.flatMap (Call.output stream) := by
    intro calls
    induction calls with
    | nil => simp
    | cons c calls ih =>
      intro s given h
      simpa using ih _ _ (h.call c)
  have hkeeps := hrun calls (new cols rows) (fun _ => [])
    ⟨rfl, fun _ => rfl, fun _ => Nat.zero_le _, fun _ => rfl⟩
  have hlast := hkeeps.call .clearBar
  have hbar : ((calls.foldl call (new cols rows)).call .clearBar).bar = none := by
    dsimp only [AttachDisplayState.call]
    split
    · next hnone => exact Option.isNone_iff_eq_none.mp hnone
    · rfl
  have hall := hlast.all stream
  rw [hlast.idle hbar] at hall
  exact ⟨hkeeps.limit stream, by simpa [Call.output] using hall⟩

end AttachDisplayState

end Portl
