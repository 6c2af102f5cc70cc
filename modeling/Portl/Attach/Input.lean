import Portl.Lib.Run
import Portl.Terminal.ResponseFilter

/-!
# What the user types

The two loops that carry local input to a session: `handle_attach_input_bytes` of
the coordinator, with a sink connected, and `stdin_loop`. A read may open the
control prompt, cancel a paste, or go through the response filter to the sink.

Each of these looks at the read as a whole: a read that holds the detach key is
taken for the detach key, with everything else in it; and what does not go through
the filter overtakes the bytes that the filter holds.
-/

namespace Portl

open Stream

/-! ## The detach key -/

/-- `parse_decimal`, with the bytes it leaves; the value saturates. -/
def parseDecimal (data : Bytes) : Option (ℕ × Bytes) :=
  let digits := data.takeWhile isAsciiDigit
  if digits = [] then none
  else some (digits.foldl (fun value byte =>
    min (min (value * 10) (2 ^ 32 - 1) + (byte.toNat - 48)) (2 ^ 32 - 1)) 0,
    data.dropWhile isAsciiDigit)

def isDigitOrColon (byte : UInt8) : Bool := isAsciiDigit byte || byte == 0x3a

/-- `KEY (: n)* ; MODS (: event)? (; text)? u`, where event 3 is a release. -/
def keypressWithMod (data : Bytes) (expectedKey expectedMods : ℕ) : Bool :=
  match parseDecimal data with
  | none => false
  | some (keyCode, rest) =>
    if keyCode ≠ expectedKey then false
    else
      -- the loop over `: n` takes all that follows a first colon
      match (if rest.head? = some 0x3a then rest.dropWhile isDigitOrColon else rest) with
      | 0x3b :: rest =>
        match parseDecimal rest with
        | none => false
        | some (modEncoded, rest) =>
          if modEncoded < 1 then false
          else if (modEncoded - 1) &&& 0b00111111 ≠ expectedMods then false
          else if rest.head? = some 0x3a ∧ (parseDecimal rest.tail).any (·.1 = 3) then false
          else
            let rest := if rest.head? = some 0x3a then rest.tail.dropWhile isAsciiDigit else rest
            let rest := if rest.head? = some 0x3b then rest.tail.dropWhile isDigitOrColon
              else rest
            rest.head? = some 0x75
      | _ => false

def isKeyPressed (data : Bytes) (expectedKey expectedMods : ℕ) : Bool :=
  data.tails.any fun tail =>
    [esc, 0x5b].isPrefixOf tail && keypressWithMod (tail.drop 2) expectedKey expectedMods

def isCtrlBackslashSequence (data : Bytes) : Bool :=
  data.contains 0x1c || isKeyPressed data 0x5c 0b100

/-! ## Pastes -/

/-- `PasteConfig::default`; times are in milliseconds. -/
def burstThresholdBytes : ℕ := 64 * 1024

def burstWindow : ℕ := 250

/-- `PasteState`, without what is only shown. -/
structure PasteState where
  active : Bool
  burstStart : Option ℕ
  burstBytes : ℕ
  pendingBytes : ℕ
  backpressured : Bool
deriving DecidableEq

namespace PasteState

def new : PasteState := ⟨false, none, 0, 0, false⟩

def observeRead (p : PasteState) (bytes now : ℕ) : PasteState :=
  let p :=
    if p.burstStart.any (fun start => now - start < burstWindow) then
      { p with burstBytes := p.burstBytes + bytes }
    else { p with burstStart := some now, burstBytes := bytes }
  if p.burstBytes ≥ burstThresholdBytes then { p with active := true } else p

def activate (p : PasteState) : PasteState := { p with active := true }

def deactivateIfIdle (p : PasteState) : PasteState :=
  if p.pendingBytes = 0 ∧ p.backpressured = false then { p with active := false } else p

def observeQueued (p : PasteState) (bytes : ℕ) : PasteState :=
  { p with pendingBytes := p.pendingBytes + bytes }

def observeSent (p : PasteState) (bytes : ℕ) : PasteState :=
  let p := { p with pendingBytes := p.pendingBytes - bytes }
  if p.pendingBytes = 0 then { p with backpressured := false }.deactivateIfIdle else p

def setBackpressured (p : PasteState) (value : Bool) : PasteState :=
  if value then { p with backpressured := true, active := true }
  else { p with backpressured := false }.deactivateIfIdle

def cancelPending (p : PasteState) : PasteState :=
  { p with pendingBytes := 0, backpressured := false, active := false }

end PasteState

inductive BracketedPasteEvent where
  | none
  | begin
  | done
deriving DecidableEq

structure BracketedPasteScanner where
  tail : Bytes
  inPaste : Bool
deriving DecidableEq

def lastIndexOf (mark bytes : Bytes) : Option ℕ :=
  ((List.range bytes.length).filter fun i => mark.isPrefixOf (bytes.drop i)).getLast?

namespace BracketedPasteScanner

def new : BracketedPasteScanner := ⟨[], false⟩

def forceEnd (b : BracketedPasteScanner) : BracketedPasteScanner := { b with inPaste := false }

def scan (b : BracketedPasteScanner) (bytes : Bytes) :
    BracketedPasteEvent × BracketedPasteScanner :=
  let combined := b.tail ++ bytes
  let tail := combined.drop (combined.length - 5)
  match lastIndexOf bracketedPasteBegin combined, lastIndexOf bracketedPasteEnd combined with
  | .none, .none => (.none, { b with tail := tail })
  | .some _, .none => (.begin, ⟨tail, true⟩)
  | .some first, .some last =>
    if first > last then (.begin, ⟨tail, true⟩) else (.done, ⟨tail, false⟩)
  | .none, .some _ => (.done, ⟨tail, false⟩)

end BracketedPasteScanner

/-! ## The loops -/

/-- What comes of the control prompt: nothing for two seconds, the end of the
input, or one read. -/
inductive ControlRead where
  | timeout
  | eof
  | command (bytes : Bytes)
deriving DecidableEq

def ControlRead.bytes : ControlRead → Bytes
  | .command bytes => bytes
  | _ => []

/-- One read from the terminal, with what the loop learns while it deals with it:
whether a reload can be cancelled when it looks for the rest of an escape sequence
and when it reaches the filter, that rest, how long the send takes, and what is
read at the control prompt. -/
structure AttachRead where
  chunk : Bytes
  now : ℕ
  reloadBefore : Bool
  tail : Bytes
  reload : Bool
  sendMillis : ℕ
  control : ControlRead
deriving DecidableEq

structure AttachControls where
  supportsKickOthers : Bool
  supportsReload : Bool
deriving DecidableEq

inductive AttachControlOutcome where
  | continues
  | detached
  | cancelPaste
deriving DecidableEq

/-- The state of a loop. `taken` is all it has read, `sent` what it has passed to
`send_stdin` of a sink that works, and `closed` says that it has called
`close_stdin`. -/
structure AttachInput where
  paste : PasteState
  bracketed : BracketedPasteScanner
  filter : QueryResponseFilter
  taken : Bytes
  sent : Bytes
  closed : Bool
deriving DecidableEq

namespace AttachInput

def new : AttachInput := ⟨.new, .new, .new, [], [], false⟩

def take (s : AttachInput) (bytes : Bytes) : AttachInput := { s with taken := s.taken ++ bytes }

def sendStdin (s : AttachInput) (bytes : Bytes) : AttachInput := { s with sent := s.sent ++ bytes }

def closeStdin (s : AttachInput) : AttachInput := { s with closed := true }

def observe (s : AttachInput) (r : AttachRead) : AttachInput :=
  let paste := s.paste.observeRead r.chunk.length r.now
  let scanned := s.bracketed.scan r.chunk
  { s with
    taken := s.taken ++ r.chunk
    bracketed := scanned.2
    paste :=
      match scanned.1 with
      | .begin => paste.activate
      | .done => paste.deactivateIfIdle
      | .none => paste }

def runAttachControlMode (controls : AttachControls) (s : AttachInput) (control : ControlRead) :
    AttachControlOutcome × AttachInput :=
  match control with
  | .timeout => (.continues, s)
  | .eof => (.continues, s.closeStdin)
  | .command command =>
    let s := s.take command
    if command = [0x64] then (.detached, s.closeStdin)
    else if command = [0x6b] ∧ controls.supportsKickOthers then (.continues, s)
    else if command = [0x72] ∧ controls.supportsReload then (.continues, s)
    else if command = [0x63] ∧ s.paste.active then (.cancelPaste, s)
    else if command = [esc] then (.continues, s)
    else (.continues, s.sendStdin command)

def cancelPaste (s : AttachInput) : AttachInput :=
  let s := { s with paste := s.paste.cancelPending }
  if s.bracketed.inPaste then
    { s with bracketed := s.bracketed.forceEnd }.sendStdin bracketedPasteEnd
  else s

/-- `filter_attach_stdin_outbound`: the escape byte that cancels a reload does not
go through the filter. -/
def filterAttachStdinOutbound (filter : QueryResponseFilter) (reload : Bool) (bytes : Bytes) :
    Bytes × QueryResponseFilter :=
  if bytes = [esc] ∧ reload then (bytes, filter) else filter.feed bytes

def forward (s : AttachInput) (r : AttachRead) (outbound : Bytes) : AttachInput :=
  let filtered := filterAttachStdinOutbound s.filter r.reload outbound
  let paste := s.paste.observeQueued filtered.1.length
  let s := { s with filter := filtered.2 }.sendStdin filtered.1
  { s with paste :=
      (paste.setBackpressured (100 ≤ r.sendMillis)).observeSent filtered.1.length }

def escapeTail (waits : Bool) (r : AttachRead) : Bytes :=
  if waits ∧ r.chunk = [esc] ∧ r.reloadBefore then r.tail.take 16 else []

def attachRead (waits : Bool) (controls : AttachControls) (s : AttachInput) (r : AttachRead) :
    AttachInput :=
  let s := s.observe r
  if isCtrlBackslashSequence r.chunk then
    match s.runAttachControlMode controls r.control with
    | (.continues, s) => s
    | (.detached, s) => s
    | (.cancelPaste, s) => s.cancelPaste
  else if s.paste.active ∧ r.chunk = [esc] then s.cancelPaste
  else (s.take (escapeTail waits r)).forward r (r.chunk ++ escapeTail waits r)

/-- `handle_attach_input_bytes` with a sink. -/
def handleAttachInputBytes := attachRead true

/-- The read arm of `stdin_loop`. -/
def stdinLoopRead := attachRead false

def idle (s : AttachInput) : AttachInput :=
  let flushed := s.filter.flushTimeout
  { s with filter := flushed.2 }.sendStdin flushed.1

end AttachInput

inductive AttachLoop where
  | coordinator
  | stdinLoop
deriving DecidableEq

inductive AttachEvent where
  | read (r : AttachRead)
  | idle
  | eof
deriving DecidableEq

def AttachLoop.waits : AttachLoop → Bool
  | .coordinator => true
  | .stdinLoop => false

def AttachLoop.read : AttachLoop → AttachControls → AttachInput → AttachRead → AttachInput
  | .coordinator => AttachInput.handleAttachInputBytes
  | .stdinLoop => AttachInput.stdinLoopRead

def AttachLoop.step (loop : AttachLoop) (controls : AttachControls) (s : AttachInput) :
    AttachEvent → AttachInput
  | .read r => loop.read controls s r
  | .idle => s.idle
  | .eof => s.closeStdin

def AttachLoop.run (loop : AttachLoop) (controls : AttachControls) (events : List AttachEvent) :
    AttachInput :=
  events.foldl (loop.step controls) .new

/-! ## What may be missing

The marks of a bracketed paste are looked for in the input itself, apart from the
scanner and the filter. -/

/-- Outside of a paste or inside, with so many bytes of the next mark. -/
inductive PasteScan where
  | outside (matched : ℕ)
  | inside (matched : ℕ)
deriving DecidableEq

def markMatch (mark : Bytes) (matched : ℕ) (byte : UInt8) : ℕ :=
  if mark[matched]? = some byte then matched + 1 else if byte = esc then 1 else 0

def PasteScan.next : PasteScan → UInt8 → PasteScan
  | .outside matched, byte =>
    if markMatch bracketedPasteBegin matched byte = 6 then .inside 0
    else .outside (markMatch bracketedPasteBegin matched byte)
  | .inside matched, byte =>
    if markMatch bracketedPasteEnd matched byte = 6 then .outside 0
    else .inside (markMatch bracketedPasteEnd matched byte)

def PasteScan.isOutside : PasteScan → Bool
  | .outside _ => true
  | .inside _ => false

def PasteScan.scan (scan : PasteScan) (bytes : Bytes) : PasteScan := bytes.foldl PasteScan.next scan

def pasteScan (input : Bytes) : PasteScan := (PasteScan.outside 0).scan input

def isDetachKey (key : Bytes) : Bool :=
  key == [0x1c] ||
    ([esc, 0x5b].isPrefixOf key && key.getLast? == some 0x75 &&
      (key.drop 2).dropLast.all (fun byte => isDigitOrColon byte || byte == 0x3b) &&
      keypressWithMod (key.drop 2) 0x5c 0b100)

def controlCommands : List Bytes := [[], [0x64], [0x6b], [0x72], [0x63], [esc]]

/-- The input and what the sink got of it: everything in order, but for answers of
the terminal outside of pastes, the detach key outside of pastes with its command,
and the escape byte that cancels a paste. A cancelled paste may be closed.
`cancelledAt` says after which input a lone escape byte met an active paste. -/
inductive Accounted (cancelledAt : Bytes → Prop) : Bytes → Bytes → Prop where
  | nil : Accounted cancelledAt [] []
  | typed {input sent : Bytes} (h : Accounted cancelledAt input sent) (bytes : Bytes) :
      Accounted cancelledAt (input ++ bytes) (sent ++ bytes)
  | response {input sent bytes : Bytes} (h : Accounted cancelledAt input sent)
      (hresponse : isResponse bytes = true) (houtside : (pasteScan input).isOutside = true) :
      Accounted cancelledAt (input ++ bytes) sent
  | command {input sent key command closing : Bytes} (h : Accounted cancelledAt input sent)
      (hkey : isDetachKey key = true) (houtside : (pasteScan input).isOutside = true)
      (hcommand : command ∈ controlCommands)
      (hclosing : closing = [] ∨ command = [0x63] ∧ closing = bracketedPasteEnd) :
      Accounted cancelledAt (input ++ (key ++ command)) (sent ++ closing)
  | cancelled {input sent closing : Bytes} (h : Accounted cancelledAt input sent)
      (hcancelled : cancelledAt input) (hclosing : closing = [] ∨ closing = bracketedPasteEnd) :
      Accounted cancelledAt (input ++ [esc]) (sent ++ closing)

/-- In the run, a read that is one escape byte meets an active paste after this
input. -/
def CancelledAt (loop : AttachLoop) (controls : AttachControls) (events : List AttachEvent)
    (input : Bytes) : Prop :=
  ∃ before r after, events = before ++ .read r :: after ∧
    (loop.run controls before).taken = input ∧ r.chunk = [esc] ∧
    ((loop.run controls before).observe r).paste.active = true

/-- All that was read is accounted for, but for the unfinished sequence that the
filter holds; at the end it holds none. -/
def Delivered (loop : AttachLoop) (controls : AttachControls) (events : List AttachEvent) : Prop :=
  let s := loop.run controls events
  ∃ settled, s.taken = settled ++ s.filter.pending ∧
    Accounted (CancelledAt loop controls events) settled s.sent ∧
    (s.closed = true → s.filter.pending = [])

/-! ## What the input must avoid -/

def QueryResponseFilter.AtRest (f : QueryResponseFilter) : Prop :=
  f.pending = [] ∧ (f.inBracketedPaste = true → f.pasteEndMatch = 0)

instance (f : QueryResponseFilter) : Decidable f.AtRest := inferInstanceAs (Decidable (_ ∧ _))

def ControlRead.Plain (control : ControlRead) : Prop :=
  pasteScan control.bytes ∈ [PasteScan.outside 0, .outside 1]

instance (control : ControlRead) : Decidable control.Plain :=
  inferInstanceAs (Decidable (_ ∈ _))

/-- A read that holds the detach key is the key alone, outside of pastes. What
passes the filter by finds it at rest. An escape byte that was passed on or dropped
on its own is not the beginning of a sequence. The input ends at rest. -/
def AttachInput.Careful (loop : AttachLoop) (s : AttachInput) : AttachEvent → Prop
  | .read r => s.closed = false ∧
      if isCtrlBackslashSequence r.chunk then
        isDetachKey r.chunk = true ∧ (pasteScan s.taken).isOutside = true ∧ s.filter.AtRest ∧
          r.control.Plain
      else if (s.observe r).paste.active = true ∧ r.chunk = [esc] then s.filter.AtRest
      else if r.chunk ++ escapeTail loop.waits r = [esc] ∧ r.reload = true then s.filter.AtRest
      else pasteScan s.taken = .outside 1 → s.filter.pending = [] →
        s.filter.inBracketedPaste = false → r.chunk.head? ≠ some 0x5b
  | .idle => s.closed = false
  | .eof => s.closed = false ∧ s.filter.pending = []

instance (loop : AttachLoop) (s : AttachInput) :
    (event : AttachEvent) → Decidable (s.Careful loop event)
  | .read r => by
    unfold AttachInput.Careful
    infer_instance
  | .idle => inferInstanceAs (Decidable (_ = _))
  | .eof => inferInstanceAs (Decidable (_ ∧ _))

end Portl
