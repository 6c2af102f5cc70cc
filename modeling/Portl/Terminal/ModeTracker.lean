import Mathlib.Algebra.Ring.Nat
import Mathlib.Data.FinEnum
import Mathlib.Data.Vector.Defs
import Portl.Terminal.QueryStripper

/-!
# The terminal mode tracker

`terminal_mode_tracker.rs`. The tracker follows the output of a session and
knows which modes of the terminal it left switched on. When the session is left,
`cleanup_plan` gives the bytes that switch them off again.

The plan depends on the modes alone, and the terminal reads it from wherever the
stream stopped. Inside a CSI sequence or after a lone escape byte this does no
harm: the first escape byte of the plan begins anew. Inside an OSC string it
does not: the string swallows the plan.
-/

namespace Portl

open List hiding Vector

/-! ## Modes -/

inductive AltScreenMode where
  | legacy47
  | mode1049
deriving DecidableEq

/-- `TerminalModeState`; the four mouse modes stand in the order of
`MOUSE_MODES`. -/
structure TerminalModeState where
  kittyKeyboardDepth : ℕ
  kittyFlags : ℕ
  altScreen : Option AltScreenMode
  bracketedPaste : Bool
  mouseModes : Vector Bool 4
  modifyOtherKeys : ℕ
  decawm : Bool
  scrollRegionNonDefault : Bool
deriving DecidableEq

def TerminalModeState.default : TerminalModeState :=
  { kittyKeyboardDepth := 0, kittyFlags := 0, altScreen := none, bracketedPaste := false,
    mouseModes := Vector.replicate 4 false, modifyOtherKeys := 0, decawm := true,
    scrollRegionNonDefault := false }

/-- `MOUSE_MODES`. -/
def mouseModeList : List ℕ := [1000, 1002, 1003, 1006]

def csiBufferCapacity : ℕ := 64

def maxKittyDepth : ℕ := 16

def mouseModeIndex (mode : ℕ) : Option (Fin 4) :=
  if mode = 1000 then some 0
  else if mode = 1002 then some 1
  else if mode = 1003 then some 2
  else if mode = 1006 then some 3
  else none

/-- A parameter as it is read: the numbers finished so far, the one begun, and
whether it has a digit. Numbers saturate at sixteen bits. -/
def parseParamsFrom (parsed : List ℕ) (current : ℕ) (hasDigit : Bool) : Bytes → Option (List ℕ)
  | [] => some (parsed ++ [if hasDigit then current else 0])
  | byte :: rest =>
    if isAsciiDigit byte then
      parseParamsFrom parsed (min (current * 10 + (byte.toNat - 48)) 65535) true rest
    else if byte = 0x3b ∨ byte = 0x3a then
      parseParamsFrom (parsed ++ [if hasDigit then current else 0]) 0 false rest
    else none

def parseParams (params : Bytes) : List ℕ :=
  if params = [] then [] else (parseParamsFrom [] 0 false params).getD []

def scrollRegionNonDefault (params : Bytes) : Bool :=
  if params = [] then false
  else !(parseParams params == [] || parseParams params == [0] || parseParams params == [1, 0])

/-! ## The tracker -/

inductive ParserState where
  | ground
  | escape
  | csi
  | osc
  | oscEscape
deriving DecidableEq

/-- `csi` is the filled part of the buffer. -/
structure TerminalModeTracker where
  modes : TerminalModeState
  parser : ParserState
  csi : Bytes
  csiOverflowed : Bool
  pendingAltScreenKittyReset : Bool
deriving DecidableEq

namespace TerminalModeTracker

def new : TerminalModeTracker := ⟨.default, .ground, [], false, false⟩

def isKittyActive (t : TerminalModeTracker) : Bool :=
  decide (0 < t.modes.kittyKeyboardDepth) || decide (t.modes.kittyFlags ≠ 0)

def resetCsi (t : TerminalModeTracker) : TerminalModeTracker :=
  { t with csi := [], csiOverflowed := false }

def setAltScreen (t : TerminalModeTracker) (mode : AltScreenMode) (enable : Bool) :
    TerminalModeTracker :=
  if enable then { t with modes.altScreen := some mode }
  else if t.modes.altScreen = some mode ∨ t.modes.altScreen.isSome = true then
    let anyDirty := t.isKittyActive || decide (t.modes.modifyOtherKeys ≠ 0) ||
      t.modes.bracketedPaste || t.modes.mouseModes.toList.any id || !t.modes.decawm ||
      t.modes.scrollRegionNonDefault
    { t with
      modes.altScreen := none
      pendingAltScreenKittyReset := anyDirty || t.pendingAltScreenKittyReset }
  else t

def setMouseMode (t : TerminalModeTracker) (mode : ℕ) (enable : Bool) : TerminalModeTracker :=
  match mouseModeIndex mode with
  | some index => { t with modes.mouseModes := t.modes.mouseModes.set index enable }
  | none => t

def applyPrivateMode (t : TerminalModeTracker) (mode : ℕ) (enable : Bool) : TerminalModeTracker :=
  if mode = 47 then t.setAltScreen .legacy47 enable
  else if mode = 1049 then t.setAltScreen .mode1049 enable
  else if mode = 2004 then { t with modes.bracketedPaste := enable }
  else if mode = 7 then { t with modes.decawm := enable }
  else if mode ∈ mouseModeList then t.setMouseMode mode enable
  else t

/-- The two Kitty sequences that may end the Kitty state take back the reset that
was waiting. -/
def settleKittyReset (t : TerminalModeTracker) : TerminalModeTracker :=
  if t.isKittyActive then t else { t with pendingAltScreenKittyReset := false }

def handleCsi (t : TerminalModeTracker) (finalByte : UInt8) : TerminalModeTracker :=
  if t.csiOverflowed then t
  else
    let first := t.csi.head?
    let rest := t.csi.drop 1
    if first = some 0x3e ∧ finalByte = 0x75 ∧ 1 < t.csi.length ∧
        0 < (parseParams rest).head?.getD 0 then
      { t with modes.kittyKeyboardDepth := min (t.modes.kittyKeyboardDepth + 1) maxKittyDepth }
    else if first = some 0x3c ∧ finalByte = 0x75 then
      settleKittyReset
        { t with modes.kittyKeyboardDepth := t.modes.kittyKeyboardDepth - 1 }
    else if first = some 0x3d ∧ finalByte = 0x75 then
      settleKittyReset { t with modes.kittyFlags := (parseParams rest).head?.getD 0 }
    else if first = some 0x3e ∧ finalByte = 0x6d then
      if (parseParams rest).head? = some 4 then
        { t with modes.modifyOtherKeys := (parseParams rest)[1]?.getD 0 }
      else t
    else if first = some 0x3f ∧ (finalByte = 0x68 ∨ finalByte = 0x6c) then
      (parseParams rest).foldl (fun t mode => t.applyPrivateMode mode (finalByte == 0x68)) t
    else if finalByte = 0x72 then
      { t with modes.scrollRegionNonDefault := Portl.scrollRegionNonDefault t.csi }
    else t

def feedByte (t : TerminalModeTracker) (byte : UInt8) : TerminalModeTracker :=
  match t.parser with
  | .ground => if byte = esc then { t with parser := .escape } else t
  | .escape =>
    if byte = 0x5b then { t.resetCsi with parser := .csi }
    else if byte = 0x5d then { t with parser := .osc }
    else if byte = esc then { t with parser := .escape }
    else { t with parser := .ground }
  | .csi =>
    if byte = esc then { t.resetCsi with parser := .escape }
    else if isCsiFinal byte then { (t.handleCsi byte).resetCsi with parser := .ground }
    else if t.csi.length < csiBufferCapacity then { t with csi := t.csi ++ [byte] }
    else { t with csiOverflowed := true }
  | .osc =>
    if byte = 0x07 then { t with parser := .ground }
    else if byte = esc then { t with parser := .oscEscape }
    else t
  | .oscEscape =>
    if byte = 0x5c then { t with parser := .ground }
    else if byte = esc then { t with parser := .oscEscape }
    else { t with parser := .osc }

def feed (t : TerminalModeTracker) (bytes : Bytes) : TerminalModeTracker :=
  bytes.foldl feedByte t

def after (chunks : List Bytes) : TerminalModeTracker := chunks.foldl feed new

end TerminalModeTracker

/-! ## The cleanup plan -/

/-- `ESC [ params final`. -/
def csiSequence (params : Bytes) (finalByte : UInt8) : Bytes :=
  esc :: 0x5b :: (params ++ [finalByte])

def kittyPop : Bytes := csiSequence [0x3c] 0x75
def kittyFlagsClear : Bytes := csiSequence [0x3d, 0x30] 0x75
def modifyOtherKeysClear : Bytes := csiSequence [0x3e, 0x34, 0x3b, 0x30] 0x6d
def altScreen1049Leave : Bytes := csiSequence [0x3f, 0x31, 0x30, 0x34, 0x39] 0x6c
def altScreen47Leave : Bytes := csiSequence [0x3f, 0x34, 0x37] 0x6c
def bracketedPasteDisable : Bytes := csiSequence [0x3f, 0x32, 0x30, 0x30, 0x34] 0x6c
def decawmEnable : Bytes := csiSequence [0x3f, 0x37] 0x68
def scrollRegionReset : Bytes := csiSequence [] 0x72

def decimalDigits (value : ℕ) : Bytes := (Nat.toDigits 10 value).map fun c => c.toNat.toUInt8

/-- `extend_private_mode_reset`. -/
def privateModeReset (mode : ℕ) : Bytes := csiSequence (0x3f :: decimalDigits mode) 0x6c

/-- A part of `cleanup_plan`: when it does something, the bytes it adds, and what
it makes of the modes. -/
structure CleanupStage where
  dirty : TerminalModeState → Bool
  bytes : TerminalModeState → Bytes
  clear : TerminalModeState → TerminalModeState

def CleanupStage.run (stage : CleanupStage) (m : TerminalModeState) : Bytes × TerminalModeState :=
  if stage.dirty m then (stage.bytes m, stage.clear m) else ([], m)

def clearKittyDepth : CleanupStage where
  dirty _ := true
  bytes m := (List.replicate m.kittyKeyboardDepth kittyPop).flatten
  clear m := { m with kittyKeyboardDepth := 0 }

def clearKittyFlags : CleanupStage where
  dirty m := decide (m.kittyFlags ≠ 0)
  bytes _ := kittyFlagsClear
  clear m := { m with kittyFlags := 0 }

def clearModifyOtherKeys : CleanupStage where
  dirty m := decide (m.modifyOtherKeys ≠ 0)
  bytes _ := modifyOtherKeysClear
  clear m := { m with modifyOtherKeys := 0 }

def altScreenLeave : AltScreenMode → Bytes
  | .legacy47 => altScreen47Leave
  | .mode1049 => altScreen1049Leave

def clearAltScreen : CleanupStage where
  dirty m := m.altScreen.isSome
  bytes m := (m.altScreen.map altScreenLeave).getD []
  clear m := { m with altScreen := none }

def clearBracketedPaste : CleanupStage where
  dirty m := m.bracketedPaste
  bytes _ := bracketedPasteDisable
  clear m := { m with bracketedPaste := false }

def clearMouseMode (mode : ℕ) (index : Fin 4) : CleanupStage where
  dirty m := m.mouseModes[index]
  bytes _ := privateModeReset mode
  clear m := { m with mouseModes := m.mouseModes.set index false }

def restoreDecawm : CleanupStage where
  dirty m := !m.decawm
  bytes _ := decawmEnable
  clear m := { m with decawm := true }

def clearScrollRegion : CleanupStage where
  dirty m := m.scrollRegionNonDefault
  bytes _ := scrollRegionReset
  clear m := { m with scrollRegionNonDefault := false }

def cleanupStages : List CleanupStage :=
  [clearKittyDepth, clearKittyFlags, clearModifyOtherKeys, clearAltScreen, clearBracketedPaste,
    clearMouseMode 1000 0, clearMouseMode 1002 1, clearMouseMode 1003 2, clearMouseMode 1006 3,
    restoreDecawm, clearScrollRegion]

def runStages : List CleanupStage → TerminalModeState → Bytes × TerminalModeState
  | [], m => ([], m)
  | stage :: stages, m =>
    let r := stage.run m
    let rest := runStages stages r.2
    (r.1 ++ rest.1, rest.2)

def TerminalModeTracker.cleanupPlan (t : TerminalModeTracker) : Bytes × TerminalModeTracker :=
  let r := runStages cleanupStages t.modes
  (r.1, { t with modes := r.2, pendingAltScreenKittyReset := false })

/-! ## Reading a sequence -/

namespace TerminalModeTracker

variable {t : TerminalModeTracker}

def OutsideOsc (t : TerminalModeTracker) : Prop := t.parser ≠ .osc ∧ t.parser ≠ .oscEscape

instance : Decidable t.OutsideOsc := inferInstanceAs (Decidable (_ ∧ _))

theorem feed_append (t : TerminalModeTracker) (xs ys : Bytes) :
    t.feed (xs ++ ys) = (t.feed xs).feed ys :=
  foldl_append

theorem feed_singleton (t : TerminalModeTracker) (byte : UInt8) : t.feed [byte] = t.feedByte byte :=
  rfl

def IsParam (byte : UInt8) : Prop := byte ≠ esc ∧ byte ≠ 0x07 ∧ isCsiFinal byte = false

instance (byte : UInt8) : Decidable (IsParam byte) := inferInstanceAs (Decidable (_ ∧ _))

theorem feed_introducer (h : t.OutsideOsc) :
    t.feed [esc, 0x5b] = { t.resetCsi with parser := .csi } := by
  obtain ⟨modes, parser, csi, overflowed, reset⟩ := t
  cases parser with
  | ground | escape | csi => rfl
  | osc => exact absurd rfl h.1
  | oscEscape => exact absurd rfl h.2

variable {params : Bytes}

theorem feed_params (ht : t.parser = .csi) (hcsi : t.csi = []) (hover : t.csiOverflowed = false)
    (hparams : ∀ byte ∈ params, IsParam byte) :
    t.feed params =
      { t with
        csi := params.take csiBufferCapacity
        csiOverflowed := decide (csiBufferCapacity < params.length) } := by
  induction params using List.reverseRecOn with
  | nil =>
    obtain ⟨modes, parser, csi, overflowed, pending⟩ := t
    subst hcsi hover
    rfl
  | append_singleton params byte ih =>
    have hbyte := hparams byte (mem_append_right _ mem_cons_self)
    rw [feed_append, ih fun b hb => hparams b (mem_append_left _ hb), feed_singleton]
    unfold feedByte
    simp only [ht, if_neg hbyte.1, hbyte.2.2, Bool.false_eq_true, if_false, length_take,
      length_append, length_singleton]
    by_cases hroom : params.length < csiBufferCapacity
    · rw [if_pos (by omega), take_of_length_le (by omega),
        take_of_length_le (by simp only [length_append, length_singleton]; omega),
        decide_eq_false (by omega), decide_eq_false (by omega)]
    · rw [if_neg (by omega), take_append_of_le_length (by omega), decide_eq_true (by omega)]

variable {finalByte : UInt8}

/-- **A whole sequence**, read from anywhere outside OSC strings: what
`handle_csi` makes of its parameters. -/
theorem feed_csiSequence (h : t.OutsideOsc) (hparams : ∀ byte ∈ params, IsParam byte)
    (hfinal : isCsiFinal finalByte = true) (hesc : finalByte ≠ esc) :
    t.feed (csiSequence params finalByte) =
      { (handleCsi ⟨t.modes, .csi, params.take csiBufferCapacity,
          decide (csiBufferCapacity < params.length), t.pendingAltScreenKittyReset⟩
          finalByte).resetCsi with parser := .ground } := by
  have hsplit : csiSequence params finalByte = [esc, 0x5b] ++ (params ++ [finalByte]) := rfl
  rw [hsplit, feed_append, feed_introducer h, feed_append, feed_params rfl rfl rfl hparams,
    feed_singleton]
  unfold feedByte
  simp only [if_neg hesc, hfinal, if_true, resetCsi]

theorem feed_csiSequence_osc (h : ¬ t.OutsideOsc) (hparams : ∀ byte ∈ params, IsParam byte)
    (hesc : finalByte ≠ esc) (hbell : finalByte ≠ 0x07) :
    ¬ (t.feed (csiSequence params finalByte)).OutsideOsc ∧
      (t.feed (csiSequence params finalByte)).modes = t.modes := by
  have hplain : ∀ (bytes : Bytes) (u : TerminalModeTracker), u.parser = .osc →
      (∀ byte ∈ bytes, byte ≠ esc ∧ byte ≠ 0x07) → u.feed bytes = u := by
    intro bytes
    induction bytes with
    | nil => exact fun u _ _ => rfl
    | cons byte bytes ih =>
      intro u hu hbytes
      obtain ⟨hne, hnobell⟩ := hbytes byte mem_cons_self
      have hstep : u.feedByte byte = u := by
        unfold feedByte
        simp [hu, if_neg hnobell, if_neg hne]
      show (u.feedByte byte).feed bytes = u
      rw [hstep]
      exact ih u hu fun b hb => hbytes b (mem_cons_of_mem _ hb)
  have hopen : t.feed [esc, 0x5b] = { t with parser := .osc } := by
    obtain ⟨modes, parser, csi, overflowed, reset⟩ := t
    cases parser with
    | ground | escape | csi => exact absurd ⟨nofun, nofun⟩ h
    | osc => rfl
    | oscEscape => rfl
  have hsplit : csiSequence params finalByte = [esc, 0x5b] ++ (params ++ [finalByte]) := rfl
  rw [hsplit, feed_append, hopen, hplain _ _ rfl]
  · exact ⟨fun hout => hout.1 rfl, rfl⟩
  · intro byte hbyte
    rcases mem_append.mp hbyte with hparam | hlast
    · exact ⟨(hparams byte hparam).1, (hparams byte hparam).2.1⟩
    · rw [mem_singleton.mp hlast]
      exact ⟨hesc, hbell⟩

end TerminalModeTracker

/-! ## Reading the plan -/

open TerminalModeTracker

/-- What the bytes of a part of the plan do when a tracker reads them: outside OSC
strings they make the modes what the plan says, inside one they change none. -/
structure PlanSound (plan : TerminalModeState → Bytes × TerminalModeState) : Prop where
  outside (t : TerminalModeTracker) : t.OutsideOsc →
    (t.feed (plan t.modes).1).OutsideOsc ∧ (t.feed (plan t.modes).1).modes = (plan t.modes).2
  inside (m : TerminalModeState) (t : TerminalModeTracker) : ¬ t.OutsideOsc →
    ¬ (t.feed (plan m).1).OutsideOsc ∧ (t.feed (plan m).1).modes = t.modes

/-- A sequence that a tracker reads as `f` on its modes. -/
structure ReadsAs (params : Bytes) (finalByte : UInt8)
    (f : TerminalModeState → TerminalModeState) : Prop where
  isParam : ∀ byte ∈ params, IsParam byte
  length_le : params.length ≤ csiBufferCapacity
  isFinal : isCsiFinal finalByte = true
  ne_esc : finalByte ≠ esc
  ne_bell : finalByte ≠ 0x07
  handles (m : TerminalModeState) (reset : Bool) :
    (handleCsi ⟨m, .csi, params, false, reset⟩ finalByte).modes = f m

/-- The bytes are read as `f` on the modes outside OSC strings, and as nothing inside. -/
def Acts (bytes : Bytes) (f : TerminalModeState → TerminalModeState) : Prop :=
  ∀ t : TerminalModeTracker, ((t.feed bytes).OutsideOsc ↔ t.OutsideOsc) ∧
    (t.feed bytes).modes = if t.OutsideOsc then f t.modes else t.modes

variable {f : TerminalModeState → TerminalModeState} {bytes : Bytes}

theorem Acts.nil : Acts [] id := fun _ => ⟨Iff.rfl, (ite_self _).symm⟩

theorem Acts.replicate (h : Acts bytes f) (n : ℕ) :
    Acts (List.replicate n bytes).flatten f^[n] := by
  induction n with
  | zero => exact .nil
  | succ n ih =>
    intro t
    obtain ⟨hout, hmodes⟩ := h t
    obtain ⟨hout', hmodes'⟩ := ih (t.feed bytes)
    rw [replicate_succ, flatten_cons, feed_append, Function.iterate_succ_apply]
    refine ⟨hout'.trans hout, ?_⟩
    rw [hmodes', hmodes]
    simp only [hout]
    split_ifs <;> rfl

theorem ReadsAs.acts {params : Bytes} {finalByte : UInt8} (h : ReadsAs params finalByte f) :
    Acts (csiSequence params finalByte) f := by
  intro t
  by_cases ht : t.OutsideOsc
  · rw [feed_csiSequence ht h.isParam h.isFinal h.ne_esc, take_of_length_le h.length_le,
      decide_eq_false (Nat.not_lt.mpr h.length_le)]
    exact ⟨iff_of_true ⟨nofun, nofun⟩ ht, (h.handles _ _).trans (if_pos ht).symm⟩
  · obtain ⟨hin, hmodes⟩ := feed_csiSequence_osc ht h.isParam h.ne_esc h.ne_bell
    exact ⟨iff_of_false hin ht, hmodes.trans (if_neg ht).symm⟩

/-! ### The stages -/

theorem settleKittyReset_modes (t : TerminalModeTracker) : t.settleKittyReset.modes = t.modes := by
  unfold settleKittyReset
  split <;> rfl

theorem setAltScreen_off_modes (t : TerminalModeTracker) (mode : AltScreenMode) :
    (t.setAltScreen mode false).modes = { t.modes with altScreen := none } := by
  obtain ⟨⟨depth, flags, alt, paste, mouse, keys, wrap, region⟩, parser, csi, overflowed, reset⟩ := t
  cases alt with
  | none => rfl
  | some m => simp [setAltScreen]

theorem kittyPop_readsAs :
    ReadsAs [0x3c] 0x75 fun m => { m with kittyKeyboardDepth := m.kittyKeyboardDepth - 1 } := by
  refine ⟨by simp [IsParam, isCsiFinal, esc], by decide, rfl, by decide, by decide, fun m reset => ?_⟩
  exact settleKittyReset_modes _

theorem kittyFlagsClear_readsAs :
    ReadsAs [0x3d, 0x30] 0x75 fun m => { m with kittyFlags := 0 } := by
  refine ⟨by simp [IsParam, isCsiFinal, esc], by decide, rfl, by decide, by decide, fun m reset => ?_⟩
  exact settleKittyReset_modes _

theorem modifyOtherKeysClear_readsAs :
    ReadsAs [0x3e, 0x34, 0x3b, 0x30] 0x6d fun m => { m with modifyOtherKeys := 0 } :=
  ⟨by simp [IsParam, isCsiFinal, esc], by decide, rfl, by decide, by decide, fun _ _ => rfl⟩

theorem altScreen47Leave_readsAs :
    ReadsAs [0x3f, 0x34, 0x37] 0x6c fun m => { m with altScreen := none } :=
  ⟨by simp [IsParam, isCsiFinal, esc], by decide, rfl, by decide, by decide,
    fun _ _ => setAltScreen_off_modes _ .legacy47⟩

theorem altScreen1049Leave_readsAs :
    ReadsAs [0x3f, 0x31, 0x30, 0x34, 0x39] 0x6c fun m => { m with altScreen := none } :=
  ⟨by simp [IsParam, isCsiFinal, esc], by decide, rfl, by decide, by decide,
    fun _ _ => setAltScreen_off_modes _ .mode1049⟩

theorem bracketedPasteDisable_readsAs :
    ReadsAs [0x3f, 0x32, 0x30, 0x30, 0x34] 0x6c fun m => { m with bracketedPaste := false } :=
  ⟨by simp [IsParam, isCsiFinal, esc], by decide, rfl, by decide, by decide, fun _ _ => rfl⟩

theorem decawmEnable_readsAs :
    ReadsAs [0x3f, 0x37] 0x68 fun m => { m with decawm := true } :=
  ⟨by simp [IsParam, isCsiFinal, esc], by decide, rfl, by decide, by decide, fun _ _ => rfl⟩

theorem scrollRegionReset_readsAs :
    ReadsAs [] 0x72 fun m => { m with scrollRegionNonDefault := false } :=
  ⟨by simp [IsParam, isCsiFinal, esc], by decide, rfl, by decide, by decide, fun _ _ => rfl⟩

/-- The mouse modes as `MOUSE_MODES` and `mouse_mode_index` give them. -/
def mouseModePairs : List (ℕ × Fin 4) := [(1000, 0), (1002, 1), (1003, 2), (1006, 3)]

theorem mouseModeReset_readsAs {mode : ℕ} {index : Fin 4} (h : (mode, index) ∈ mouseModePairs) :
    ReadsAs (0x3f :: decimalDigits mode) 0x6c fun m =>
      { m with mouseModes := m.mouseModes.set index false } := by
  have hparse : ∀ pair ∈ mouseModePairs, parseParams (decimalDigits pair.1) = [pair.1] := by
    decide +kernel
  have hindex : ∀ pair ∈ mouseModePairs, mouseModeIndex pair.1 = some pair.2 := by decide
  have hparams : ∀ pair ∈ mouseModePairs,
      (∀ byte ∈ 0x3f :: decimalDigits pair.1, IsParam byte) ∧
        (0x3f :: decimalDigits pair.1).length ≤ csiBufferCapacity := by decide +kernel
  have hmode : ∀ pair ∈ mouseModePairs, pair.1 ≠ 47 ∧ pair.1 ≠ 1049 ∧ pair.1 ≠ 2004 ∧
      pair.1 ≠ 7 ∧ pair.1 ∈ mouseModeList := by decide
  obtain ⟨hisParam, hlen⟩ := hparams _ h
  obtain ⟨h47, h1049, h2004, h7, hmem⟩ := hmode _ h
  refine ⟨hisParam, hlen, rfl, by decide, by decide, fun m reset => ?_⟩
  have hrest : ∀ t : TerminalModeTracker,
      (t.applyPrivateMode mode false).modes =
        { t.modes with mouseModes := t.modes.mouseModes.set index false } := by
    intro t
    unfold applyPrivateMode setMouseMode
    rw [if_neg h47, if_neg h1049, if_neg h2004, if_neg h7, if_pos hmem, hindex _ h]
  show ((parseParams (decimalDigits mode)).foldl (fun t mode => t.applyPrivateMode mode false)
    (⟨m, .csi, 0x3f :: decimalDigits mode, false, reset⟩ : TerminalModeTracker)).modes = _
  rw [hparse _ h]
  exact hrest _

/-! ### The whole plan -/

theorem CleanupStage.run_sound {stage : CleanupStage}
    (h : ∀ m, stage.dirty m = true → ∃ f, Acts (stage.bytes m) f ∧ f m = stage.clear m) :
    PlanSound stage.run := by
  have hrun : ∀ m, ∃ f, Acts (stage.run m).1 f ∧ f m = (stage.run m).2 := by
    intro m
    unfold run
    split_ifs with hdirty
    · exact h m hdirty
    · exact ⟨id, .nil, rfl⟩
  constructor
  · intro t ht
    obtain ⟨f, hacts, hclear⟩ := hrun t.modes
    exact ⟨(hacts t).1.mpr ht, (hacts t).2.trans ((if_pos ht).trans hclear)⟩
  · intro m t ht
    obtain ⟨f, hacts, -⟩ := hrun m
    exact ⟨(hacts t).1.not.mpr ht, (hacts t).2.trans (if_neg ht)⟩

theorem ReadsAs.run_sound {params : Bytes} {finalByte : UInt8} (h : ReadsAs params finalByte f)
    (dirty : TerminalModeState → Bool) :
    PlanSound (CleanupStage.run ⟨dirty, fun _ => csiSequence params finalByte, f⟩) :=
  CleanupStage.run_sound fun _ _ => ⟨f, h.acts, rfl⟩

theorem clearKittyDepth_sound : PlanSound clearKittyDepth.run := by
  -- popping as often as the stack is deep empties it
  have hiter : ∀ (n : ℕ) (m : TerminalModeState),
      (fun m : TerminalModeState =>
        { m with kittyKeyboardDepth := m.kittyKeyboardDepth - 1 })^[n] m =
        { m with kittyKeyboardDepth := m.kittyKeyboardDepth - n } := by
    intro n
    induction n with
    | zero => exact fun m => rfl
    | succ n ih =>
      intro m
      rw [Function.iterate_succ_apply, ih, Nat.sub_sub, Nat.add_comm 1 n]
  refine CleanupStage.run_sound fun m _ => ⟨_, kittyPop_readsAs.acts.replicate _, ?_⟩
  rw [hiter, Nat.sub_self]
  rfl

theorem clearAltScreen_sound : PlanSound clearAltScreen.run := by
  refine CleanupStage.run_sound fun m hdirty => ⟨fun m => { m with altScreen := none }, ?_, rfl⟩
  obtain ⟨mode, halt⟩ := Option.isSome_iff_exists.mp (show m.altScreen.isSome = true from hdirty)
  show Acts ((m.altScreen.map altScreenLeave).getD []) _
  rw [halt]
  cases mode with
  | legacy47 => exact altScreen47Leave_readsAs.acts
  | mode1049 => exact altScreen1049Leave_readsAs.acts

theorem cleanupStages_sound : ∀ stage ∈ cleanupStages, PlanSound stage.run := by
  have hmouse : ∀ pair ∈ mouseModePairs, PlanSound (clearMouseMode pair.1 pair.2).run :=
    fun pair hpair => (mouseModeReset_readsAs hpair).run_sound _
  intro stage hstage
  simp only [cleanupStages, mem_cons, not_mem_nil, or_false] at hstage
  rcases hstage with rfl | rfl | rfl | rfl | rfl | rfl | rfl | rfl | rfl | rfl | rfl
  · exact clearKittyDepth_sound
  · exact kittyFlagsClear_readsAs.run_sound _
  · exact modifyOtherKeysClear_readsAs.run_sound _
  · exact clearAltScreen_sound
  · exact bracketedPasteDisable_readsAs.run_sound _
  · exact hmouse (1000, 0) (by decide)
  · exact hmouse (1002, 1) (by decide)
  · exact hmouse (1003, 2) (by decide)
  · exact hmouse (1006, 3) (by decide)
  · exact decawmEnable_readsAs.run_sound _
  · exact scrollRegionReset_readsAs.run_sound _

variable {stages : List CleanupStage}

theorem runStages_sound (h : ∀ stage ∈ stages, PlanSound stage.run) :
    PlanSound (runStages stages) := by
  induction stages with
  | nil => exact ⟨fun t ht => ⟨ht, rfl⟩, fun m t ht => ⟨ht, rfl⟩⟩
  | cons stage stages ih =>
    have hstage := h stage mem_cons_self
    have hstages := ih fun s hs => h s (mem_cons_of_mem _ hs)
    constructor
    · intro t ht
      obtain ⟨hout, hmodes⟩ := hstage.outside t ht
      simp only [runStages, feed_append, ← hmodes]
      exact hstages.outside _ hout
    · intro m t ht
      obtain ⟨hin, hmodes⟩ := hstage.inside m t ht
      simp only [runStages, feed_append, ← hmodes]
      exact hstages.inside _ _ hin

/-! ### The modes after it -/

theorem cleanupStages_idle : ∀ stage ∈ cleanupStages, ∀ m : TerminalModeState,
    stage.dirty m = false → stage.clear m = m := by
  intro stage hstage m hidle
  have hmouse : ∀ (mode : ℕ) (index : Fin 4), (clearMouseMode mode index).dirty m = false →
      (clearMouseMode mode index).clear m = m := by
    intro mode index hoff
    have hsame : m.mouseModes.set index false = m.mouseModes := by
      rw [← show m.mouseModes[index] = false from hoff]
      exact Vector.set_getElem_self _
    show { m with mouseModes := m.mouseModes.set index false } = m
    rw [hsame]
  obtain ⟨depth, flags, alt, paste, mouse, keys, wrap, region⟩ := m
  simp only [cleanupStages, mem_cons, not_mem_nil, or_false] at hstage
  rcases hstage with rfl | rfl | rfl | rfl | rfl | rfl | rfl | rfl | rfl | rfl | rfl
  · exact absurd hidle nofun
  · simp_all [clearKittyFlags]
  · simp_all [clearModifyOtherKeys]
  · simp_all [clearAltScreen]
  · simp_all [clearBracketedPaste]
  · exact hmouse _ _ hidle
  · exact hmouse _ _ hidle
  · exact hmouse _ _ hidle
  · exact hmouse _ _ hidle
  · simp_all [restoreDecawm]
  · simp_all [clearScrollRegion]

theorem runStages_snd (h : ∀ stage ∈ stages, ∀ m, stage.dirty m = false → stage.clear m = m)
    (m : TerminalModeState) :
    (runStages stages m).2 = stages.foldl (fun m stage => stage.clear m) m := by
  induction stages generalizing m with
  | nil => rfl
  | cons stage stages ih =>
    have hrun : (stage.run m).2 = stage.clear m := by
      unfold CleanupStage.run
      cases hdirty : stage.dirty m with
      | true => rfl
      | false => exact (h stage mem_cons_self m hdirty).symm
    show (runStages stages (stage.run m).2).2 = stages.foldl _ (stage.clear m)
    rw [hrun]
    exact ih (fun s hs => h s (mem_cons_of_mem _ hs)) _

theorem mouseModes_cleared (modes : Vector Bool 4) :
    (((modes.set 0 false).set 1 false).set 2 false).set 3 false = Vector.replicate 4 false := by
  ext i hi
  rcases (by omega : i = 0 ∨ i = 1 ∨ i = 2 ∨ i = 3) with rfl | rfl | rfl | rfl <;> simp

theorem runStages_cleanupStages_snd (m : TerminalModeState) :
    (runStages cleanupStages m).2 = .default := by
  rw [runStages_snd cleanupStages_idle]
  exact congrArg (fun v => TerminalModeState.mk 0 0 none false v 0 true false)
    (mouseModes_cleared m.mouseModes)

theorem runStages_cleanupStages_default : (runStages cleanupStages .default).1 = [] := by
  have hstage : ∀ stage ∈ cleanupStages, stage.run .default = ([], .default) := by
    intro stage hstage
    simp only [cleanupStages, mem_cons, not_mem_nil, or_false] at hstage
    rcases hstage with rfl | rfl | rfl | rfl | rfl | rfl | rfl | rfl | rfl | rfl | rfl <;> rfl
  have hrun : ∀ stages : List CleanupStage,
      (∀ stage ∈ stages, stage.run .default = ([], .default)) →
      (runStages stages .default).1 = [] := by
    intro stages
    induction stages with
    | nil => exact fun _ => rfl
    | cons stage stages ih =>
      intro h
      simp only [runStages, h stage mem_cons_self, nil_append]
      exact ih fun s hs => h s (mem_cons_of_mem _ hs)
  exact hrun _ hstage

namespace TerminalModeTracker

theorem cleanupPlan_fst (t : TerminalModeTracker) :
    t.cleanupPlan.1 = (runStages cleanupStages t.modes).1 := rfl

theorem cleanupPlan_modes (t : TerminalModeTracker) :
    t.cleanupPlan.2.modes = (runStages cleanupStages t.modes).2 := by
  unfold cleanupPlan
  generalize runStages cleanupStages t.modes = r
  rfl

theorem cleanupPlan_cleanupPlan (t : TerminalModeTracker) : t.cleanupPlan.2.cleanupPlan.1 = [] := by
  rw [cleanupPlan_fst, cleanupPlan_modes, runStages_cleanupStages_snd]
  exact runStages_cleanupStages_default

/-- **Cleanup restores the terminal exactly where the stream did not stop inside
an OSC string**, or left nothing to restore. -/
theorem cleanupPlan_restores_iff (chunks : List Bytes) :
    (((after chunks).feed (after chunks).cleanupPlan.1).modes = .default ∧
        (after chunks).cleanupPlan.2.cleanupPlan.1 = []) ↔
      (after chunks).OutsideOsc ∨ (after chunks).modes = .default := by
  have hsound := runStages_sound cleanupStages_sound
  rw [and_iff_left (cleanupPlan_cleanupPlan _), cleanupPlan_fst]
  by_cases hout : (after chunks).OutsideOsc
  · have hrestored := (hsound.outside _ hout).2
    rw [hrestored, runStages_cleanupStages_snd]
    exact iff_of_true rfl (.inl hout)
  · rw [(hsound.inside _ _ hout).2]
    exact (or_iff_right hout).symm

def brokenTitle : TerminalModeTracker :=
  after [csiSequence [0x3f, 0x32, 0x30, 0x30, 0x34] 0x68, [esc, 0x5d, 0x30, 0x3b, 0x74]]

theorem cleanupPlan_swallowed :
    brokenTitle.modes.bracketedPaste = true ∧
      (brokenTitle.feed brokenTitle.cleanupPlan.1).modes = brokenTitle.modes ∧
      (brokenTitle.feed brokenTitle.cleanupPlan.1).modes ≠ .default := by
  have hon : brokenTitle.modes.bracketedPaste = true := rfl
  have hosc : ¬ brokenTitle.OutsideOsc := fun h => h.1 rfl
  have hkept : (brokenTitle.feed brokenTitle.cleanupPlan.1).modes = brokenTitle.modes := by
    rw [cleanupPlan_fst]
    exact ((runStages_sound cleanupStages_sound).inside _ _ hosc).2
  refine ⟨hon, hkept, ?_⟩
  rw [hkept]
  intro hdefault
  rw [hdefault] at hon
  exact absurd hon Bool.false_ne_true

end TerminalModeTracker

end Portl
