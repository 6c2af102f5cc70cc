import Mathlib.Algebra.Order.Ring.Nat
import Portl.Lib.Run
import Portl.Terminal.ModeTracker

/-!
# The mode tracker over runs of CSI sequences

What one complete CSI sequence does to the depth of the keyboard stack and to the
mark of the scroll region, and from it what a run of sequences does. The keyboard
stack is compared with a terminal that keeps one; the mark with the last sequence
that set a region.
-/

namespace Portl

open List

/-! ## Parameters -/

/-- A byte that `parse_params` understands. -/
def isNumeric (byte : UInt8) : Bool := isAsciiDigit byte || byte == 0x3b || byte == 0x3a

def isFieldEnd (byte : UInt8) : Bool := byte == 0x3b || byte == 0x3a

def digitsValue (digits : Bytes) : ℕ :=
  digits.foldl (fun n byte => n * 10 + (byte.toNat - 48)) 0

def csiFields (params : Bytes) : List Bytes := params.splitOnP isFieldEnd

/-- The accumulator of `parse_params` over one row of digits. -/
def saturatedFrom (current : ℕ) (digits : Bytes) : ℕ :=
  digits.foldl (fun n byte => min (n * 10 + (byte.toNat - 48)) 65535) current

theorem saturatedFrom_zero (digits : Bytes) :
    saturatedFrom 0 digits = min (digitsValue digits) 65535 := by
  unfold saturatedFrom digitsValue
  induction digits using List.reverseRecOn with
  | nil => rfl
  | append_singleton digits byte ih =>
    rw [foldl_append, foldl_append, ih]
    simp only [foldl_cons, foldl_nil]
    omega

theorem finishedNumber_eq {hasDigit : Bool} {current : ℕ} (h : hasDigit = false → current = 0) :
    (if hasDigit = true then current else 0) = current := by
  cases hasDigit with
  | true => rfl
  | false => exact (h rfl).symm

variable {rest params : Bytes} {byte : UInt8}

theorem parseParamsFrom_numeric (hrest : ∀ byte ∈ rest, isNumeric byte = true) (parsed : List ℕ)
    (current : ℕ) (hasDigit : Bool) (hstart : hasDigit = false → current = 0) :
    ∃ field fields, csiFields rest = field :: fields ∧
      parseParamsFrom parsed current hasDigit rest =
        some (parsed ++ saturatedFrom current field :: fields.map (saturatedFrom 0)) := by
  induction rest generalizing parsed current hasDigit with
  | nil =>
    refine ⟨[], [], rfl, ?_⟩
    rw [parseParamsFrom, finishedNumber_eq hstart]
    rfl
  | cons byte rest ih =>
    have htail : ∀ b ∈ rest, isNumeric b = true := fun b hb => hrest b (mem_cons_of_mem _ hb)
    have hhead := hrest byte mem_cons_self
    unfold csiFields at ih ⊢
    rw [splitOnP_cons_eq_if_modifyHead]
    by_cases hdigit : isAsciiDigit byte = true
    · have hnot : isFieldEnd byte = false := by
        unfold isAsciiDigit at hdigit
        unfold isFieldEnd
        grind
      obtain ⟨field, fields, hsplit, hparse⟩ := ih htail parsed
        (min (current * 10 + (byte.toNat - 48)) 65535) true nofun
      refine ⟨byte :: field, fields, ?_, ?_⟩
      · rw [if_neg (by rw [hnot]; exact Bool.false_ne_true), hsplit]
        rfl
      · rw [parseParamsFrom, if_pos hdigit, hparse]
        rfl
    · have hend : isFieldEnd byte = true := by
        unfold isNumeric at hhead
        unfold isFieldEnd
        grind
      obtain ⟨field, fields, hsplit, hparse⟩ := ih htail
        (parsed ++ [if hasDigit = true then current else 0]) 0 false fun _ => rfl
      refine ⟨[], field :: fields, ?_, ?_⟩
      · rw [if_pos hend, hsplit]
      · rw [parseParamsFrom, if_neg hdigit, if_pos (by unfold isFieldEnd at hend; grind), hparse,
          finishedNumber_eq hstart]
        simp [saturatedFrom]

/-- **What `parse_params` reads**: the numbers between the separators, cut off at
sixteen bits. -/
theorem parseParams_numeric (hne : params ≠ []) (h : ∀ byte ∈ params, isNumeric byte = true) :
    parseParams params = (csiFields params).map fun f => min (digitsValue f) 65535 := by
  obtain ⟨field, fields, hsplit, hparse⟩ := parseParamsFrom_numeric h [] 0 false fun _ => rfl
  unfold parseParams
  rw [if_neg hne, hparse, hsplit]
  simp [saturatedFrom_zero]

theorem parseParamsFrom_eq_none (hmem : byte ∈ rest) (hbyte : isNumeric byte = false)
    (parsed : List ℕ) (current : ℕ) (hasDigit : Bool) :
    parseParamsFrom parsed current hasDigit rest = none := by
  induction rest generalizing parsed current hasDigit with
  | nil => cases hmem
  | cons b rest ih =>
    unfold parseParamsFrom
    rcases mem_cons.mp hmem with rfl | htail
    · unfold isNumeric at hbyte
      rw [if_neg (by grind), if_neg (by grind)]
    · split
      · exact ih htail _ _ _
      · split
        · exact ih htail _ _ _
        · rfl

theorem parseParams_eq_nil (hmem : byte ∈ params) (hbyte : isNumeric byte = false) :
    parseParams params = [] := by
  unfold parseParams
  split
  · rfl
  · rw [parseParamsFrom_eq_none hmem hbyte]
    rfl

/-! ## One sequence -/

/-- A complete CSI sequence: bytes `0x20` to `0x3f`, which are parameters, private
markers and intermediates, and a final byte. -/
structure CsiCommand where
  params : Bytes
  finalByte : UInt8
  isParam : ∀ byte ∈ params, 0x20 ≤ byte ∧ byte ≤ 0x3f
  isFinal : 0x40 ≤ finalByte ∧ finalByte ≤ 0x7e

namespace CsiCommand

def bytes (c : CsiCommand) : Bytes := csiSequence c.params c.finalByte

def Fits (c : CsiCommand) : Prop := c.params.length ≤ csiBufferCapacity

instance (c : CsiCommand) : Decidable c.Fits := inferInstanceAs (Decidable (_ ≤ _))

theorem isParam' (c : CsiCommand) : ∀ byte ∈ c.params, TerminalModeTracker.IsParam byte := by
  intro byte hbyte
  obtain ⟨hlow, hhigh⟩ := c.isParam byte hbyte
  unfold TerminalModeTracker.IsParam esc isCsiFinal
  refine ⟨?_, ?_, ?_⟩
  · rintro rfl
    exact absurd hlow (by decide)
  · rintro rfl
    exact absurd hlow (by decide)
  · have hnot : ¬ 0x40 ≤ byte := fun h => absurd (UInt8.le_trans h hhigh) (by decide)
    simp [hnot]

end CsiCommand

namespace TerminalModeTracker

variable {t : TerminalModeTracker}

def afterCsi (t : TerminalModeTracker) (c : CsiCommand) : TerminalModeTracker :=
  handleCsi ⟨t.modes, .csi, c.params.take csiBufferCapacity,
    decide (csiBufferCapacity < c.params.length), t.pendingAltScreenKittyReset⟩ c.finalByte

theorem feed_command (h : t.OutsideOsc) (c : CsiCommand) :
    t.feed c.bytes = { (t.afterCsi c).resetCsi with parser := .ground } := by
  refine feed_csiSequence h c.isParam' ?_ fun heq => ?_
  · unfold isCsiFinal
    simp [c.isFinal]
  · exact absurd (heq ▸ c.isFinal.1) (by decide)

theorem feed_command_modes (h : t.OutsideOsc) (c : CsiCommand) :
    (t.feed c.bytes).modes = (t.afterCsi c).modes := by
  rw [feed_command h]
  rfl

theorem feed_command_outside (h : t.OutsideOsc) (c : CsiCommand) : (t.feed c.bytes).OutsideOsc := by
  rw [feed_command h]
  exact ⟨nofun, nofun⟩

theorem applyPrivateMode_keeps (t : TerminalModeTracker) (mode : ℕ) (enable : Bool) :
    (t.applyPrivateMode mode enable).modes.kittyKeyboardDepth = t.modes.kittyKeyboardDepth ∧
      (t.applyPrivateMode mode enable).modes.scrollRegionNonDefault =
        t.modes.scrollRegionNonDefault := by
  unfold applyPrivateMode setAltScreen setMouseMode
  split_ifs <;> first | exact ⟨rfl, rfl⟩ | (split <;> exact ⟨rfl, rfl⟩)

theorem foldl_applyPrivateMode_keeps (t : TerminalModeTracker) (params : List ℕ) (enable : Bool) :
    (params.foldl (fun t mode => t.applyPrivateMode mode enable) t).modes.kittyKeyboardDepth =
        t.modes.kittyKeyboardDepth ∧
      (params.foldl (fun t mode => t.applyPrivateMode mode enable) t).modes.scrollRegionNonDefault =
        t.modes.scrollRegionNonDefault := by
  induction params generalizing t with
  | nil => exact ⟨rfl, rfl⟩
  | cons mode params ih =>
    obtain ⟨hdepth, hscroll⟩ := applyPrivateMode_keeps t mode enable
    obtain ⟨hdepths, hscrolls⟩ := ih (t.applyPrivateMode mode enable)
    exact ⟨hdepths.trans hdepth, hscrolls.trans hscroll⟩

/-- **The keyboard stack under `handle_csi`**: a push, a pop, or nothing. -/
theorem handleCsi_depth (t : TerminalModeTracker) (finalByte : UInt8) (h : t.csiOverflowed = false) :
    (t.handleCsi finalByte).modes.kittyKeyboardDepth =
      if t.csi.head? = some 0x3e ∧ finalByte = 0x75 ∧ 1 < t.csi.length ∧
          0 < (parseParams (t.csi.drop 1)).head?.getD 0 then
        min (t.modes.kittyKeyboardDepth + 1) maxKittyDepth
      else if t.csi.head? = some 0x3c ∧ finalByte = 0x75 then t.modes.kittyKeyboardDepth - 1
      else t.modes.kittyKeyboardDepth := by
  unfold handleCsi
  rw [if_neg (by rw [h]; exact Bool.false_ne_true)]
  dsimp only
  split_ifs
  · rfl
  · rw [settleKittyReset_modes]
  · rw [settleKittyReset_modes]
  · rfl
  · rfl
  · exact (foldl_applyPrivateMode_keeps t _ _).1
  · rfl
  · rfl

/-- **The mark of the scroll region under `handle_csi`**: every sequence that ends in
`r` sets it anew, whatever comes before the `r`. -/
theorem handleCsi_scroll (t : TerminalModeTracker) (finalByte : UInt8)
    (h : t.csiOverflowed = false) :
    (t.handleCsi finalByte).modes.scrollRegionNonDefault =
      if finalByte = 0x72 then Portl.scrollRegionNonDefault t.csi
      else t.modes.scrollRegionNonDefault := by
  unfold handleCsi
  rw [if_neg (by rw [h]; exact Bool.false_ne_true)]
  dsimp only
  by_cases hr : finalByte = 0x72
  · subst hr
    simp
  · rw [if_neg hr, if_neg hr]
    split_ifs
    · rfl
    · rw [settleKittyReset_modes]
    · rw [settleKittyReset_modes]
    · rfl
    · rfl
    · exact (foldl_applyPrivateMode_keeps t _ _).2
    · rfl

end TerminalModeTracker

/-! ## The keyboard stack -/

/-- What a sequence says to a terminal that keeps a keyboard stack: `CSI > flags u`
pushes and `CSI < count u` pops, with one number at most. -/
inductive KeyboardOp where
  | push (flags : ℕ)
  | pop (count : ℕ)
  | other
deriving DecidableEq

namespace CsiCommand

/-- The sequence as the protocol reads it; flags are `0` and the count is `1` where
the number is left out. -/
def keyboardOp (c : CsiCommand) : KeyboardOp :=
  if c.finalByte = 0x75 ∧ c.params.tail.all isAsciiDigit = true then
    if c.params.head? = some 0x3e then .push (digitsValue c.params.tail)
    else if c.params.head? = some 0x3c then
      .pop (if c.params.tail = [] then 1 else digitsValue c.params.tail)
    else .other
  else .other

def keyboardStep (stack : List ℕ) (c : CsiCommand) : List ℕ :=
  match c.keyboardOp with
  | .push flags => (flags :: stack).take maxKittyDepth
  | .pop count => stack.drop count
  | .other => stack

/-- What the tracker takes for a push: a marker and numbers, the first not zero. -/
def TakenForPush (c : CsiCommand) : Prop :=
  c.params.head? = some 0x3e ∧ c.finalByte = 0x75 ∧ c.params.tail.all isNumeric = true ∧
    0 < digitsValue ((csiFields c.params.tail).headD [])

def TakenForPop (c : CsiCommand) : Prop := c.params.head? = some 0x3c ∧ c.finalByte = 0x75

instance (c : CsiCommand) : Decidable c.TakenForPush := inferInstanceAs (Decidable (_ ∧ _))

instance (c : CsiCommand) : Decidable c.TakenForPop := inferInstanceAs (Decidable (_ ∧ _))

/-- Where the tracker follows the terminal, by what the sequence says: a push has
flags and fits the buffer, or meets a full stack; a pop takes the one entry the
tracker takes; and what is neither is not taken for one. -/
def FollowedOp (stack : List ℕ) (c : CsiCommand) : KeyboardOp → Prop
  | .push flags => stack.length = maxKittyDepth ∨ c.Fits ∧ 0 < flags
  | .pop count =>
    if c.Fits then min count stack.length = min 1 stack.length else min count stack.length = 0
  | .other =>
    c.Fits → (c.TakenForPush → stack.length = maxKittyDepth) ∧
      (c.TakenForPop → stack.length = 0)

def Followed (stack : List ℕ) (c : CsiCommand) : Prop := c.FollowedOp stack c.keyboardOp

instance (stack : List ℕ) (c : CsiCommand) : (op : KeyboardOp) → Decidable (c.FollowedOp stack op)
  | .push flags =>
    inferInstanceAs (Decidable (stack.length = maxKittyDepth ∨ c.Fits ∧ 0 < flags))
  | .pop count =>
    inferInstanceAs (Decidable (if c.Fits then min count stack.length = min 1 stack.length
      else min count stack.length = 0))
  | .other =>
    inferInstanceAs (Decidable (c.Fits → (c.TakenForPush → stack.length = maxKittyDepth) ∧
      (c.TakenForPop → stack.length = 0)))

instance (stack : List ℕ) (c : CsiCommand) : Decidable (c.Followed stack) :=
  inferInstanceAs (Decidable (c.FollowedOp stack c.keyboardOp))

theorem takenForPush_iff (c : CsiCommand) :
    (c.params.head? = some 0x3e ∧ c.finalByte = 0x75 ∧ 1 < c.params.length ∧
        0 < (parseParams (c.params.drop 1)).head?.getD 0) ↔ c.TakenForPush := by
  unfold TakenForPush
  refine and_congr_right fun hmarker => and_congr_right fun _ => ?_
  rw [drop_one]
  obtain ⟨rest, hparams⟩ : ∃ rest, c.params = 0x3e :: rest := by
    cases hc : c.params with
    | nil => rw [hc] at hmarker; cases hmarker
    | cons b rest =>
      rw [hc, List.head?_cons, Option.some.injEq] at hmarker
      exact ⟨rest, by rw [hmarker]⟩
  rw [hparams, tail_cons, length_cons]
  by_cases hne : rest = []
  · subst hne
    decide
  · have hlength : 0 < rest.length := length_pos_iff.mpr hne
    rw [and_iff_right (by omega)]
    by_cases hall : rest.all isNumeric = true
    · rw [and_iff_right hall, parseParams_numeric hne (all_eq_true.mp hall)]
      cases csiFields rest with
      | nil => simp [digitsValue]
      | cons field fields =>
        simp only [map_cons, List.head?_cons, Option.getD_some, headD_cons]
        omega
    · -- one foreign byte, and the number is zero
      obtain ⟨byte, hmem, hbyte⟩ := all_eq_false.mp (Bool.eq_false_of_not_eq_true hall)
      rw [parseParams_eq_nil hmem (Bool.eq_false_of_not_eq_true hbyte)]
      exact iff_of_false (Nat.lt_irrefl 0) fun h => hall h.1

theorem isNumeric_of_digit {byte : UInt8} (h : isAsciiDigit byte = true) : isNumeric byte = true := by
  unfold isNumeric
  rw [h]
  rfl

theorem csiFields_digits {digits : Bytes} (h : digits.all isAsciiDigit = true) :
    csiFields digits = [digits] := by
  refine splitOnP_eq_singleton fun byte hbyte => ?_
  have hdigit := all_eq_true.mp h byte hbyte
  unfold isAsciiDigit at hdigit
  unfold isFieldEnd
  grind

variable {c : CsiCommand}

theorem takenForPush_of_push {flags : ℕ} (h : c.keyboardOp = .push flags) :
    (c.TakenForPush ↔ 0 < flags) ∧ ¬ c.TakenForPop := by
  unfold keyboardOp at h
  split_ifs at h with hdigits hmarker hpop
  · obtain rfl := KeyboardOp.push.inj h
    have hnumeric : c.params.tail.all isNumeric = true :=
      all_eq_true.mpr fun b hb => isNumeric_of_digit (all_eq_true.mp hdigits.2 b hb)
    unfold TakenForPush TakenForPop
    rw [csiFields_digits hdigits.2, and_iff_right hmarker, and_iff_right hdigits.1,
      and_iff_right hnumeric]
    refine ⟨Iff.rfl, fun hpop => ?_⟩
    rw [hmarker] at hpop
    exact absurd hpop.1 (by decide)

theorem takenForPop_of_pop {count : ℕ} (h : c.keyboardOp = .pop count) :
    ¬ c.TakenForPush ∧ c.TakenForPop := by
  unfold keyboardOp at h
  split_ifs at h with hdigits hmarker hpop
  all_goals exact ⟨fun hpush => hmarker hpush.1, hpop, hdigits.1⟩

theorem length_keyboardStep_le {stack : List ℕ} (h : stack.length ≤ maxKittyDepth) (c : CsiCommand) :
    (keyboardStep stack c).length ≤ maxKittyDepth := by
  unfold keyboardStep
  split
  · exact length_take_le _ _
  · rw [length_drop]
    omega
  · exact h

end CsiCommand

namespace TerminalModeTracker

variable {t : TerminalModeTracker}

theorem feed_command_depth (h : t.OutsideOsc) (c : CsiCommand) :
    (t.feed c.bytes).modes.kittyKeyboardDepth =
      if c.Fits ∧ c.TakenForPush then min (t.modes.kittyKeyboardDepth + 1) maxKittyDepth
      else if c.Fits ∧ c.TakenForPop then t.modes.kittyKeyboardDepth - 1
      else t.modes.kittyKeyboardDepth := by
  rw [feed_command_modes h]
  unfold afterCsi
  by_cases hfits : c.Fits
  · rw [take_of_length_le hfits, decide_eq_false (Nat.not_lt.mpr hfits)]
    rw [handleCsi_depth _ _ rfl]
    simp only [c.takenForPush_iff, hfits, true_and]
    rfl
  · rw [decide_eq_true (Nat.not_le.mp hfits)]
    simp only [hfits, false_and, if_false]
    rfl

/-- **One sequence**: the tracker and the terminal stay in step exactly where the
sequence is one the tracker follows. -/
theorem feed_command_follows_iff (h : t.OutsideOsc) {stack : List ℕ}
    (hcap : stack.length ≤ maxKittyDepth)
    (hdepth : t.modes.kittyKeyboardDepth = stack.length) (c : CsiCommand) :
    (t.feed c.bytes).modes.kittyKeyboardDepth = (CsiCommand.keyboardStep stack c).length ↔
      c.Followed stack := by
  rw [feed_command_depth h, hdepth]
  unfold CsiCommand.keyboardStep CsiCommand.Followed CsiCommand.FollowedOp
  cases hop : c.keyboardOp with
  | push flags =>
    obtain ⟨hpush, hpop⟩ := CsiCommand.takenForPush_of_push hop
    simp only [hpush, hpop, and_false, if_false, length_take, length_cons]
    by_cases htaken : c.Fits ∧ 0 < flags
    · rw [if_pos htaken, Nat.min_comm]
      exact iff_of_true rfl (.inr htaken)
    · rw [if_neg htaken, or_iff_left htaken]
      omega
  | pop count =>
    obtain ⟨hpush, hpop⟩ := CsiCommand.takenForPop_of_pop hop
    simp only [hpush, hpop, and_false, and_true, if_false, length_drop]
    by_cases hfits : c.Fits
    · rw [if_pos hfits, if_pos hfits]
      omega
    · rw [if_neg hfits, if_neg hfits]
      omega
  | other =>
    dsimp only
    by_cases hfits : c.Fits
    · simp only [hfits, true_and, true_imp_iff]
      by_cases hpush : c.TakenForPush
      · have hnopop : ¬ c.TakenForPop := fun hpop =>
          absurd (hpush.1.symm.trans hpop.1) (by decide)
        simp only [hpush, hnopop, if_true, true_imp_iff, false_imp_iff, and_true]
        omega
      · by_cases hpop : c.TakenForPop
        · simp only [hpush, hpop, if_true, if_false, true_imp_iff, false_imp_iff, true_and]
          omega
        · simp [hpush, hpop]
    · simp [hfits]

theorem feed_commands (t : TerminalModeTracker) (cs : List CsiCommand) :
    t.feed (cs.flatMap CsiCommand.bytes) = cs.foldl (fun t c => t.feed c.bytes) t :=
  foldl_flatMap

end TerminalModeTracker

namespace CsiCommand

/-- `CSI > 1 u`. -/
def push1 : CsiCommand := ⟨[0x3e, 0x31], 0x75, by simp, by decide⟩

/-- `CSI > u`, a push of no flags. -/
def pushDefault : CsiCommand := ⟨[0x3e], 0x75, by simp, by decide⟩

/-- `CSI < u`. -/
def pop1 : CsiCommand := ⟨[0x3c], 0x75, by simp, by decide⟩

/-- `CSI < 2 u`. -/
def pop2 : CsiCommand := ⟨[0x3c, 0x32], 0x75, by simp, by decide⟩

end CsiCommand

namespace TerminalModeTracker

/-- **The tracked depth is the depth of the terminal's stack all along a run of CSI
sequences exactly where every sequence is one the tracker follows.** -/
theorem kittyDepth_follows_iff (cs : List CsiCommand) :
    (∀ p, p <+: cs → (new.feed (p.flatMap CsiCommand.bytes)).modes.kittyKeyboardDepth =
        (p.foldl CsiCommand.keyboardStep []).length) ↔
      Run.Guarded CsiCommand.keyboardStep CsiCommand.Followed [] cs := by
  simp only [feed_commands]
  refine Run.Guarded.iff_lockstep
    (J := fun (t : TerminalModeTracker) (stack : List ℕ) =>
      t.OutsideOsc ∧ stack.length ≤ maxKittyDepth)
    (P := fun (t : TerminalModeTracker) (stack : List ℕ) =>
      t.modes.kittyKeyboardDepth = stack.length)
    ?_ ?_ ⟨⟨nofun, nofun⟩, Nat.zero_le _⟩ rfl
  · rintro t stack c ⟨hout, hcap⟩
    exact ⟨feed_command_outside hout c, CsiCommand.length_keyboardStep_le hcap c⟩
  · rintro t stack c ⟨hout, hcap⟩ hdepth
    exact feed_command_follows_iff hout hcap hdepth c

open CsiCommand in
/-- Two pushes with flags and one pop are followed to the end. -/
theorem kittyDepth_follows_pushes :
    (new.feed ([push1, push1, pop1].flatMap CsiCommand.bytes)).modes.kittyKeyboardDepth =
      ([push1, push1, pop1].foldl keyboardStep []).length :=
  (kittyDepth_follows_iff [push1, push1, pop1]).mpr (by decide) _ (prefix_refl _)

open CsiCommand in
/-- A push of no flags is missed, and of two entries popped at once one stays. -/
theorem kittyDepth_diverges :
    ((new.feed ([pushDefault].flatMap CsiCommand.bytes)).modes.kittyKeyboardDepth = 0 ∧
        ([pushDefault].foldl keyboardStep []).length = 1) ∧
      ((new.feed ([push1, push1, pop2].flatMap CsiCommand.bytes)).modes.kittyKeyboardDepth = 1 ∧
        ([push1, push1, pop2].foldl keyboardStep []).length = 0) := by
  decide

end TerminalModeTracker

/-! ## The scroll region -/

namespace CsiCommand

/-- A sequence that sets the scroll region: `r` after digits and semicolons only. -/
def IsDecstbm (c : CsiCommand) : Prop :=
  c.finalByte = 0x72 ∧ c.params.all (fun byte => isAsciiDigit byte || byte == 0x3b) = true

instance (c : CsiCommand) : Decidable c.IsDecstbm := inferInstanceAs (Decidable (_ ∧ _))

end CsiCommand

def regionNumbers (params : Bytes) : List ℕ :=
  if params = [] then [] else (csiFields params).map digitsValue

def defaultRegions : List (List ℕ) := [[], [0], [1, 0]]

theorem map_saturated_mem_defaultRegions (values : List ℕ) :
    values.map (fun v => min v 65535) ∈ defaultRegions ↔ values ∈ defaultRegions := by
  simp only [defaultRegions, mem_cons, not_mem_nil, or_false]
  rcases values with _ | ⟨a, _ | ⟨b, _ | ⟨c, rest⟩⟩⟩
  · simp
  · simp only [map_cons, map_nil, List.cons.injEq, reduceCtorEq, and_true, and_false,
      or_false, false_or]
    omega
  · simp only [map_cons, map_nil, List.cons.injEq, reduceCtorEq, and_true, and_false,
      false_or]
    omega
  · simp

theorem scrollRegionNonDefault_iff (params : Bytes) :
    scrollRegionNonDefault params = true ↔
      params.all isNumeric = true ∧ regionNumbers params ∉ defaultRegions := by
  have hlist : ∀ values : List ℕ,
      (!(values == [] || values == [0] || values == [1, 0])) = true ↔ values ∉ defaultRegions := by
    intro values
    simp [defaultRegions, not_or, and_assoc]
  unfold scrollRegionNonDefault regionNumbers
  by_cases hne : params = []
  · subst hne
    decide
  rw [if_neg hne, if_neg hne, hlist]
  by_cases hall : params.all isNumeric = true
  · have hmap : (csiFields params).map (fun f => min (digitsValue f) 65535) =
        ((csiFields params).map digitsValue).map fun v => min v 65535 := by
      rw [map_map]
      rfl
    rw [parseParams_numeric hne (all_eq_true.mp hall), hmap,
      map_saturated_mem_defaultRegions, and_iff_right hall]
  · obtain ⟨byte, hmem, hbyte⟩ := all_eq_false.mp (Bool.eq_false_of_not_eq_true hall)
    rw [parseParams_eq_nil hmem (Bool.eq_false_of_not_eq_true hbyte)]
    exact iff_of_false (fun h => h (by decide)) fun h => hall h.1

namespace CsiCommand

/-- A sequence that leaves a mark set: it does not end in `r`, or is too long for the
tracker, or reads like a region that is not a default one. -/
def KeepsMark (c : CsiCommand) : Prop :=
  c.finalByte = 0x72 → c.Fits →
    c.params.all isNumeric = true ∧ regionNumbers c.params ∉ defaultRegions

/-- The same of a sequence that sets no region: numbers with a colon among the
separators, and not `1:0`. -/
def SparesMark (c : CsiCommand) : Prop :=
  c.finalByte = 0x72 → c.Fits → c.params.all isNumeric = true ∧ regionNumbers c.params ≠ [1, 0]

instance (c : CsiCommand) : Decidable c.SparesMark := inferInstanceAs (Decidable (_ → _))

variable {c : CsiCommand}

theorem keepsMark_iff_sparesMark (h : ¬ c.IsDecstbm) : c.KeepsMark ↔ c.SparesMark := by
  unfold KeepsMark SparesMark
  refine forall_congr' fun hr => forall_congr' fun _ => and_congr_right fun hall => ?_
  -- with a colon there are two numbers at least
  have hcolon : (0x3a : UInt8) ∈ c.params := by
    by_contra hnone
    refine h ⟨hr, all_eq_true.mpr fun byte hbyte => ?_⟩
    have hnumeric := all_eq_true.mp hall byte hbyte
    have hother : byte ≠ 0x3a := fun heq => hnone (heq ▸ hbyte)
    unfold isNumeric at hnumeric
    grind
  obtain ⟨before, after, hsplit⟩ := append_of_mem hcolon
  have hfields : csiFields c.params = csiFields before ++ csiFields after := by
    unfold csiFields
    rw [hsplit]
    exact splitOnP_append_cons before after rfl
  have hbefore : 0 < (csiFields before).length := length_pos_iff.mpr (splitOnP_ne_nil _ _)
  have hafter : 0 < (csiFields after).length := length_pos_iff.mpr (splitOnP_ne_nil _ _)
  have hlength : 2 ≤ (regionNumbers c.params).length := by
    unfold regionNumbers
    rw [if_neg (ne_nil_of_mem hcolon), length_map, hfields, length_append]
    omega
  unfold defaultRegions
  simp only [mem_cons, not_mem_nil, or_false, not_or]
  constructor
  · exact fun hnot => hnot.2.2
  · intro hnot
    refine ⟨fun heq => ?_, fun heq => ?_, hnot⟩
    · rw [heq] at hlength
      exact absurd hlength (by decide)
    · rw [heq] at hlength
      exact absurd hlength (by decide)

theorem isNumeric_of_isDecstbm (h : c.IsDecstbm) : c.params.all isNumeric = true := by
  refine all_eq_true.mpr fun byte hbyte => ?_
  have hdigit := all_eq_true.mp h.2 byte hbyte
  unfold isNumeric
  grind

end CsiCommand

namespace TerminalModeTracker

variable {t : TerminalModeTracker}

variable (h : t.OutsideOsc)
include h

theorem feed_command_mark (c : CsiCommand) :
    (t.feed c.bytes).modes.scrollRegionNonDefault =
      if c.finalByte = 0x72 ∧ c.Fits then Portl.scrollRegionNonDefault c.params
      else t.modes.scrollRegionNonDefault := by
  rw [feed_command_modes h]
  unfold afterCsi
  by_cases hfits : c.Fits
  · rw [take_of_length_le hfits, decide_eq_false (Nat.not_lt.mpr hfits),
      handleCsi_scroll _ _ rfl]
    simp [hfits]
  · rw [decide_eq_true (Nat.not_le.mp hfits), if_neg fun hboth => hfits hboth.2]
    rfl

theorem feed_command_mark_true (c : CsiCommand) (hmark : t.modes.scrollRegionNonDefault = true) :
    (t.feed c.bytes).modes.scrollRegionNonDefault = true ↔ c.KeepsMark := by
  rw [feed_command_mark h]
  unfold CsiCommand.KeepsMark
  by_cases hset : c.finalByte = 0x72 ∧ c.Fits
  · rw [if_pos hset, scrollRegionNonDefault_iff]
    simp [hset.1, hset.2]
  · rw [if_neg hset]
    refine iff_of_true hmark fun hr hfits => absurd ⟨hr, hfits⟩ hset

theorem feed_commands_outside (cs : List CsiCommand) :
    (t.feed (cs.flatMap CsiCommand.bytes)).OutsideOsc := by
  rw [feed_commands]
  induction cs generalizing t with
  | nil => exact h
  | cons c cs ih => exact ih (feed_command_outside h c)

theorem mark_kept_iff (hmark : t.modes.scrollRegionNonDefault = true) (cs : List CsiCommand) :
    (∀ p, p <+: cs → (t.feed (p.flatMap CsiCommand.bytes)).modes.scrollRegionNonDefault = true) ↔
      ∀ c ∈ cs, c.KeepsMark := by
  have hguard : Run.Guarded (fun (_ : Unit) (_ : CsiCommand) => ()) (fun _ c => c.KeepsMark) () cs ↔
      ∀ c ∈ cs, c.KeepsMark := Run.Guarded.iff_forall_mem
  simp only [feed_commands]
  rw [← hguard]
  refine Run.Guarded.iff_lockstep
    (J := fun (t : TerminalModeTracker) (_ : Unit) => t.OutsideOsc)
    (P := fun (t : TerminalModeTracker) (_ : Unit) => t.modes.scrollRegionNonDefault = true)
    ?_ ?_ h hmark
  · intro t _ c hout
    exact feed_command_outside hout c
  · intro t _ c hout hset
    exact feed_command_mark_true hout c hset

omit h

/-- **A scroll region is remembered to the next one exactly where the sequence that
set it fits the buffer (or one was remembered already) and no sequence after it
that also ends in `r` reads as a default region or as no numbers at all.** -/
theorem scrollRegion_kept_iff (pre post : List CsiCommand) (c : CsiCommand) (hc : c.IsDecstbm)
    (hregion : regionNumbers c.params ∉ defaultRegions) (hpost : ∀ d ∈ post, ¬ d.IsDecstbm) :
    (∀ p, p <+: post →
        (new.feed ((pre ++ c :: p).flatMap CsiCommand.bytes)).modes.scrollRegionNonDefault = true) ↔
      (c.Fits ∨ (new.feed (pre.flatMap CsiCommand.bytes)).modes.scrollRegionNonDefault = true) ∧
        ∀ d ∈ post, d.SparesMark := by
  have hpre : (new.feed (pre.flatMap CsiCommand.bytes)).OutsideOsc :=
    feed_commands_outside (show new.OutsideOsc by decide) pre
  have hsplit : ∀ p : List CsiCommand, new.feed ((pre ++ c :: p).flatMap CsiCommand.bytes) =
      ((new.feed (pre.flatMap CsiCommand.bytes)).feed c.bytes).feed
        (p.flatMap CsiCommand.bytes) := by
    intro p
    rw [flatMap_append, flatMap_cons, feed_append, feed_append]
  have hset : ((new.feed (pre.flatMap CsiCommand.bytes)).feed c.bytes).modes.scrollRegionNonDefault
        = true ↔
      c.Fits ∨ (new.feed (pre.flatMap CsiCommand.bytes)).modes.scrollRegionNonDefault = true := by
    have hread := (scrollRegionNonDefault_iff c.params).mpr
      ⟨CsiCommand.isNumeric_of_isDecstbm hc, hregion⟩
    rw [feed_command_mark hpre]
    by_cases hfits : c.Fits
    · rw [if_pos ⟨hc.1, hfits⟩]
      exact iff_of_true hread (.inl hfits)
    · rw [if_neg fun hboth => hfits hboth.2, or_iff_right hfits]
  have hspares : (∀ d ∈ post, d.KeepsMark) ↔ ∀ d ∈ post, d.SparesMark :=
    forall₂_congr fun d hd => CsiCommand.keepsMark_iff_sparesMark (hpost d hd)
  simp only [hsplit]
  rw [← hset, ← hspares]
  have hout := feed_command_outside hpre c
  constructor
  · intro hall
    have hnow := hall [] nil_prefix
    exact ⟨hnow, (mark_kept_iff hout hnow post).mp hall⟩
  · rintro ⟨hnow, hkeep⟩
    exact (mark_kept_iff hout hnow post).mpr hkeep

end TerminalModeTracker

namespace CsiCommand

/-- `CSI 5 ; 9 r`. -/
def region : CsiCommand := ⟨[0x35, 0x3b, 0x39], 0x72, by simp, by decide⟩

/-- `CSI ? 1 r`, which restores a private mode. -/
def restoreMode : CsiCommand := ⟨[0x3f, 0x31], 0x72, by simp, by decide⟩

end CsiCommand

namespace TerminalModeTracker

open CsiCommand in
theorem scrollRegion_kept_pushes :
    (new.feed (([] ++ region :: [push1, pop1]).flatMap CsiCommand.bytes)).modes.scrollRegionNonDefault
      = true :=
  (scrollRegion_kept_iff [] [push1, pop1] region (by decide) (by decide) (by decide)).mpr
    ⟨.inl (by decide), by decide⟩ _ (prefix_refl _)

open CsiCommand in
/-- The private sequence clears the mark of the region before it. -/
theorem scrollRegion_forgotten :
    region.IsDecstbm ∧ regionNumbers region.params = [5, 9] ∧ ¬ restoreMode.IsDecstbm ∧
      (new.feed ([region].flatMap CsiCommand.bytes)).modes.scrollRegionNonDefault = true ∧
      (new.feed ([region, restoreMode].flatMap CsiCommand.bytes)).modes.scrollRegionNonDefault =
        false := by
  decide

end TerminalModeTracker

end Portl
