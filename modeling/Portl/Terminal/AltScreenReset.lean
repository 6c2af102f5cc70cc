import Portl.Terminal.ModeTracker

/-!
# The reset on leaving the alternate screen

`take_alt_screen_leave_kitty_reset`: when a program has left the alternate screen
and some mode is still on, the tracker gives out the bytes that switch it off and
forgets it. Of the keyboard stack it forgets all, and gives out one pop.
-/

namespace Portl

namespace TerminalModeTracker

/-- The bytes, and the tracker after the call. The three keyboard modes are read
before they are cleared; the rest is what `cleanup_plan` makes of the others. -/
def takeAltScreenLeaveKittyReset (t : TerminalModeTracker) : Bytes × TerminalModeTracker :=
  if t.pendingAltScreenKittyReset = false then ([], t)
  else
    let needsKittyPop := decide (0 < t.modes.kittyKeyboardDepth)
    let needsFlagsClear := decide (t.modes.kittyFlags ≠ 0)
    let needsMokClear := decide (t.modes.modifyOtherKeys ≠ 0)
    let cleared : TerminalModeTracker :=
      { t with
        modes := { t.modes with kittyKeyboardDepth := 0, kittyFlags := 0, modifyOtherKeys := 0 }
        pendingAltScreenKittyReset := false }
    ((if needsKittyPop then kittyPop else []) ++ (if needsFlagsClear then kittyFlagsClear else []) ++
        (if needsMokClear then modifyOtherKeysClear else []) ++ cleared.cleanupPlan.1,
      cleared.cleanupPlan.2)

end TerminalModeTracker

open TerminalModeTracker List

/-! ## The reset as stages -/

def popKittyOnce : CleanupStage where
  dirty m := decide (0 < m.kittyKeyboardDepth)
  bytes _ := kittyPop
  clear m := { m with kittyKeyboardDepth := m.kittyKeyboardDepth - 1 }

/-- The stages of `cleanup_plan` behind the three keyboard modes. -/
def screenStages : List CleanupStage := cleanupStages.drop 3

def resetStages : List CleanupStage :=
  popKittyOnce :: clearKittyFlags :: clearModifyOtherKeys :: screenStages

def TerminalModeState.withDepth (m : TerminalModeState) (depth : ℕ) : TerminalModeState :=
  { m with kittyKeyboardDepth := depth }

/-- A stage that does not look at the keyboard stack, and leaves it as it is. -/
structure CleanupStage.Blind (stage : CleanupStage) : Prop where
  dirty (m : TerminalModeState) (depth : ℕ) : stage.dirty (m.withDepth depth) = stage.dirty m
  bytes (m : TerminalModeState) (depth : ℕ) : stage.bytes (m.withDepth depth) = stage.bytes m
  clear (m : TerminalModeState) (depth : ℕ) :
    stage.clear (m.withDepth depth) = (stage.clear m).withDepth depth

variable {stage : CleanupStage}

theorem CleanupStage.Blind.run (h : stage.Blind) (m : TerminalModeState) (depth : ℕ) :
    stage.run (m.withDepth depth) = ((stage.run m).1, (stage.run m).2.withDepth depth) := by
  unfold CleanupStage.run
  rw [h.dirty]
  split
  · rw [h.bytes, h.clear]
  · rfl

theorem runStages_blind {stages : List CleanupStage} (h : ∀ stage ∈ stages, stage.Blind)
    (m : TerminalModeState) (depth : ℕ) :
    runStages stages (m.withDepth depth) =
      ((runStages stages m).1, (runStages stages m).2.withDepth depth) := by
  induction stages generalizing m with
  | nil => rfl
  | cons stage stages ih =>
    have hstage := h stage mem_cons_self
    have hstages := ih fun s hs => h s (mem_cons_of_mem _ hs)
    simp [runStages, hstage.run, hstages]

theorem screenStages_blind : ∀ stage ∈ screenStages, stage.Blind := by
  intro stage hstage
  simp only [screenStages, cleanupStages, drop_succ_cons, drop_zero, mem_cons,
    not_mem_nil, or_false] at hstage
  rcases hstage with rfl | rfl | rfl | rfl | rfl | rfl | rfl | rfl <;>
    exact ⟨fun _ _ => rfl, fun _ _ => rfl, fun _ _ => rfl⟩

theorem mem_cleanupStages_of_screen (h : stage ∈ screenStages) : stage ∈ cleanupStages :=
  mem_of_mem_drop h

theorem popKittyOnce_sound : PlanSound popKittyOnce.run := kittyPop_readsAs.run_sound _

theorem resetStages_sound : PlanSound (runStages resetStages) := by
  apply runStages_sound
  intro stage hstage
  simp only [resetStages, mem_cons] at hstage
  rcases hstage with rfl | rfl | rfl | hscreen
  · exact popKittyOnce_sound
  · exact kittyFlagsClear_readsAs.run_sound _
  · exact modifyOtherKeysClear_readsAs.run_sound _
  · exact cleanupStages_sound stage (mem_cleanupStages_of_screen hscreen)

theorem resetStages_idle : ∀ stage ∈ resetStages, ∀ m : TerminalModeState,
    stage.dirty m = false → stage.clear m = m := by
  intro stage hstage m hclean
  simp only [resetStages, mem_cons] at hstage
  rcases hstage with rfl | hrest
  · have hzero : m.kittyKeyboardDepth = 0 := by
      have hnot := of_decide_eq_false hclean
      omega
    obtain ⟨depth, flags, alt, paste, mouse, keys, wrap, region⟩ := m
    subst hzero
    rfl
  · apply cleanupStages_idle stage _ m hclean
    rcases hrest with rfl | rfl | hscreen
    · exact mem_cons_of_mem _ mem_cons_self
    · exact mem_cons_of_mem _ (mem_cons_of_mem _ mem_cons_self)
    · exact mem_cleanupStages_of_screen hscreen

theorem resetStages_snd (m : TerminalModeState) :
    (runStages resetStages m).2 = TerminalModeState.default.withDepth (m.kittyKeyboardDepth - 1) := by
  rw [runStages_snd resetStages_idle]
  exact congrArg
    (fun v => TerminalModeState.mk (m.kittyKeyboardDepth - 1) 0 none false v 0 true false)
    (mouseModes_cleared m.mouseModes)

theorem runStages_cons_fst (stages : List CleanupStage) (m : TerminalModeState)
    (h : stage.dirty m = false → stage.clear m = m) :
    (runStages (stage :: stages) m).1 =
      (if stage.dirty m then stage.bytes m else []) ++ (runStages stages (stage.clear m)).1 := by
  show (stage.run m).1 ++ (runStages stages (stage.run m).2).1 = _
  unfold CleanupStage.run
  cases hdirty : stage.dirty m with
  | true => rfl
  | false => rw [h hdirty]; rfl

def TerminalModeState.keyboardOff (m : TerminalModeState) : TerminalModeState :=
  { m with kittyKeyboardDepth := 0, kittyFlags := 0, modifyOtherKeys := 0 }

theorem cleanupStages_keyboardOff (m : TerminalModeState) :
    (runStages cleanupStages m.keyboardOff).1 = (runStages screenStages m.keyboardOff).1 := by
  have hidle : ∀ (stage : CleanupStage) (stages : List CleanupStage),
      stage.run m.keyboardOff = ([], m.keyboardOff) →
      (runStages (stage :: stages) m.keyboardOff).1 = (runStages stages m.keyboardOff).1 := by
    intro stage stages hrun
    simp [runStages, hrun]
  have hsplit : cleanupStages =
      clearKittyDepth :: clearKittyFlags :: clearModifyOtherKeys :: screenStages := rfl
  rw [hsplit, hidle _ _ rfl, hidle _ _ rfl, hidle _ _ rfl]

theorem resetStages_fst (m : TerminalModeState) :
    (runStages resetStages m).1 =
      (if decide (0 < m.kittyKeyboardDepth) then kittyPop else []) ++
        ((if decide (m.kittyFlags ≠ 0) then kittyFlagsClear else []) ++
          ((if decide (m.modifyOtherKeys ≠ 0) then modifyOtherKeysClear else []) ++
            (runStages screenStages m.keyboardOff).1)) := by
  have hmem : ∀ stage ∈ [popKittyOnce, clearKittyFlags, clearModifyOtherKeys],
      ∀ m : TerminalModeState, stage.dirty m = false → stage.clear m = m :=
    fun stage hstage => resetStages_idle stage (mem_append_left screenStages hstage)
  have hscreen := runStages_blind screenStages_blind m.keyboardOff (m.kittyKeyboardDepth - 1)
  have hpop := hmem popKittyOnce mem_cons_self m
  have hflags := hmem clearKittyFlags (mem_cons_of_mem _ mem_cons_self)
    (popKittyOnce.clear m)
  have hkeys := hmem clearModifyOtherKeys
    (mem_cons_of_mem _ (mem_cons_of_mem _ mem_cons_self))
    (clearKittyFlags.clear (popKittyOnce.clear m))
  have hlast : clearModifyOtherKeys.clear (clearKittyFlags.clear (popKittyOnce.clear m)) =
      m.keyboardOff.withDepth (m.kittyKeyboardDepth - 1) := rfl
  unfold resetStages
  rw [runStages_cons_fst _ m hpop, runStages_cons_fst _ _ hflags, runStages_cons_fst _ _ hkeys,
    hlast, hscreen]
  rfl

theorem runStages_resetStages_default : (runStages resetStages .default).1 = [] := by
  rw [resetStages_fst]
  exact (cleanupStages_keyboardOff .default).symm.trans runStages_cleanupStages_default

namespace TerminalModeTracker

variable {t : TerminalModeTracker}

/-- The bytes of the reset are those of its stages: that the code clears the keyboard
modes first and plans the rest over cleared ones makes no difference. -/
theorem takeAltScreenLeaveKittyReset_fst (h : t.pendingAltScreenKittyReset = true) :
    t.takeAltScreenLeaveKittyReset.1 = (runStages resetStages t.modes).1 := by
  unfold takeAltScreenLeaveKittyReset
  rw [if_neg (by rw [h]; exact nofun), resetStages_fst, ← cleanupStages_keyboardOff]
  simp only [cleanupPlan_fst, append_assoc]
  rfl

theorem takeAltScreenLeaveKittyReset_modes (h : t.pendingAltScreenKittyReset = true) :
    t.takeAltScreenLeaveKittyReset.2.modes = .default := by
  unfold takeAltScreenLeaveKittyReset
  rw [if_neg (by rw [h]; exact nofun)]
  exact (cleanupPlan_modes _).trans (runStages_cleanupStages_snd _)

/-- **The reset restores the modes exactly where the keyboard stack was at most one
deep and the stream did not stop inside an OSC string.** The tracker holds them for
restored in any case. -/
theorem takeAltScreenLeaveKittyReset_restores_iff (x : Bytes)
    (h : (new.feed x).takeAltScreenLeaveKittyReset.1 ≠ []) :
    (new.feed x).takeAltScreenLeaveKittyReset.2.modes = .default ∧
      (((new.feed x).feed (new.feed x).takeAltScreenLeaveKittyReset.1).modes = .default ↔
        (new.feed x).modes.kittyKeyboardDepth ≤ 1 ∧ (new.feed x).OutsideOsc) := by
  generalize new.feed x = t at h ⊢
  have hpending : t.pendingAltScreenKittyReset = true := by
    by_contra hnot
    apply h
    unfold takeAltScreenLeaveKittyReset
    rw [if_pos (Bool.eq_false_of_not_eq_true hnot)]
  refine ⟨takeAltScreenLeaveKittyReset_modes hpending, ?_⟩
  rw [takeAltScreenLeaveKittyReset_fst hpending] at h ⊢
  by_cases hout : t.OutsideOsc
  · rw [(resetStages_sound.outside t hout).2, resetStages_snd, and_iff_left hout]
    constructor
    · intro hdefault
      have hdepth : t.modes.kittyKeyboardDepth - 1 = 0 :=
        congrArg TerminalModeState.kittyKeyboardDepth hdefault
      omega
    · intro hdepth
      rw [Nat.sub_eq_zero_of_le hdepth]
      rfl
  · -- inside an OSC string nothing is switched off, and something was on
    rw [(resetStages_sound.inside t.modes t hout).2]
    refine iff_of_false (fun hdefault => h ?_) (fun hboth => hout hboth.2)
    rw [hdefault]
    exact runStages_resetStages_default

def enterAndLeave : Bytes :=
  csiSequence [0x3f, 0x31, 0x30, 0x34, 0x39] 0x68 ++ altScreen1049Leave

def kittyPush : Bytes := csiSequence [0x3e, 0x31] 0x75

/-- A program that pushed once is undone. -/
theorem reset_after_one_push :
    (new.feed (kittyPush ++ enterAndLeave)).takeAltScreenLeaveKittyReset.1 = kittyPop ∧
      ((new.feed (kittyPush ++ enterAndLeave)).feed
        (new.feed (kittyPush ++ enterAndLeave)).takeAltScreenLeaveKittyReset.1).modes =
          .default := by
  have hpop : (new.feed (kittyPush ++ enterAndLeave)).takeAltScreenLeaveKittyReset.1 = kittyPop := by
    decide +kernel
  have hsome : (new.feed (kittyPush ++ enterAndLeave)).takeAltScreenLeaveKittyReset.1 ≠ [] := by
    rw [hpop]
    exact nofun
  exact ⟨hpop, (takeAltScreenLeaveKittyReset_restores_iff _ hsome).2.mpr (by decide +kernel)⟩

/-- One that pushed twice leaves the host's keyboard one level deep, and the tracker
no longer knows. -/
theorem reset_after_two_pushes :
    (new.feed (kittyPush ++ kittyPush ++ enterAndLeave)).takeAltScreenLeaveKittyReset.1 = kittyPop ∧
      ((new.feed (kittyPush ++ kittyPush ++ enterAndLeave)).feed kittyPop).modes.kittyKeyboardDepth
        = 1 ∧
      (new.feed (kittyPush ++ kittyPush ++ enterAndLeave)).takeAltScreenLeaveKittyReset.2.modes =
        .default := by
  decide +kernel

end TerminalModeTracker

end Portl
