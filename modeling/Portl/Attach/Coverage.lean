import Portl.Attach.Screen
import Portl.Lib.Checks

/-!
# The screen and the live sequence

While a reload is active or a resync is pending nothing is known of the screen: the
snapshot that ends both redraws it. What must be carried through such a time is the
queue, which holds pieces of the output, and what was dropped.
-/

namespace Portl

open Slice Checks List

namespace AttachScreen

variable {m : AttachMoment} {i : ℕ} {s s' : AttachScreen} {output : Bytes}

/-! ## What a step leaves when it succeeds -/

variable {act : AttachAct} {now : ℕ} {Q : AttachScreen → Prop}

theorem ensures_write (h : Q (s.record act)) : Ensures (write m i s act) Q := by
  unfold write
  split
  · exact .ok h
  · exact .error

theorem ensures_setBar (h : Q s) : Ensures (setBar m i s) Q := by
  unfold setBar
  split
  · exact .ok h
  · exact .error

theorem ensures_requestViewport {reason : String}
    (h : Q { s with requested := s.requested ++ [reason] }) :
    Ensures (requestViewport m s reason) Q := by
  unfold requestViewport
  split
  · exact .ok h
  · exact .error

/-! ## The log -/

theorem drawnOutput_concat (acts : List AttachAct) (act : AttachAct) :
    drawnOutput output (acts ++ [act]) = act.draw output (drawnOutput output acts) :=
  foldl_append

theorem droppedSince_concat (acts : List AttachAct) (act : AttachAct) :
    droppedSince (acts ++ [act]) = act.drop (droppedSince acts) :=
  foldl_append

structure Logged (output : Bytes) (s : AttachScreen) : Prop where
  bounded : ∀ gap ∈ droppedSince s.acts, gap.2 ≤ s.coveredLiveSeq
  window : ∀ deadline, s.postReloadDedupUntil = some deadline →
    ∃ opened, .window opened ∈ s.acts ∧ deadline = opened + 1000
  drops : s.DropsDuplicates output

/-- The drawn output is the output up to `covered_live_seq`, less what was dropped. -/
def Shows (output : Bytes) (s : AttachScreen) : Prop :=
  drawnOutput output s.acts = without output s.coveredLiveSeq (droppedSince s.acts)

theorem DropsDuplicates.record (h : s.DropsDuplicates output)
    (hact : ∀ startSeq endSeq bytes now, act = .suppressed startSeq endSeq bytes now →
      bytes = slice output startSeq endSeq ∧ liveOutputOverlapsViewport bytes = true ∧
        ∃ opened, .window opened ∈ s.acts ∧ now ≤ opened + 1000) :
    (s.record act).DropsDuplicates output := by
  intro before startSeq endSeq bytes now after hacts
  rcases eq_nil_or_concat' after with rfl | ⟨init, last, rfl⟩
  · obtain ⟨hbefore, hlast⟩ := append_inj' hacts rfl
    rw [← hbefore]
    exact hact _ _ _ _ (cons.inj hlast).1
  · rw [← cons_append, ← append_assoc] at hacts
    exact h _ _ _ _ _ _ (append_inj' hacts rfl).1

theorem Logged.record (h : s.Logged output)
    (hdrop : act.drop (droppedSince s.acts) = droppedSince s.acts ∨
      act.drop (droppedSince s.acts) = [])
    (hact : ∀ startSeq endSeq bytes now, act ≠ .suppressed startSeq endSeq bytes now) :
    (s.record act).Logged output := by
  refine ⟨fun gap hgap => ?_, fun deadline hdeadline => ?_, ?_⟩
  · rw [AttachScreen.record, droppedSince_concat] at hgap
    rcases hdrop with hdrop | hdrop
    · exact h.bounded gap (hdrop ▸ hgap)
    · rw [hdrop] at hgap
      cases hgap
  · obtain ⟨opened, hopened, heq⟩ := h.window deadline hdeadline
    exact ⟨opened, mem_append_left _ hopened, heq⟩
  · exact h.drops.record fun _ _ _ _ heq => absurd heq (hact _ _ _ _)

variable {endSeq : ℕ} {bytes : Bytes}

theorem Logged.cover (h : s.Logged output) (hle : s.coveredLiveSeq ≤ endSeq) :
    { s with coveredLiveSeq := endSeq }.Logged output :=
  ⟨fun gap hgap => (h.bounded gap hgap).trans hle, h.window, h.drops⟩

theorem Logged.suppress (h : s.Logged output) (hle : s.coveredLiveSeq ≤ endSeq)
    (hbytes : bytes = slice output s.coveredLiveSeq endSeq)
    (hduplicate : s.isDuplicate now bytes = true) : ({ s with coveredLiveSeq := endSeq }.record
      (.suppressed s.coveredLiveSeq endSeq bytes now)).Logged output := by
  rw [isDuplicate, Bool.and_eq_true, Option.any_eq_true] at hduplicate
  obtain ⟨⟨deadline, hdeadline, hnow⟩, hclear⟩ := hduplicate
  refine ⟨fun gap hgap => ?_, fun deadline hdeadline => ?_, ?_⟩
  · rw [AttachScreen.record, droppedSince_concat] at hgap
    rcases mem_append.mp hgap with hold | hnew
    · exact (h.bounded gap hold).trans hle
    · rw [mem_singleton.mp hnew]
      exact Nat.le_refl _
  · obtain ⟨opened, hopened, heq⟩ := h.window deadline hdeadline
    exact ⟨opened, mem_append_left _ hopened, heq⟩
  · obtain ⟨opened, hopened, rfl⟩ := h.window deadline hdeadline
    refine DropsDuplicates.record h.drops ?_
    rintro _ _ _ _ ⟨⟩
    exact ⟨hbytes, hclear, opened, hopened, of_decide_eq_true hnow⟩

structure Drawn (output : Bytes) (s : AttachScreen) : Prop where
  logged : s.Logged output
  shows : s.Shows output

theorem Drawn.live (h : s.Drawn output) (hle : s.coveredLiveSeq ≤ endSeq)
    (hbytes : bytes = slice output s.coveredLiveSeq endSeq) :
    ({ s with coveredLiveSeq := endSeq }.record (.live bytes)).Drawn output := by
  refine ⟨(h.logged.cover hle).record (.inl rfl) nofun, ?_⟩
  have hgaps := without_extend output h.logged.bounded hle
  show drawnOutput output (s.acts ++ [AttachAct.live bytes]) =
    without output endSeq (droppedSince (s.acts ++ [AttachAct.live bytes]))
  rw [drawnOutput_concat, droppedSince_concat]
  calc drawnOutput output s.acts ++ bytes
      = without output s.coveredLiveSeq (droppedSince s.acts) ++
          slice output s.coveredLiveSeq endSeq := by rw [h.shows, hbytes]
    _ = without output endSeq (droppedSince s.acts) := hgaps.symm

theorem Drawn.suppress (h : s.Drawn output) (hle : s.coveredLiveSeq ≤ endSeq)
    (hbytes : bytes = slice output s.coveredLiveSeq endSeq)
    (hduplicate : s.isDuplicate now bytes = true) : ({ s with coveredLiveSeq := endSeq }.record
      (.suppressed s.coveredLiveSeq endSeq bytes now)).Drawn output := by
  refine ⟨h.logged.suppress hle hbytes hduplicate, ?_⟩
  show drawnOutput output (s.acts ++ [AttachAct.suppressed s.coveredLiveSeq endSeq bytes now]) =
    without output endSeq
      (droppedSince (s.acts ++ [AttachAct.suppressed s.coveredLiveSeq endSeq bytes now]))
  rw [drawnOutput_concat, droppedSince_concat]
  exact h.shows.trans (without_gap output (droppedSince s.acts) hle).symm

theorem Logged.viewport (h : s.Logged output) {coversLiveSeq : ℕ} (bytes : Bytes)
    (hcovered : s.coveredLiveSeq = coversLiveSeq) :
    (s.record (.viewport coversLiveSeq bytes)).Drawn output := by
  refine ⟨h.record (.inr rfl) nofun, ?_⟩
  show drawnOutput output (s.acts ++ [AttachAct.viewport coversLiveSeq bytes]) =
    without output s.coveredLiveSeq (droppedSince (s.acts ++ [AttachAct.viewport coversLiveSeq bytes]))
  rw [drawnOutput_concat, droppedSince_concat, hcovered]
  exact (without_nil output coversLiveSeq).symm

theorem Drawn.openWindow (h : s.Drawn output) (now : ℕ) :
    ({ s with postReloadDedupUntil := some (now + 1000) }.record (.window now)).Drawn output := by
  have hlogged : (s.record (.window now)).Logged output := h.logged.record (.inl rfl) nofun
  refine ⟨⟨hlogged.bounded, fun deadline hdeadline => ?_, hlogged.drops⟩, ?_⟩
  · cases hdeadline
    exact ⟨now, mem_append_right _ mem_cons_self, rfl⟩
  · show drawnOutput output (s.acts ++ [AttachAct.window now]) =
      without output s.coveredLiveSeq (droppedSince (s.acts ++ [AttachAct.window now]))
    rw [drawnOutput_concat, droppedSince_concat]
    exact h.shows

/-! ## The queue -/

end AttachScreen

/-- Queued frames are pieces of the output, and there are none without a reload. -/
structure ReloadCoordinator.Holds (output : Bytes) (c : ReloadCoordinator) : Prop where
  pieces : ∀ live ∈ c.queuedLive, live.bytes = slice output live.startSeq live.endSeq
  idle : c.activeReloadId = none → c.queuedLive = []

namespace ReloadCoordinator

variable {c : ReloadCoordinator} {output : Bytes}

theorem Holds.empty {state : AttachV2ReloadState} {viewport : Option ℕ} :
    (⟨state, [], viewport⟩ : ReloadCoordinator).Holds output :=
  ⟨nofun, fun _ => rfl⟩

theorem Holds.start (h : c.Holds output) (reloadId : ℕ) : (c.start reloadId).Holds output := by
  unfold ReloadCoordinator.start
  split
  · exact h
  · exact .empty

theorem start_active (c : ReloadCoordinator) (reloadId : ℕ) :
    (c.start reloadId).activeReloadId = some reloadId := by
  unfold ReloadCoordinator.start
  split
  · next h => exact h
  · rfl

theorem markDone_cases (c : ReloadCoordinator) (reloadId : ℕ) :
    (c.markDone reloadId).1 = true ∧ (c.markDone reloadId).2.activeReloadId = some reloadId ∧
        c.activeReloadId = some reloadId ∨
      (c.markDone reloadId).1 = false ∧ (c.markDone reloadId).2 = c := by
  unfold markDone AttachV2ReloadState.markDone
  by_cases hloading : c.state = .loading reloadId
  · rw [if_pos hloading]
    refine .inl ⟨rfl, rfl, ?_⟩
    rw [activeReloadId, hloading]
    rfl
  · rw [if_neg hloading]
    by_cases hawaiting : c.state = .awaitingViewport reloadId
    · refine .inl ⟨decide_eq_true hawaiting, ?_, ?_⟩
      · rw [activeReloadId, hawaiting]
        rfl
      · rw [activeReloadId, hawaiting]
        rfl
    · exact .inr ⟨decide_eq_false hawaiting, rfl⟩

theorem Holds.markDone (h : c.Holds output) (reloadId : ℕ) :
    (c.markDone reloadId).2.Holds output := by
  refine ⟨h.pieces, fun hnone => ?_⟩
  rcases c.markDone_cases reloadId with ⟨-, hactive, -⟩ | ⟨-, hsame⟩
  · rw [hactive] at hnone
    cases hnone
  · rw [hsame] at hnone ⊢
    exact h.idle hnone

theorem markCancelled_false {reloadId : ℕ} (h : (c.markCancelled reloadId).1 = false) :
    (c.markCancelled reloadId).2.activeReloadId = c.activeReloadId := by
  unfold markCancelled AttachV2ReloadState.markCancelled at h ⊢
  split at h
  · cases h
  · next hother =>
      rw [if_neg hother]
      rfl

theorem Holds.handleLiveOutput (h : c.Holds output) {startSeq endSeq : ℕ} {bytes : Bytes}
    (hbytes : bytes = slice output startSeq endSeq) :
    (c.handleLiveOutput startSeq endSeq bytes).Holds output := by
  unfold ReloadCoordinator.handleLiveOutput
  split
  · next hactive =>
      refine ⟨fun live hlive => ?_, fun hnone => ?_⟩
      · rcases mem_append.mp hlive with hold | hnew
        · exact h.pieces live hold
        · rw [mem_singleton.mp hnew]
          exact hbytes
      · have hidle : c.activeReloadId = none := hnone
        rw [hidle] at hactive
        cases hactive
  · exact h

theorem handleLiveOutput_active (c : ReloadCoordinator) (startSeq endSeq : ℕ) (bytes : Bytes) :
    (c.handleLiveOutput startSeq endSeq bytes).activeReloadId = c.activeReloadId := by
  unfold ReloadCoordinator.handleLiveOutput
  split
  · rfl
  · rfl

/-- Frames that follow each other from a position on, with gaps between them
perhaps. -/
def Follow (output : Bytes) : ℕ → List QueuedLiveOutput → Prop
  | _, [] => True
  | covered, live :: rest =>
    covered ≤ live.startSeq ∧ live.startSeq ≤ live.endSeq ∧
      live.bytes = slice output live.startSeq live.endSeq ∧ Follow output live.endSeq rest

variable {queue : List QueuedLiveOutput}

theorem Follow.mono {covered covered' : ℕ} (h : Follow output covered queue)
    (hle : covered' ≤ covered) : Follow output covered' queue := by
  cases queue with
  | nil => trivial
  | cons live rest =>
    obtain ⟨hstart, hrest⟩ := h
    exact ⟨hle.trans hstart, hrest⟩

theorem follow_drain (covered : ℕ)
    (h : ∀ live ∈ queue, live.bytes = slice output live.startSeq live.endSeq) :
    Follow output covered (drain covered queue) := by
  induction queue generalizing covered with
  | nil => trivial
  | cons live rest ih =>
    have hrest : ∀ live ∈ rest, live.bytes = slice output live.startSeq live.endSeq :=
      fun other hother => h other (mem_cons_of_mem _ hother)
    have hlive := h live mem_cons_self
    rw [drain]
    by_cases hcovered : live.endSeq ≤ covered
    · rw [if_pos hcovered]
      exact ih covered hrest
    · rw [if_neg hcovered]
      have hlt : covered ≤ live.endSeq := Nat.le_of_not_le hcovered
      by_cases hbefore : live.startSeq < covered
      · simp only [if_pos hbefore]
        have htrim : live.bytes.drop (covered - live.startSeq) =
            slice output covered live.endSeq := by
          rw [hlive, drop_slice, Nat.add_sub_cancel' (Nat.le_of_lt hbefore)]
        split
        · exact (ih live.endSeq hrest).mono hlt
        · exact ⟨Nat.le_refl _, hlt, htrim, ih live.endSeq hrest⟩
      · simp only [if_neg hbefore]
        split
        · exact (ih live.endSeq hrest).mono hlt
        · next hbytes =>
            have hordered : live.startSeq ≤ live.endSeq :=
              le_of_slice_ne_nil fun hnil => hbytes (hlive.trans hnil)
            exact ⟨Nat.le_of_not_lt hbefore, hordered, hlive, ih live.endSeq hrest⟩

theorem Holds.finish (h : c.Holds output) (coversLiveSeq : ℕ) :
    (c.finishReloadAfterViewport coversLiveSeq).2.Holds output ∧
      Follow output coversLiveSeq (c.finishReloadAfterViewport coversLiveSeq).1 := by
  have hpieces : ∀ live ∈ (c.recordPostReloadViewport coversLiveSeq).queuedLive,
      live.bytes = slice output live.startSeq live.endSeq := by
    unfold recordPostReloadViewport
    split
    · exact h.pieces
    · exact h.pieces
  refine ⟨⟨nofun, fun _ => rfl⟩, ?_⟩
  exact (follow_drain _ hpieces).mono (Nat.le_max_left _ _)

end ReloadCoordinator

/-! ## Every step keeps the screen -/

namespace AttachScreen

variable {m : AttachMoment} {i : ℕ} {s s' : AttachScreen} {output : Bytes}

structure Sound (output : Bytes) (s : AttachScreen) : Prop where
  logged : s.Logged output
  queue : s.reload.Holds output
  shows : s.resyncPending = false → s.reload.activeReloadId = none → s.Shows output

def seen (s : AttachScreen) : ℕ × Bool × Option ℕ × ReloadCoordinator × List AttachAct :=
  (s.coveredLiveSeq, s.resyncPending, s.postReloadDedupUntil, s.reload, s.acts)

theorem Sound.unseen (h : s.Sound output) (hseen : s'.seen = s.seen) : s'.Sound output := by
  simp only [seen, Prod.mk.injEq] at hseen
  obtain ⟨hcovered, hresync, hdedup, hreload, hacts⟩ := hseen
  obtain ⟨⟨hbounded, hwindow, hdrops⟩, hqueue, hshows⟩ := h
  refine ⟨⟨?_, ?_, ?_⟩, ?_, ?_⟩
  · rwa [hacts, hcovered]
  · rwa [hdedup, hacts]
  · unfold DropsDuplicates
    rwa [hacts]
  · rwa [hreload]
  · unfold Shows
    rwa [hresync, hreload, hacts, hcovered]

theorem Sound.new (cols rows : ℕ) : (AttachScreen.new cols rows).Sound output :=
  ⟨⟨nofun, nofun, fun _ _ _ _ _ _ hacts => absurd hacts (by simp [AttachScreen.new])⟩, .empty,
    fun _ _ => rfl⟩

variable (h : s.Sound output)
include h

theorem Sound.sinkReload : s.sinkReload.Sound output := by
  refine ⟨{ h.logged with }, h.queue.start _, fun _ hnone => ?_⟩
  have hactive : s.sinkReload.reload.activeReloadId = some _ :=
    ReloadCoordinator.start_active s.reload _
  rw [hactive] at hnone
  cases hnone

theorem Sound.sinkMayReload : (sinkMayReload m i s).Sound output := by
  unfold AttachScreen.sinkMayReload
  split
  · exact h.sinkReload
  · exact h

variable {reload : ReloadCoordinator} {bytes : Bytes}

theorem Sound.sgrReset (hqueue : reload.Holds output) {reloadId : ℕ}
    (hactive : reload.activeReloadId = some reloadId) :
    ({ s with reload := reload }.record .sgrReset).Sound output := by
  have hlogged : (s.record .sgrReset).Logged output := h.logged.record (.inl rfl) nofun
  refine ⟨{ hlogged with }, hqueue, fun _ hnone => ?_⟩
  have hnone' : reload.activeReloadId = none := hnone
  rw [hactive] at hnone'
  cases hnone'

theorem Sound.resync (hqueue : reload.Holds output) :
    { s with reload := reload, resyncPending := true }.Sound output :=
  ⟨{ h.logged with }, hqueue, nofun⟩

theorem Sound.controlFrame (frame : AttachV2ServerFrame) :
    Ensures (handleAttachV2ControlFrame m s frame) (Sound output) := by
  cases frame with
  | reloadStarted attachId reloadId =>
    have hnext := h.sgrReset (h.queue.start reloadId) (ReloadCoordinator.start_active _ _)
    exact .bind (ensures_write (ensures_setBar hnext))
  | reloadDone attachId reloadId =>
    simp only [handleAttachV2ControlFrame]
    rcases s.reload.markDone_cases reloadId with ⟨hdone, hactive, -⟩ | ⟨hdone, hsame⟩
    · have hnext := h.sgrReset (h.queue.markDone reloadId) hactive
      rw [if_pos hdone]
      exact .bind (ensures_write (ensures_setBar hnext))
    · rw [if_neg (Bool.eq_false_iff.mp hdone), hsame]
      exact .ok h
  | reloadCancelled attachId reloadId =>
    simp only [handleAttachV2ControlFrame]
    split
    · exact ensures_setBar (h.resync .empty)
    · next hmarked =>
        refine .ok ⟨{ h.logged with }, .empty, fun hresync hnone => h.shows hresync ?_⟩
        rw [← ReloadCoordinator.markCancelled_false (Bool.eq_false_iff.mpr hmarked)]
        exact hnone
  | backpressureNotice | resyncRequired => exact ensures_setBar (h.resync h.queue)
  | exit | error => exact .error
  | heartbeat | attachReady | preludeChunk | viewportSnapshot | liveOutput | reloadChunk =>
    exact .ok h

variable {attachId : AttachId}

theorem Sound.controlArm (read : AttachV2Read) :
    Ensures (controlArm attachId m s read) (Sound output) := by
  cases read with
  | ended | failed => exact .error
  | frame frame =>
    simp only [AttachScreen.controlArm]
    split
    · refine .bind fun s₁ hframe => ?_
      have hsound : (AttachScreen.sinkMayReload m 0 s₁).Sound output :=
        (h.controlFrame frame s₁ hframe).sinkMayReload
      beta_reduce
      split
      · exact ensures_requestViewport (hsound.unseen rfl)
      · exact .ok (hsound.unseen rfl)
    · exact .ok h

omit h

theorem Drawn.renderQueued {queue : List QueuedLiveOutput} (h : s.Drawn output)
    (hqueue : ReloadCoordinator.Follow output s.coveredLiveSeq queue) :
    Ensures (renderQueued m i s queue) fun s' => s'.Logged output ∧ s'.reload = s.reload ∧
      (s'.resyncPending = false → s'.Shows output) := by
  induction queue generalizing s i with
  | nil => exact .ok ⟨h.logged, rfl, fun _ => h.shows⟩
  | cons live rest ih =>
    obtain ⟨hstart, hend, hbytes, hrest⟩ := hqueue
    rw [AttachScreen.renderQueued]
    split_ifs with hgap hduplicate
    · exact ensures_requestViewport ⟨{ h.logged with }, rfl, nofun⟩
    all_goals
      have heq : live.startSeq = s.coveredLiveSeq := Nat.le_antisymm (Nat.le_of_not_lt hgap) hstart
      have hle : s.coveredLiveSeq ≤ live.endSeq := heq ▸ hend
      rw [heq] at hbytes
    · rw [heq]
      exact ih (h.suppress hle hbytes hduplicate) hrest
    · exact .bind (ensures_write (ih (h.live hle hbytes) hrest))

theorem Drawn.sinkMayReload (h : s.Drawn output) : (sinkMayReload m i s).Drawn output := by
  unfold AttachScreen.sinkMayReload
  split
  · exact ⟨{ h.logged with }, h.shows⟩
  · exact h

theorem sinkMayReload_queue (h : s.reload.Holds output) :
    (sinkMayReload m i s).reload.Holds output := by
  unfold AttachScreen.sinkMayReload
  split
  · exact h.start _
  · exact h

theorem sinkMayReload_covered : (sinkMayReload m i s).coveredLiveSeq = s.coveredLiveSeq := by
  unfold AttachScreen.sinkMayReload
  split
  · rfl
  · rfl

include h

theorem Sound.renderViewport {generation coversLiveSeq : ℕ}
    (hfresh : s.coveredLiveSeq ≤ coversLiveSeq) :
    Ensures (renderViewport m s generation coversLiveSeq bytes) (Sound output) := by
  have hmax : max s.coveredLiveSeq coversLiveSeq = coversLiveSeq := Nat.max_eq_right hfresh
  refine .bind (ensures_write ?_)
  obtain ⟨s₁, hs₁⟩ : ∃ s₁, s₁ = AttachScreen.record { s with
    viewportDeferred := false
    lastViewportGeneration := generation
    coveredLiveSeq := max s.coveredLiveSeq coversLiveSeq
    resyncPending := false
    viewportSeen := true } (.viewport coversLiveSeq bytes) := ⟨_, rfl⟩
  have hcovered₁ : s₁.coveredLiveSeq = coversLiveSeq := by
    rw [hs₁]
    exact hmax
  have hdrawn : s₁.Drawn output := by
    rw [hs₁]
    refine Logged.viewport ?_ bytes hmax
    refine ⟨fun gap hgap => ?_, h.logged.window, h.logged.drops⟩
    exact (h.logged.bounded gap hgap).trans (Nat.le_max_left _ _)
  have hqueue : s₁.reload.Holds output := by
    rw [hs₁]
    exact h.queue
  rw [← hs₁]
  clear hs₁
  dsimp only
  -- the sink may start a reload twice before the queue is looked at
  have hdrawn₂ : (AttachScreen.sinkMayReload m 1 (AttachScreen.sinkMayReload m 0 s₁)).Drawn output :=
    hdrawn.sinkMayReload.sinkMayReload
  have hqueue₂ := sinkMayReload_queue (m := m) (i := 1)
    (sinkMayReload_queue (m := m) (i := 0) hqueue)
  have hcovered₂ : (AttachScreen.sinkMayReload m 1
      (AttachScreen.sinkMayReload m 0 s₁)).coveredLiveSeq = coversLiveSeq := by
    rw [sinkMayReload_covered, sinkMayReload_covered, hcovered₁]
  generalize (AttachScreen.sinkMayReload m 0 s₁).reload.state.isAwaitingViewport = reloaded
  generalize AttachScreen.sinkMayReload m 1 (AttachScreen.sinkMayReload m 0 s₁) = s₂ at *
  obtain ⟨hfinished, hfollow⟩ := hqueue₂.finish coversLiveSeq
  generalize s₂.reload.finishReloadAfterViewport coversLiveSeq = finished at *
  have hdrawn₃ : { s₂ with reload := finished.2 }.Drawn output :=
    ⟨{ hdrawn₂.logged with }, hdrawn₂.shows⟩
  rw [← hcovered₂] at hfollow
  intro s' hrest
  cases reloaded with
  | true =>
    obtain ⟨hlogged, hreload, hshows⟩ :=
      (hdrawn₃.openWindow (m.now 0)).renderQueued hfollow s' hrest
    exact ⟨hlogged, hreload ▸ hfinished, fun hresync _ => hshows hresync⟩
  | false =>
    obtain ⟨hlogged, hreload, hshows⟩ := hdrawn₃.renderQueued hfollow s' hrest
    exact ⟨hlogged, hreload ▸ hfinished, fun hresync _ => hshows hresync⟩

theorem Sound.viewportArm {read : AttachV2Read}
    (hfresh : s.Fresh attachId output (m, .viewport read)) :
    Ensures (viewportArm attachId m s read) (Sound output) := by
  unfold AttachScreen.viewportArm
  split
  · next frameAttachId generation coversLiveSeq cols rows resizeId payload =>
      split
      · next hid =>
          split
          · next hrender =>
              cases payload with
              | none => exact .error
              | some bytes => exact h.renderViewport (hfresh hid hrender)
          · exact .ok (h.unseen rfl)
          · split
            · exact .ok (h.unseen rfl)
            · exact .ok h
      · exact .ok h
  · exact .ok h
  · exact .ok (h.unseen rfl)
  · exact .error

theorem Sound.preludeOutput (bytes : Bytes) : (s.record (.preludeOutput bytes)).Sound output := by
  refine ⟨h.logged.record (.inl rfl) nofun, h.queue, fun hresync hnone => ?_⟩
  show drawnOutput output (s.acts ++ [AttachAct.preludeOutput bytes]) =
    without output s.coveredLiveSeq (droppedSince (s.acts ++ [AttachAct.preludeOutput bytes]))
  rw [drawnOutput_concat, droppedSince_concat]
  exact h.shows hresync hnone

theorem Sound.historyArm (read : AttachV2Read) :
    Ensures (historyArm attachId m s read) (Sound output) := by
  unfold AttachScreen.historyArm
  split
  · next frameAttachId payload =>
      split
      · cases payload with
        | none => exact .error
        | some bytes => exact ensures_write (h.preludeOutput bytes)
      · exact .ok h
  · split
    · exact .error
    · exact .ok h
  · exact .ok h
  · exact .ok (h.unseen rfl)
  · exact .error

theorem Sound.renderLive {startSeq endSeq : ℕ} (hresync : s.resyncPending = false)
    (hidle : s.reload.activeReloadId = none) (hbytes : bytes = slice output startSeq endSeq)
    (hstart : startSeq ≤ s.coveredLiveSeq) (hend : s.coveredLiveSeq < endSeq) :
    Ensures (renderLive m s startSeq endSeq bytes) (Sound output) := by
  have hle : s.coveredLiveSeq ≤ endSeq := Nat.le_of_lt hend
  have hrest : bytes.drop (s.coveredLiveSeq - startSeq) = slice output s.coveredLiveSeq endSeq := by
    rw [hbytes, drop_slice, Nat.add_sub_cancel' hstart]
  have hdrawn : s.Drawn output := ⟨h.logged, h.shows hresync hidle⟩
  simp only [AttachScreen.renderLive]
  generalize bytes.drop (s.coveredLiveSeq - startSeq) = rest at hrest ⊢
  by_cases hduplicate : s.isDuplicate (m.now 0) rest = true
  · rw [if_pos hduplicate]
    have hnext := hdrawn.suppress hle hrest hduplicate
    exact .ok ⟨hnext.logged, h.queue, fun _ _ => hnext.shows⟩
  · rw [if_neg hduplicate]
    have hnext := hdrawn.live hle hrest
    refine ensures_write ?_
    split
    · -- the window is forgotten once it is over
      exact ⟨⟨hnext.logged.bounded, nofun, hnext.logged.drops⟩, h.queue, fun _ _ => hnext.shows⟩
    · exact ⟨hnext.logged, h.queue, fun _ _ => hnext.shows⟩

theorem Sound.liveArm {read : AttachV2Read} (hfresh : s.Fresh attachId output (m, .live read)) :
    Ensures (liveArm attachId m s read) (Sound output) := by
  unfold AttachScreen.liveArm
  split
  · next frameAttachId startSeq endSeq payload =>
      split_ifs with hlive hactive hgap
      · cases payload with
        | none => exact .error
        | some bytes =>
          refine .ok ⟨{ h.logged with }, h.queue.handleLiveOutput (hfresh hlive.1), ?_⟩
          intro _ hnone
          rw [ReloadCoordinator.handleLiveOutput_active] at hnone
          rw [hnone] at hactive
          cases hactive
      · exact ensures_requestViewport ((h.resync h.queue).unseen rfl)
      · obtain ⟨hid, hresync, hend⟩ := hlive
        cases payload with
        | none => exact .error
        | some bytes =>
          exact h.renderLive hresync (Option.not_isSome_iff_eq_none.mp hactive) (hfresh hid)
            (Nat.le_of_not_lt hgap) hend
      · exact .ok h
  · exact .ok h
  · exact .ok (h.unseen rfl)
  · exact .error

theorem Sound.step {attachId : AttachId} {event : AttachMoment × AttachScreenEvent}
    (hfresh : s.Fresh attachId output event) : Ensures (step attachId s event) (Sound output) := by
  obtain ⟨m, event⟩ := event
  cases event with
  | control read => exact h.controlArm read
  | viewport read =>
    rw [AttachScreen.step]
    split
    · exact h.viewportArm hfresh
    · exact .ok h
  | history read =>
    rw [AttachScreen.step]
    split
    · exact h.historyArm read
    · exact .ok h
  | live read =>
    rw [AttachScreen.step]
    split
    · exact h.liveArm hfresh
    · exact .ok h
  | input event =>
    rcases event with _ | event
    · exact .error
    · cases event with
      | detached | closed | quitReconnect | sinkFailed => exact .error
      | retryNow | bufferFull => exact .ok h
  | signal => exact .error
  | sinkResize cols rows => exact .ok (h.unseen rfl)
  | sinkReload => exact .ok h.sinkReload

end AttachScreen

/-- **The screen shows the output.** Apart from the frames that the duplicate filter
drops nothing is missing. -/
theorem attach_screen_shows (attachId : AttachId) (output : Bytes) (cols rows : ℕ)
    (events : List (AttachMoment × AttachScreenEvent)) (s : AttachScreen)
    (hfresh : Run.Allowed (AttachScreen.step attachId) (AttachScreen.Fresh attachId output)
      (.new cols rows) events)
    (hrun : AttachScreen.run attachId cols rows events = .ok s) (hresync : s.resyncPending = false)
    (hreload : s.reload.activeReloadId = none) :
    drawnOutput output s.acts = without output s.coveredLiveSeq (droppedSince s.acts) ∧
      s.DropsDuplicates output := by
  have hsound : s.Sound output := hfresh.invariant
    (fun _ _ next hs hok => AttachScreen.Sound.step hs hok next) (.new cols rows) hrun
  exact ⟨hsound.shows hresync hreload, hsound.logged.drops⟩

def calm : AttachMoment := ⟨fun _ => 0, fun _ => true, true, fun _ => false⟩

def reloadedOutput : Bytes := [0x61, 0x62, 0x63, 0x64]

def reloadedEvents : List (AttachMoment × AttachScreenEvent) :=
  [(calm, .live (.frame (.liveOutput [] 0 1 (some [0x61])))), (calm, .sinkReload),
    (calm, .control (.frame (.reloadDone [] 1))),
    (calm, .live (.frame (.liveOutput [] 1 3 (some [0x62, 0x63])))),
    (calm, .viewport (.frame (.viewportSnapshot [] 1 2 80 24 0 (some [])))),
    (calm, .live (.frame (.liveOutput [] 3 4 (some [0x64]))))]

theorem attach_screen_shows_reload :
    ∃ s, AttachScreen.run [] 80 24 reloadedEvents = .ok s ∧ s.coveredLiveSeq = 4 ∧
      drawnOutput reloadedOutput s.acts =
        without reloadedOutput s.coveredLiveSeq (droppedSince s.acts) ∧
      s.DropsDuplicates reloadedOutput :=
  ⟨_, rfl, rfl, attach_screen_shows [] reloadedOutput 80 24 reloadedEvents _
    ⟨fun _ => rfl, trivial, trivial, fun _ => rfl, fun _ _ => by decide, fun _ => rfl, trivial⟩
    rfl rfl rfl⟩

def overtakenEvents : List (AttachMoment × AttachScreenEvent) :=
  [(calm, .live (.frame (.liveOutput [] 0 1 (some [0x61])))),
    (calm, .viewport (.frame (.viewportSnapshot [] 1 0 80 24 0 (some []))))]

def clearedEvents : List (AttachMoment × AttachScreenEvent) :=
  [(calm, .sinkReload), (calm, .control (.frame (.reloadDone [] 1))),
    (calm, .viewport (.frame (.viewportSnapshot [] 1 0 80 24 0 (some [])))),
    (calm, .live (.frame (.liveOutput [] 0 16 (some (screenClear ++ [0x61])))))]

theorem attach_screen_loses_output :
    (∃ s, AttachScreen.run [] 80 24 overtakenEvents = .ok s ∧ s.resyncPending = false ∧
        s.reload.activeReloadId = none ∧ s.coveredLiveSeq = 1 ∧
        drawnOutput [0x61] s.acts ≠ [0x61].take s.coveredLiveSeq) ∧
      ∃ s, AttachScreen.run [] 80 24 clearedEvents = .ok s ∧ s.resyncPending = false ∧
        s.reload.activeReloadId = none ∧ s.coveredLiveSeq = 16 ∧
        drawnOutput (screenClear ++ [0x61]) s.acts ≠
          (screenClear ++ [0x61]).take s.coveredLiveSeq :=
  ⟨⟨_, rfl, rfl, rfl, rfl, by decide⟩, ⟨_, rfl, rfl, rfl, rfl, by decide⟩⟩

end Portl
