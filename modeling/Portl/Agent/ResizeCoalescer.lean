import Mathlib.Algebra.Order.BigOperators.Group.List
import Mathlib.Algebra.Order.Ring.Nat
import Mathlib.Data.List.Basic
import Mathlib.Tactic.Common

/-!
# Coalescing resizes

`ResizeCoalescer` of `shell_handler/pumps.rs`. The sender puts each resize into a slot
and spawns a task to drain it unless one is scheduled; a task sends what it finds to
the pty until the slot is empty, gives the schedule up, and looks once more, since the
sender may have come in between.

A step is one access to the slot, the flag or the channel. The slot's mutex is held over
one step only: on the last look its guard ends with the first operand of `||`, before the
flag is swapped.
-/

namespace Portl

open List

namespace ResizeCoalescer

/-- `PtyCommand::Resize`. -/
structure PtyResize where
  rows : UInt16
  cols : UInt16
deriving DecidableEq

/-- Where a task of `drain_resize_coalescer` is. -/
inductive Drain where
  /-- before it takes from the slot -/
  | top
  /-- before `tx.send` -/
  | sending (command : PtyResize)
  /-- sent, before it looks whether the slot was filled again -/
  | recheck
  /-- before `scheduled.store(false)` -/
  | release
  /-- the schedule given up, before the last look at the slot -/
  | lastLook
  /-- the slot was full, before `scheduled.swap(true)` -/
  | swapping
  /-- the channel was closed, before `scheduled.store(false)` -/
  | failed
  | finished
deriving DecidableEq

/-- `calls` and `delivered` are histories: the calls of `send`, and what the channel
took. `midSend` says that the sender has filled the slot and not yet looked at the
flag. -/
structure State where
  latest : Option PtyResize
  scheduled : Bool
  midSend : Bool
  drains : List Drain
  closed : Bool
  calls : List PtyResize
  delivered : List PtyResize
deriving DecidableEq

def new : State := ⟨none, false, false, [], false, [], []⟩

def drainStep (s : State) : Drain → State × Drain
  | .top =>
    match s.latest with
    | some command => ({ s with latest := none }, .sending command)
    | none => (s, .release)
  | .sending command =>
    if s.closed then (s, .failed)
    else ({ s with delivered := s.delivered ++ [command] }, .recheck)
  | .recheck => if s.latest.isSome then (s, .top) else (s, .release)
  | .release => ({ s with scheduled := false }, .lastLook)
  | .lastLook => if s.latest.isNone then (s, .finished) else (s, .swapping)
  | .swapping => ({ s with scheduled := true }, if s.scheduled then .finished else .top)
  | .failed => ({ s with scheduled := false }, .finished)
  | .finished => (s, .finished)

def State.withDrains (s : State) (drains : List Drain) : State := { s with drains := drains }

inductive Action where
  /-- `send` fills the slot -/
  | store (command : PtyResize)
  /-- `send` swaps the flag, and spawns a task if it was down -/
  | schedule
  /-- a step of the task with this number -/
  | drain (i : ℕ)
  /-- the pty drops its end of the channel -/
  | close
deriving DecidableEq

def step (s : State) : Action → State
  | .store command =>
    { s with latest := some command, midSend := true, calls := s.calls ++ [command] }
  | .schedule =>
    { s with
      scheduled := true
      midSend := false
      drains := if s.scheduled then s.drains else s.drains ++ [Drain.top] }
  | .drain i =>
    match s.drains[i]? with
    | some pc => (drainStep s pc).1.withDrains (s.drains.set i (drainStep s pc).2)
    | none => s
  | .close => { s with closed := true }

/-! ## Invariants -/

/-- The task has the schedule: while it is at one of these places, the flag is up. -/
def Drain.owns : Drain → Bool
  | .lastLook | .swapping | .finished => false
  | _ => true

def Drain.held : Drain → Option PtyResize
  | .sending command => some command
  | _ => none

def State.line (s : State) : List PtyResize :=
  s.delivered ++ s.drains.filterMap Drain.held ++ s.latest.toList

structure Inv (s : State) : Prop where
  /-- one task has the schedule while the flag is up, and none while it is down -/
  owner : s.drains.countP Drain.owns = if s.scheduled then 1 else 0
  /-- nothing on its way is out of order or made up -/
  order : s.line.Sublist s.calls
  /-- the newest call is the last on its way -/
  newest : s.closed = false → s.line.getLast? = s.calls.getLast?
  /-- a full slot is seen by someone -/
  awake : s.closed = false → s.latest.isSome = true →
    s.midSend = true ∨ s.scheduled = true ∨ Drain.lastLook ∈ s.drains ∨ Drain.swapping ∈ s.drains
  failed : Drain.failed ∈ s.drains → s.closed = true

theorem Inv.new : Inv new where
  owner := rfl
  order := List.Sublist.refl _
  newest _ := rfl
  awake _ h := absurd h Bool.false_ne_true
  failed h := absurd h not_mem_nil

/-! ## One step of a task -/

section Drain

variable {s : State} {l₁ l₂ : List Drain} {pc : Drain}

theorem step_drain {i : ℕ} (h : s.drains[i]? = some pc) :
    ∃ l₁ l₂, s.drains = l₁ ++ pc :: l₂ ∧
      step s (.drain i) = (drainStep s pc).1.withDrains (l₁ ++ (drainStep s pc).2 :: l₂) := by
  obtain ⟨hi, hpc⟩ := List.getElem?_eq_some_iff.mp h
  refine ⟨s.drains.take i, s.drains.drop (i + 1), ?_, ?_⟩
  · rw [← hpc, getElem_cons_drop, take_append_drop]
  · have hset := set_eq_take_append_cons_drop (l := s.drains) (i := i)
      (a := (drainStep s pc).2)
    rw [if_pos hi] at hset
    simp [step, h, hset]

theorem held_eq_nil {l : List Drain} (h : l.countP Drain.owns = 0) :
    l.filterMap Drain.held = [] := by
  rw [filterMap_eq_nil_iff]
  intro pc hpc
  have hnot := countP_eq_zero.mp h pc hpc
  cases pc with
  | sending command => exact absurd rfl hnot
  | _ => rfl

theorem line_split (hs : s.drains = l₁ ++ pc :: l₂) :
    s.line = s.delivered ++ (l₁.filterMap Drain.held ++ pc.held.toList ++ l₂.filterMap Drain.held) ++
      s.latest.toList := by
  unfold State.line
  rw [hs, filterMap_append, filterMap_cons]
  cases pc.held with
  | none | some => simp

theorem Inv.alone (h : Inv s) (hs : s.drains = l₁ ++ pc :: l₂) (hpc : pc.owns = true) :
    s.scheduled = true ∧ l₁.filterMap Drain.held = [] ∧ l₂.filterMap Drain.held = [] := by
  have hcount := h.owner
  rw [hs, countP_append, countP_cons, hpc] at hcount
  grind [held_eq_nil]

theorem Inv.drain_line (h : Inv s) (hs : s.drains = l₁ ++ pc :: l₂) :
    ((drainStep s pc).1.withDrains (l₁ ++ (drainStep s pc).2 :: l₂)).line = s.line ∨
      s.closed = true ∧
        ((drainStep s pc).1.withDrains (l₁ ++ (drainStep s pc).2 :: l₂)).line.Sublist s.line := by
  have halone := h.alone hs
  rw [line_split rfl, line_split hs]
  obtain ⟨latest, scheduled, midSend, drains, closed, calls, delivered⟩ := s
  cases pc with
  | top =>
    obtain ⟨-, hl₁, hl₂⟩ := halone rfl
    rw [hl₁, hl₂]
    cases latest with
    | none => exact .inl rfl
    | some command => exact .inl (by simp [drainStep, Drain.held, State.withDrains])
  | sending command =>
    obtain ⟨-, hl₁, hl₂⟩ := halone rfl
    rw [hl₁, hl₂]
    cases closed with
    | true => exact .inr ⟨rfl, by simp [drainStep, Drain.held, State.withDrains]⟩
    | false => exact .inl (by simp [drainStep, Drain.held, State.withDrains])
  | recheck => cases latest <;> exact .inl rfl
  | release => exact .inl rfl
  | lastLook => cases latest <;> exact .inl rfl
  | swapping => cases scheduled <;> exact .inl rfl
  | failed | finished => exact .inl rfl

theorem drainStep_frame (s : State) (pc : Drain) :
    (drainStep s pc).1.calls = s.calls ∧ (drainStep s pc).1.closed = s.closed ∧
      (drainStep s pc).1.midSend = s.midSend := by
  cases pc <;> grind [drainStep]

/-- **A step of a task keeps the invariants.** -/
theorem Inv.drain (h : Inv s) (hs : s.drains = l₁ ++ pc :: l₂) :
    Inv ((drainStep s pc).1.withDrains (l₁ ++ (drainStep s pc).2 :: l₂)) := by
  have hline := h.drain_line hs
  have hframe := drainStep_frame s pc
  have hflag := fun hpc => (h.alone hs hpc).1
  obtain ⟨howner, horder, hnewest, hawake, hfailed⟩ := h
  rw [hs] at howner hawake hfailed
  constructor
  · clear hline
    rw [State.withDrains, countP_append, countP_cons]
    rw [countP_append, countP_cons] at howner
    cases pc <;> grind [drainStep, Drain.owns]
  · grind [State.withDrains, List.Sublist.trans]
  · grind [State.withDrains]
  · clear hline howner horder
    -- a task gives up with the slot full only where the channel is closed
    cases pc <;> simp only [drainStep, State.withDrains] <;>
      grind [Drain.owns, Option.isNone_iff_eq_none]
  · clear hline
    cases pc <;> grind [drainStep, State.withDrains]

end Drain

/-! ## Runs -/

variable {s : State}

theorem Inv.store (h : Inv s) (command : PtyResize) : Inv (step s (.store command)) where
  owner := h.owner
  order := by
    have hbefore : (s.delivered ++ s.drains.filterMap Drain.held).Sublist s.calls :=
      (sublist_append_left _ _).trans h.order
    exact hbefore.append (List.Sublist.refl [command])
  newest _ := by
    show (s.delivered ++ s.drains.filterMap Drain.held ++ [command]).getLast? =
      (s.calls ++ [command]).getLast?
    rw [List.getLast?_concat, List.getLast?_concat]
  awake _ _ := .inl rfl
  failed := h.failed

theorem Inv.schedule (h : Inv s) : Inv (step s .schedule) := by
  cases hflag : s.scheduled with
  | true =>
    have hstep : step s .schedule = { s with scheduled := true, midSend := false } := by
      simp [step, hflag]
    have howner := h.owner
    rw [hflag] at howner
    rw [hstep]
    exact ⟨howner, h.order, h.newest, fun _ _ => .inr (.inl rfl), h.failed⟩
  | false =>
    have hstep : step s .schedule =
        { s with scheduled := true, midSend := false, drains := s.drains ++ [Drain.top] } := by
      simp [step, hflag]
    have howner := h.owner
    rw [hflag] at howner
    have hline : (step s .schedule).line = s.line := by
      rw [hstep]
      unfold State.line
      rw [filterMap_append]
      simp [Drain.held]
    rw [hstep] at hline ⊢
    refine ⟨?_, ?_, ?_, fun _ _ => .inr (.inl rfl), ?_⟩
    · show (s.drains ++ [Drain.top]).countP Drain.owns = 1
      rw [countP_append, howner]
      rfl
    · rw [hline]
      exact h.order
    · rw [hline]
      exact h.newest
    · intro hmem
      rcases mem_append.mp hmem with hold | hnew
      · exact h.failed hold
      · cases mem_singleton.mp hnew

/-- **Every step keeps the invariants.** -/
theorem Inv.step {s : State} (h : Inv s) (a : Action) : Inv (step s a) := by
  cases a with
  | store command => exact h.store command
  | schedule => exact h.schedule
  | drain i =>
    cases hpc : s.drains[i]? with
    | none =>
      have hstep : ResizeCoalescer.step s (.drain i) = s := by simp [ResizeCoalescer.step, hpc]
      rw [hstep]
      exact h
    | some pc =>
      obtain ⟨l₁, l₂, hs, hstep⟩ := step_drain hpc
      rw [hstep]
      exact h.drain hs
  | close => exact ⟨h.owner, h.order, nofun, nofun, fun _ => rfl⟩

def Action.call : Action → Option PtyResize
  | .store command => some command
  | _ => none

theorem step_calls (s : State) (a : Action) : (step s a).calls = s.calls ++ a.call.toList := by
  cases a with
  | drain i =>
    show (step s (.drain i)).calls = s.calls ++ []
    rw [append_nil]
    cases hpc : s.drains[i]? with
    | none => simp [step, hpc]
    | some pc =>
      obtain ⟨l₁, l₂, hs, hstep⟩ := step_drain hpc
      rw [hstep]
      exact (drainStep_frame s pc).1
  | store command => rfl
  | schedule | close => exact (append_nil _).symm

theorem foldl_step_calls (as : List Action) (s : State) :
    (as.foldl step s).calls = s.calls ++ as.filterMap Action.call := by
  induction as generalizing s with
  | nil => exact (append_nil _).symm
  | cons a as ih =>
    rw [foldl_cons, ih, step_calls, filterMap_cons, append_assoc]
    cases a.call <;> rfl

def State.Quiet (s : State) : Prop := s.midSend = false ∧ ∀ pc ∈ s.drains, pc = .finished

instance (s : State) : Decidable s.Quiet :=
  have := List.decidableBAll (fun pc : Drain => pc = .finished) s.drains
  inferInstanceAs (Decidable (_ ∧ _))

theorem Inv.line_of_quiet (h : Inv s) (hquiet : s.Quiet) (hopen : s.closed = false) :
    s.line = s.delivered := by
  obtain ⟨hidle, hdone⟩ := hquiet
  have hcount : s.drains.countP Drain.owns = 0 := by
    refine countP_eq_zero.mpr fun pc hpc => ?_
    rw [hdone pc hpc]
    exact Bool.false_ne_true
  have hflag : s.scheduled ≠ true := by
    intro hup
    have howner := h.owner
    rw [hcount, hup] at howner
    exact absurd howner (by decide)
  have hempty : s.latest = none := by
    by_contra hfull
    rcases h.awake hopen (Option.isSome_iff_ne_none.mpr hfull) with hmid | hup | hlook | hswap
    · rw [hidle] at hmid
      exact absurd hmid Bool.false_ne_true
    · exact hflag hup
    · cases hdone _ hlook
    · cases hdone _ hswap
  unfold State.line
  rw [held_eq_nil hcount, hempty, append_nil]
  exact append_nil _

theorem inv_run (as : List Action) : Inv (as.foldl step new) :=
  foldlRecOn as step Inv.new fun _ h a _ => h.step a

theorem last_delivered {as : List Action} (hquiet : (as.foldl step new).Quiet)
    (hopen : (as.foldl step new).closed = false) :
    (as.foldl step new).delivered.getLast? = (as.filterMap Action.call).getLast? := by
  have hcalls : (as.foldl step new).calls = as.filterMap Action.call := foldl_step_calls as new
  rw [← hcalls, ← (inv_run as).newest hopen, (inv_run as).line_of_quiet hquiet hopen]

/-- **Resizes are coalesced, never reordered, and the last one arrives.** In every
interleaving the pty gets a subsequence of the calls in their order, and once every
task has ended with the channel open, the last it got is the last call's. -/
theorem resizes_coalesced (as : List Action) :
    (as.foldl step new).delivered.Sublist (as.filterMap Action.call) ∧
      ((as.foldl step new).Quiet → (as.foldl step new).closed = false →
        (as.foldl step new).delivered.getLast? = (as.filterMap Action.call).getLast?) := by
  refine ⟨?_, last_delivered⟩
  have hcalls : (as.foldl step new).calls = as.filterMap Action.call := foldl_step_calls as new
  rw [← hcalls]
  refine List.Sublist.trans ?_ (inv_run as).order
  unfold State.line
  rw [append_assoc]
  exact sublist_append_left _ _

/-- The second resize comes while the first is being sent. The third comes after the task
has given the schedule up and before its last look, the fourth between that look and the
swap; by then the sender has spawned a second task, to which the first leaves the slot. -/
def fourResizes : List Action :=
  [.store ⟨24, 80⟩, .schedule, .drain 0, .store ⟨30, 90⟩, .schedule, .drain 0, .drain 0, .drain 0,
    .drain 0, .drain 0, .drain 0, .store ⟨40, 100⟩, .drain 0, .schedule, .store ⟨50, 110⟩, .schedule,
    .drain 0, .drain 1, .drain 1, .drain 1, .drain 1, .drain 1]

theorem fourResizes_delivered :
    (fourResizes.foldl step new).Quiet ∧
      (fourResizes.foldl step new).delivered.getLast? = some ⟨50, 110⟩ := by
  have hquiet : (fourResizes.foldl step new).Quiet := by decide
  exact ⟨hquiet, (resizes_coalesced fourResizes).2 hquiet (by decide)⟩

/-! ## The tasks end -/

/-- A step that is still to come without a new call: the rest of `send`, or one of a task
that has not finished. -/
def Due (s : State) : Action → Prop
  | .schedule => s.midSend = true
  | .drain i => ∃ pc, s.drains[i]? = some pc ∧ pc ≠ .finished
  | .store _ | .close => False

def Drain.stepsLeft (full : Bool) : Drain → ℕ
  | .top => if full then 6 else 4
  | .sending _ => if full then 8 else 5
  | .recheck => if full then 7 else 4
  | .release => if full then 9 else 3
  | .lastLook => if full then 8 else 2
  | .swapping => if full then 7 else 5
  | .failed => 1
  | .finished => 0

def drainsLeft (full : Bool) (drains : List Drain) : ℕ := (drains.map (Drain.stepsLeft full)).sum

/-- The rest of `send` may spawn one more task. -/
def State.stepsLeft (s : State) : ℕ :=
  drainsLeft s.latest.isSome s.drains + if s.midSend then 7 else 0

theorem drainsLeft_split (full : Bool) (l₁ l₂ : List Drain) (pc : Drain) :
    drainsLeft full (l₁ ++ pc :: l₂) =
      drainsLeft full l₁ + (pc.stepsLeft full + drainsLeft full l₂) := by
  unfold drainsLeft
  rw [map_append, sum_append, map_cons, sum_cons]

theorem drainsLeft_empty (full : Bool) (l : List Drain) : drainsLeft false l ≤ drainsLeft full l := by
  refine sum_le_sum fun pc _ => ?_
  cases pc <;> cases full <;> simp [Drain.stepsLeft]

/-- A step of a task brings its own count down; another task's count falls where the slot
is emptied. -/
theorem stepsLeft_drainStep {pc : Drain} (hbusy : pc ≠ .finished) :
    (drainStep s pc).2.stepsLeft (drainStep s pc).1.latest.isSome < pc.stepsLeft s.latest.isSome ∧
      ((drainStep s pc).1.latest.isSome = s.latest.isSome ∨
        (drainStep s pc).1.latest.isSome = false) := by
  obtain ⟨latest, scheduled, midSend, drains, closed, calls, delivered⟩ := s
  cases pc with
  | finished => exact absurd rfl hbusy
  | sending command => cases closed <;> cases latest <;> simp [drainStep, Drain.stepsLeft]
  | swapping => cases scheduled <;> cases latest <;> simp [drainStep, Drain.stepsLeft]
  | top | recheck | release | lastLook | failed =>
    cases latest <;> simp [drainStep, Drain.stepsLeft]

theorem stepsLeft_due {a : Action} (h : Due s a) : (step s a).stepsLeft < s.stepsLeft := by
  cases a with
  | store command => exact absurd h id
  | close => exact absurd h id
  | schedule =>
    have hmid : s.midSend = true := h
    cases hflag : s.scheduled with
    | true => simp [step, State.stepsLeft, hmid, hflag]
    | false =>
      -- the task that is spawned has one step less to go than this rest counts for
      have htop : Drain.top.stepsLeft s.latest.isSome ≤ 6 := by
        cases s.latest <;> simp [Drain.stepsLeft]
      have hnone : drainsLeft s.latest.isSome [] = 0 := rfl
      simp only [step, State.stepsLeft, hmid, hflag, if_true, Bool.false_eq_true, if_false]
      rw [drainsLeft_split, hnone]
      omega
  | drain i =>
    obtain ⟨pc, hpc, hbusy⟩ := h
    obtain ⟨l₁, l₂, hs, hstep⟩ := step_drain hpc
    obtain ⟨hless, hslot⟩ := stepsLeft_drainStep (s := s) hbusy
    -- a task may empty the slot under the others, and never fills it
    have hothers : ∀ l, drainsLeft (drainStep s pc).1.latest.isSome l ≤ drainsLeft s.latest.isSome l := by
      intro l
      rcases hslot with hsame | hempty
      · rw [hsame]
      · rw [hempty]
        exact drainsLeft_empty _ l
    have hl₁ := hothers l₁
    have hl₂ := hothers l₂
    rw [hstep]
    unfold State.stepsLeft
    simp only [State.withDrains, (drainStep_frame s pc).2.2]
    rw [hs, drainsLeft_split, drainsLeft_split]
    omega

/-- **The tasks come to an end, and then the last resize has arrived.** Without a new call
the sender and the tasks cannot go on forever, whatever the order of their steps; and where
none has a step left with the channel open, the last the pty got is the last call's. -/
theorem drains_settle :
    WellFounded (fun t s : State => ∃ a, Due s a ∧ t = step s a) ∧
      ∀ as : List Action, (∀ a, ¬ Due (as.foldl step new) a) → (as.foldl step new).closed = false →
        (as.foldl step new).delivered.getLast? = (as.filterMap Action.call).getLast? := by
  constructor
  · refine Subrelation.wf ?_ (measure State.stepsLeft).wf
    rintro _ s ⟨a, ha, rfl⟩
    exact stepsLeft_due ha
  · intro as hdone hopen
    refine last_delivered ⟨?_, fun pc hpc => ?_⟩ hopen
    · exact Bool.eq_false_of_not_eq_true (hdone .schedule)
    · by_contra hbusy
      obtain ⟨i, hi⟩ := List.getElem?_of_mem hpc
      exact hdone (.drain i) ⟨pc, hi, hbusy⟩

end ResizeCoalescer

end Portl
