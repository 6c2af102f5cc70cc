import Mathlib.Algebra.Order.Ring.Nat
import Mathlib.Data.List.Induction
import Portl.Lib.Run
import Portl.Lib.Word

/-!
# The network watchdog

`network_watchdog.rs`: a task probes the agent's own endpoint at intervals, and after
enough failures in a row asks the accept loop for a new endpoint. What it goes by is kept
behind a lock, which handshakes of other peers and the results of refreshes write to as
well.

Each use of the lock is a step of its own. The other two can come between the verdict over
a failed probe and the command, and the task does not look again: the command then goes out
against a state that no longer calls for it.
-/

namespace Portl

/-! ## Health -/

inductive WatchdogState where
  | disabled
  | ok
  | degraded
  | refreshing
  | failed
deriving DecidableEq

/-- `WatchdogConfig`, without the timeout of a probe. The interval is in nanoseconds. -/
structure WatchdogConfig where
  enabled : Bool
  interval : ℕ
  failuresBeforeRefresh : UInt32
deriving DecidableEq

/-- `Inner`; times are in seconds. -/
structure NetworkHealth where
  state : WatchdogState
  endpointGeneration : UInt64
  endpointStartedAt : UInt64
  lastInboundHandshakeAt : Option UInt64
  lastSelfProbeOkAt : Option UInt64
  lastSelfProbeFailedAt : Option UInt64
  consecutiveSelfProbeFailures : UInt32
  endpointRefreshCount : UInt64
  consecutiveEndpointRefreshFailures : UInt32
  lastEndpointRefreshAt : Option UInt64
  nextEndpointRefreshNotBefore : Option UInt64
  lastEndpointRefreshError : Option String
deriving DecidableEq

def refreshBackoff (consecutiveFailures : UInt32) : UInt64 :=
  if consecutiveFailures ≤ 1 then 300
  else if consecutiveFailures = 2 then 600
  else if consecutiveFailures = 3 then 1200
  else 3600

def shouldRefresh (config : WatchdogConfig) (consecutiveFailures : UInt32) : Bool :=
  config.enabled && decide (max 1 config.failuresBeforeRefresh.toNat ≤ consecutiveFailures.toNat)

namespace NetworkHealth

def new (now : UInt64) : NetworkHealth where
  state := .ok
  endpointGeneration := 1
  endpointStartedAt := now
  lastInboundHandshakeAt := none
  lastSelfProbeOkAt := none
  lastSelfProbeFailedAt := none
  consecutiveSelfProbeFailures := 0
  endpointRefreshCount := 0
  consecutiveEndpointRefreshFailures := 0
  lastEndpointRefreshAt := none
  nextEndpointRefreshNotBefore := none
  lastEndpointRefreshError := none

def setDisabled (health : NetworkHealth) : NetworkHealth := { health with state := .disabled }

def recordInboundHandshake (health : NetworkHealth) (now : UInt64) : NetworkHealth :=
  { health with
    lastInboundHandshakeAt := some now
    consecutiveSelfProbeFailures := 0
    consecutiveEndpointRefreshFailures := 0
    nextEndpointRefreshNotBefore := none
    lastEndpointRefreshError := none
    state := .ok }

def recordProbeSuccess (health : NetworkHealth) (now : UInt64) : NetworkHealth :=
  { health with
    lastSelfProbeOkAt := some now
    consecutiveSelfProbeFailures := 0
    consecutiveEndpointRefreshFailures := 0
    nextEndpointRefreshNotBefore := none
    lastEndpointRefreshError := none
    state := .ok }

def recordProbeFailure (health : NetworkHealth) (now : UInt64) : NetworkHealth :=
  { health with
    lastSelfProbeFailedAt := some now
    consecutiveSelfProbeFailures := Word.saturatingIncr health.consecutiveSelfProbeFailures
    state := if health.state = .failed then .failed else .degraded }

def recordEndpointRefreshStarted (health : NetworkHealth) : NetworkHealth :=
  { health with consecutiveSelfProbeFailures := 0, state := .refreshing }

def recordEndpointRefreshSuccess (health : NetworkHealth) (now : UInt64) : NetworkHealth :=
  { health with
    endpointGeneration := Word.saturatingAdd health.endpointGeneration 1
    endpointStartedAt := now
    endpointRefreshCount := Word.saturatingAdd health.endpointRefreshCount 1
    lastEndpointRefreshAt := some now
    lastInboundHandshakeAt := none
    lastEndpointRefreshError := none
    consecutiveSelfProbeFailures := 0
    consecutiveEndpointRefreshFailures := 0
    nextEndpointRefreshNotBefore := none
    state := .ok }

def recordEndpointRefreshFailure (health : NetworkHealth) (now : UInt64) (error : String) :
    NetworkHealth :=
  let failures := Word.saturatingIncr health.consecutiveEndpointRefreshFailures
  { health with
    lastEndpointRefreshAt := some now
    consecutiveEndpointRefreshFailures := failures
    nextEndpointRefreshNotBefore := some (Word.saturatingAdd now (refreshBackoff failures))
    lastEndpointRefreshError := some error
    state := .failed }

def refreshAllowed (health : NetworkHealth) (now : UInt64) : Bool :=
  health.nextEndpointRefreshNotBefore.all fun notBefore => notBefore ≤ now

end NetworkHealth

/-- The largest `Duration`, in nanoseconds. -/
def durationMax : ℕ := UInt64.size * 10 ^ 9 - 1

def recentInboundSkipMultiplier : ℕ := 2

def shouldSkipProbeAfterRecentInbound (config : WatchdogConfig) (health : NetworkHealth)
    (now : UInt64) : Bool :=
  health.lastInboundHandshakeAt.any fun last =>
    (Word.saturatingSub now last).toNat ≤
      min (config.interval * recentInboundSkipMultiplier) durationMax / 10 ^ 9

inductive ProbeOutcome where
  | success
  | failure (error : String)
deriving DecidableEq

def applyProbeOutcome (config : WatchdogConfig) (health : NetworkHealth) (now : UInt64) :
    ProbeOutcome → NetworkHealth × Bool
  | .success => (health.recordProbeSuccess now, false)
  | .failure _ =>
    let health := health.recordProbeFailure now
    (health, shouldRefresh config health.consecutiveSelfProbeFailures)

/-! ## The task -/

/-- Where the task is in its loop: between ticks; past the check for a refresh in flight;
in the probe; with a verdict for a refresh; past the check of the backoff; past the mark
that the refresh has started; with a command that could not be sent; at its end. -/
inductive TaskPhase where
  | waiting
  | ticked
  | probing
  | judged
  | cleared
  | started
  | unsent
  | stopped
deriving DecidableEq

/-- A step of the task, or a use of the health by a handshake or the accept loop. -/
inductive WatchdogEvent where
  | tick
  | checkInbound
  | probe (outcome : ProbeOutcome)
  | checkBackoff
  | markStarted
  | send (delivered : Bool)
  | recordUnsent
  | shutdown
  | inbound
  | refreshed
  | refreshFailed (error : String)
deriving DecidableEq

structure WatchdogStep where
  now : UInt64
  event : WatchdogEvent
deriving DecidableEq

structure Watchdog where
  health : NetworkHealth
  phase : TaskPhase
  clock : UInt64
deriving DecidableEq

namespace Watchdog

def start (config : WatchdogConfig) (now : UInt64) : Watchdog :=
  if config.enabled then ⟨.new now, .waiting, now⟩ else ⟨(NetworkHealth.new now).setDisabled, .stopped, now⟩

def step (config : WatchdogConfig) (w : Watchdog) (a : WatchdogStep) : Watchdog :=
  match a.event with
  | .tick => ⟨w.health, if w.health.state = .refreshing then .waiting else .ticked, a.now⟩
  | .checkInbound =>
    ⟨w.health,
      if shouldSkipProbeAfterRecentInbound config w.health a.now then .waiting else .probing, a.now⟩
  | .probe outcome =>
    ⟨(applyProbeOutcome config w.health a.now outcome).1,
      if (applyProbeOutcome config w.health a.now outcome).2 then .judged else .waiting, a.now⟩
  | .checkBackoff => ⟨w.health, if w.health.refreshAllowed a.now then .cleared else .waiting, a.now⟩
  | .markStarted => ⟨w.health.recordEndpointRefreshStarted, .started, a.now⟩
  | .send delivered => ⟨w.health, if delivered then .waiting else .unsent, a.now⟩
  | .recordUnsent =>
    ⟨w.health.recordEndpointRefreshFailure a.now "agent accept loop is unavailable", .stopped,
      a.now⟩
  | .shutdown => ⟨w.health, .stopped, a.now⟩
  | .inbound => ⟨w.health.recordInboundHandshake a.now, w.phase, a.now⟩
  | .refreshed => ⟨w.health.recordEndpointRefreshSuccess a.now, w.phase, a.now⟩
  | .refreshFailed error => ⟨w.health.recordEndpointRefreshFailure a.now error, w.phase, a.now⟩

/-- The task takes its steps in the order of its loop; the others come at any time. -/
def Enabled (w : Watchdog) : WatchdogEvent → Prop
  | .tick | .shutdown => w.phase = .waiting
  | .checkInbound => w.phase = .ticked
  | .probe _ => w.phase = .probing
  | .checkBackoff => w.phase = .judged
  | .markStarted => w.phase = .cleared
  | .send _ => w.phase = .started
  | .recordUnsent => w.phase = .unsent
  | .inbound | .refreshed | .refreshFailed _ => True

def Permitted (w : Watchdog) (a : WatchdogStep) : Prop := w.Enabled a.event ∧ w.clock ≤ a.now

instance (w : Watchdog) (event : WatchdogEvent) : Decidable (w.Enabled event) := by
  unfold Enabled
  split <;> infer_instance

instance (w : Watchdog) (a : WatchdogStep) : Decidable (w.Permitted a) :=
  inferInstanceAs (Decidable (_ ∧ _))

end Watchdog

/-! ## Backoff -/

/-- Failed refreshes are counted exactly while there is a deadline and an error. -/
def NetworkHealth.BackoffRecorded (health : NetworkHealth) : Prop :=
  0 < health.consecutiveEndpointRefreshFailures.toNat ↔
    health.nextEndpointRefreshNotBefore.isSome = true ∧
      health.lastEndpointRefreshError.isSome = true

def NetworkHealth.BackoffTogether (health : NetworkHealth) : Prop :=
  health.consecutiveEndpointRefreshFailures = 0 ∧ health.nextEndpointRefreshNotBefore = none ∧
      health.lastEndpointRefreshError = none ∨
    0 < health.consecutiveEndpointRefreshFailures.toNat ∧
      health.nextEndpointRefreshNotBefore.isSome = true ∧
      health.lastEndpointRefreshError.isSome = true

theorem NetworkHealth.BackoffTogether.recorded {health : NetworkHealth}
    (h : health.BackoffTogether) : health.BackoffRecorded := by
  rcases h with ⟨hcount, hnext, herror⟩ | ⟨hcount, hnext, herror⟩
  · simp [BackoffRecorded, hcount, hnext]
  · exact ⟨fun _ => ⟨hnext, herror⟩, fun _ => hcount⟩

namespace Watchdog

variable {config : WatchdogConfig} {w : Watchdog}

theorem backoffTogether_step (h : w.health.BackoffTogether) (a : WatchdogStep) :
    (w.step config a).health.BackoffTogether := by
  have hcleared : ∀ health : NetworkHealth, health.consecutiveEndpointRefreshFailures = 0 →
      health.nextEndpointRefreshNotBefore = none → health.lastEndpointRefreshError = none →
      health.BackoffTogether := fun _ hcount hnext herror => .inl ⟨hcount, hnext, herror⟩
  have hset : ∀ error, (w.health.recordEndpointRefreshFailure a.now error).BackoffTogether :=
    fun _ => .inr ⟨Word.saturatingIncr_pos _, rfl, rfl⟩
  obtain ⟨now, event⟩ := a
  cases event with
  | probe outcome =>
    cases outcome with
    | success => exact hcleared _ rfl rfl rfl
    | failure error => exact h
  | recordUnsent => exact hset _
  | inbound | refreshed => exact hcleared _ rfl rfl rfl
  | refreshFailed error => exact hset error
  | _ => exact h

theorem backoffTogether_run (config : WatchdogConfig) (now : UInt64) (steps : List WatchdogStep) :
    (steps.foldl (step config) (start config now)).health.BackoffTogether := by
  induction steps using List.reverseRecOn with
  | nil =>
    rw [List.foldl_nil, start]
    split
    · exact .inl ⟨rfl, rfl, rfl⟩
    · exact .inl ⟨rfl, rfl, rfl⟩
  | append_singleton steps a ih =>
    rw [List.foldl_append]
    exact backoffTogether_step ih a

/-! ## The verdict -/

def countFailures (n : ℕ) (a : WatchdogStep) : ℕ :=
  match a.event with
  | .probe (.failure _) => n + 1
  | .probe .success | .inbound | .refreshed | .send true => 0
  | _ => n

def failuresSince (steps : List WatchdogStep) : ℕ := steps.foldl countFailures 0

end Watchdog

def TaskPhase.decided : TaskPhase → Bool
  | .judged | .cleared | .started => true
  | _ => false

def TaskPhase.pastBackoff : TaskPhase → Bool
  | .cleared | .started => true
  | _ => false

namespace Watchdog

/-- Nothing that bears on the decision is recorded after it: no handshake and no new
endpoint between the verdict and the command, and no failed refresh between the check of
the backoff and the command. -/
def Undisturbed (w : Watchdog) (a : WatchdogStep) : Prop :=
  match a.event with
  | .inbound | .refreshed => w.phase.decided = false
  | .refreshFailed _ => w.phase.pastBackoff = false
  | _ => True

instance (w : Watchdog) (a : WatchdogStep) : Decidable (w.Undisturbed a) := by
  unfold Undisturbed
  split <;> infer_instance

/-- The decision stands: there were enough failures, and its time has come. -/
structure Stands (config : WatchdogConfig) (w : Watchdog) (n : ℕ) : Prop where
  counted : w.health.consecutiveSelfProbeFailures.toNat ≤ n
  reset : w.phase = .started → w.health.consecutiveSelfProbeFailures = 0
  enough : w.phase.decided = true → max 1 config.failuresBeforeRefresh.toNat ≤ n
  due : w.phase.pastBackoff = true → ∀ notBefore,
    w.health.nextEndpointRefreshNotBefore = some notBefore → notBefore ≤ w.clock

variable {n : ℕ}

theorem Stands.of_undecided (hphase : w.phase.decided = false)
    (hcounted : w.health.consecutiveSelfProbeFailures.toNat ≤ n) : Stands config w n := by
  obtain ⟨health, phase, clock⟩ := w
  refine ⟨hcounted, ?_, ?_, ?_⟩
  · rintro rfl
    cases hphase
  · intro hdecided
    rw [hphase] at hdecided
    cases hdecided
  · intro hpast
    cases phase
    case cleared => cases hphase
    case started => cases hphase
    all_goals cases hpast

theorem stands_probe (h : Stands config w n) (now : UInt64) (outcome : ProbeOutcome) :
    Stands config (w.step config ⟨now, .probe outcome⟩) (countFailures n ⟨now, .probe outcome⟩) := by
  cases outcome with
  | success => exact .of_undecided rfl le_rfl
  | failure error =>
    have hcount : (Word.saturatingIncr w.health.consecutiveSelfProbeFailures).toNat ≤ n + 1 :=
      (Word.saturatingIncr_le _).trans (Nat.succ_le_succ h.counted)
    by_cases hrefresh : shouldRefresh config
        (w.health.recordProbeFailure now).consecutiveSelfProbeFailures = true
    · have hstep : w.step config ⟨now, .probe (.failure error)⟩ =
          ⟨w.health.recordProbeFailure now, .judged, now⟩ := by
        simp [step, applyProbeOutcome, hrefresh]
      -- the verdict is the comparison with the count that is now recorded
      rw [hstep]
      refine ⟨hcount, nofun, fun _ => ?_, nofun⟩
      simp only [shouldRefresh, Bool.and_eq_true, decide_eq_true_eq] at hrefresh
      exact hrefresh.2.trans hcount
    · refine .of_undecided ?_ hcount
      simp [step, applyProbeOutcome, hrefresh, TaskPhase.decided]

theorem stands_step (h : Stands config w n) {a : WatchdogStep} (hpermitted : w.Permitted a)
    (hundisturbed : w.Undisturbed a) : Stands config (w.step config a) (countFailures n a) := by
  obtain ⟨now, event⟩ := a
  obtain ⟨hphase, hclock⟩ := hpermitted
  cases event with
  | tick | checkInbound =>
    refine .of_undecided ?_ h.counted
    simp only [step]
    split
    · rfl
    · rfl
  | probe outcome => exact stands_probe h now outcome
  | checkBackoff =>
    have hjudged : w.phase = .judged := hphase
    by_cases hallowed : w.health.refreshAllowed now = true
    · simp only [step, if_pos hallowed]
      refine ⟨h.counted, nofun, fun _ => h.enough (by rw [hjudged]; rfl), ?_⟩
      intro _ notBefore hnext
      rw [NetworkHealth.refreshAllowed,
        show w.health.nextEndpointRefreshNotBefore = some notBefore from hnext] at hallowed
      exact of_decide_eq_true hallowed
    · simp only [step, if_neg hallowed]
      exact .of_undecided rfl h.counted
  | markStarted =>
    have hcleared : w.phase = .cleared := hphase
    refine ⟨Nat.zero_le _, fun _ => rfl, fun _ => h.enough (by rw [hcleared]; rfl), ?_⟩
    intro _ notBefore hnext
    exact UInt64.le_trans (h.due (by rw [hcleared]; rfl) notBefore hnext) hclock
  | send delivered =>
    have hzero := h.reset hphase
    cases delivered with
    | true => exact .of_undecided rfl (by simp [step, hzero])
    | false => exact .of_undecided rfl h.counted
  | recordUnsent | shutdown => exact .of_undecided rfl h.counted
  | inbound | refreshed => exact .of_undecided hundisturbed le_rfl
  | refreshFailed error =>
    refine ⟨h.counted, h.reset, h.enough, fun hpast => ?_⟩
    have hlate : w.phase.pastBackoff = true := hpast
    rw [show w.phase.pastBackoff = false from hundisturbed] at hlate
    cases hlate

theorem stands_start (config : WatchdogConfig) (now : UInt64) : Stands config (start config now) 0 := by
  rw [start]
  split
  · exact .of_undecided rfl le_rfl
  · exact .of_undecided rfl le_rfl

theorem stands_run {steps : List WatchdogStep} {w : Watchdog} (h : Stands config w n)
    (hrun : Run.Guarded (step config) Permitted w steps)
    (hundisturbed : Run.Guarded (step config) Undisturbed w steps) :
    Stands config (steps.foldl (step config) w) (steps.foldl countFailures n) := by
  induction steps generalizing w n with
  | nil => exact h
  | cons a steps ih =>
    exact ih (stands_step h hrun.1 hundisturbed.1) hrun.2 hundisturbed.2

/-- **The watchdog refreshes only when it must.** In every state of every run failed refreshes
are counted exactly while a deadline and an error are recorded. And where nothing bearing on a
decision is recorded after it, the command goes out only after enough failed probes in a row
since the last success, handshake or refresh, and not before the deadline. -/
theorem watchdog_refreshes_only_when_due (config : WatchdogConfig) (now : UInt64)
    (steps : List WatchdogStep)
    (hrun : Run.Guarded (step config) Permitted (start config now) steps) :
    (∀ front, front <+: steps →
      (front.foldl (step config) (start config now)).health.BackoffRecorded) ∧
    (Run.Guarded (step config) Undisturbed (start config now) steps →
      ∀ front a back, steps = front ++ a :: back → a.event = .send true →
        max 1 config.failuresBeforeRefresh.toNat ≤ failuresSince front ∧
        ∀ notBefore, (front.foldl (step config)
            (start config now)).health.nextEndpointRefreshNotBefore = some notBefore →
          notBefore ≤ a.now) := by
  refine ⟨fun front _ => (backoffTogether_run config now front).recorded, ?_⟩
  rintro hundisturbed front a back rfl hsend
  obtain ⟨hfront, hpermitted, -⟩ := hrun.of_append
  have hstands := stands_run (stands_start config now) hfront hundisturbed.of_append.1
  obtain ⟨hphase, hclock⟩ := hpermitted
  rw [hsend] at hphase
  refine ⟨hstands.enough (by rw [show _ = TaskPhase.started from hphase]; rfl), ?_⟩
  intro notBefore hnext
  exact UInt64.le_trans
    (hstands.due (by rw [show _ = TaskPhase.started from hphase]; rfl) notBefore hnext) hclock

def eagerConfig : WatchdogConfig := ⟨true, 0, 1⟩

def oneFailure : List WatchdogStep :=
  [⟨1, .tick⟩, ⟨1, .checkInbound⟩, ⟨2, .probe (.failure "timed out")⟩, ⟨2, .checkBackoff⟩]

theorem watchdog_refreshes_only_when_due_once :
    max 1 eagerConfig.failuresBeforeRefresh.toNat ≤ failuresSince (oneFailure ++ [⟨3, .markStarted⟩]) :=
  ((watchdog_refreshes_only_when_due eagerConfig 0
    (oneFailure ++ [⟨3, .markStarted⟩, ⟨3, .send true⟩]) (by decide +kernel)).2 (by decide +kernel)
      (oneFailure ++ [⟨3, .markStarted⟩]) ⟨3, .send true⟩ [] rfl rfl).1

/-- A handshake after the verdict: the command goes out with no failure since. -/
theorem watchdog_refreshes_after_handshake :
    Run.Guarded (step eagerConfig) Permitted (start eagerConfig 0)
        (oneFailure ++ [⟨3, .inbound⟩, ⟨3, .markStarted⟩, ⟨3, .send true⟩]) ∧
      failuresSince (oneFailure ++ [⟨3, .inbound⟩, ⟨3, .markStarted⟩]) = 0 := by
  decide +kernel

end Watchdog

end Portl
