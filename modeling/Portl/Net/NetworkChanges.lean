import Portl.Lib.Run

/-!
# Coalesced network changes

`changed` waits for a change of the network and then for the end of the cooldown,
and may be dropped in either wait. The flag keeps a change that was taken from the
source and not reported yet.
-/

namespace Portl

/-- `NETWORK_REDIAL_INTERVAL`, in nanoseconds. -/
def networkRedialInterval : Nat := 1000000000

structure NetworkChanges where
  nextRedial : Nat
  pending : Bool

/-- Where a call of `changed` waits. -/
inductive ChangedAwait where
  | next
  | sleep (deadline : Nat)

/-- The changes the source has ready, a call under way, and the clock; besides, the
changes taken since the last `Ok` and when each `Ok` was returned, the last first. -/
structure NetworkWatch extends NetworkChanges where
  source : Nat
  call : Option ChangedAwait
  now : Nat
  unreported : Nat
  returns : List Nat

inductive NetworkStep where
  | change
  | tick (elapsed : Nat)
  | call
  /-- a poll, with the time between its look at the clock and its end -/
  | poll (elapsed : Nat)
  | cancel
deriving DecidableEq

namespace NetworkWatch

def new (now : Nat) : NetworkWatch := ⟨⟨now, false⟩, 0, none, now, 0, []⟩

/-- The end of `changed`: there is no await between taking the rest of the burst and
the return. -/
def finish (s : NetworkWatch) (elapsed : Nat) : NetworkWatch :=
  { s with
    source := 0, pending := false, nextRedial := s.now + elapsed + networkRedialInterval,
    call := none, now := s.now + elapsed, unreported := 0,
    returns := (s.now + elapsed) :: s.returns }

def cooldown (s : NetworkWatch) (elapsed : Nat) : NetworkWatch :=
  if s.now < s.nextRedial then { s with call := some (.sleep s.nextRedial) } else s.finish elapsed

def changed (s : NetworkWatch) (elapsed : Nat) : ChangedAwait → NetworkWatch
  | .next =>
    if s.pending then s.cooldown elapsed
    else if s.source = 0 then s
    else { s with
      source := s.source - 1, unreported := s.unreported + 1, pending := true }.cooldown elapsed
  | .sleep deadline => if s.now < deadline then s else s.finish elapsed

def step (s : NetworkWatch) : NetworkStep → NetworkWatch
  | .change => { s with source := s.source + 1 }
  | .tick elapsed => { s with now := s.now + elapsed }
  | .call => if s.call.isNone then { s with call := some .next } else s
  | .poll elapsed => s.call.elim s (s.changed elapsed)
  | .cancel => { s with call := none }

/-! ## What holds between two polls -/

/-- A change that was taken and not reported is on the flag, and a call that sleeps does
so until the next redial, which is a second after every return. -/
structure Kept (s : NetworkWatch) : Prop where
  recorded : 0 < s.unreported → s.pending = true
  sleeping : ∀ deadline, s.call = some (.sleep deadline) → deadline = s.nextRedial
  spaced : s.returns.Pairwise fun later earlier => earlier + networkRedialInterval ≤ later
  cooled : ∀ time ∈ s.returns, time + networkRedialInterval ≤ s.nextRedial

variable {s : NetworkWatch} {elapsed : Nat}

theorem Kept.step (h : s.Kept) (action : NetworkStep) : (s.step action).Kept := by
  obtain ⟨hrecorded, hsleeping, hspaced, hcooled⟩ := h
  cases action with
  | poll elapsed =>
    rcases hcall : s.call with _ | _ | deadline <;> constructor <;>
      grind [NetworkWatch.step, changed, cooldown, finish, List.pairwise_cons]
  | _ => constructor <;> grind [NetworkWatch.step]

/-- Since there were `count` returns one more was made, or a call has a change to report
at the same redial. -/
def Due (count redial : Nat) (s : NetworkWatch) : Prop :=
  count < s.returns.length ∨ count = s.returns.length ∧ s.nextRedial = redial ∧
    s.call.isSome ∧ (0 < s.source ∨ s.pending = true)

variable {count redial : Nat}

theorem Due.step (h : s.Due count redial) (hkept : s.Kept) {action : NetworkStep}
    (hgoes : action ≠ .cancel) : (s.step action).Due count redial := by
  have hsleeping := hkept.sleeping
  cases action with
  | poll elapsed =>
    rcases hcall : s.call with _ | _ | deadline <;>
      grind [NetworkWatch.step, changed, cooldown, finish, Due]
  | _ => grind [NetworkWatch.step, Due]

/-- A poll after the cooldown returns. -/
theorem Due.poll (h : s.Due count redial) (hkept : s.Kept) (hcool : redial ≤ s.now)
    (elapsed : Nat) : count < (s.step (.poll elapsed)).returns.length := by
  have hsleeping := hkept.sleeping
  rcases hcall : s.call with _ | _ | deadline <;>
    grind [NetworkWatch.step, changed, cooldown, finish, Due]

/-- What the callers of `changed` rely on. -/
structure Coalesces (s : NetworkWatch) : Prop extends s.Kept where
  returned : s.call.isSome → 0 < s.source ∨ 0 < s.unreported →
    ∀ (more : List NetworkStep) (elapsed : Nat), (∀ action ∈ more, action ≠ .cancel) →
    s.nextRedial ≤ (more.foldl step s).now →
    s.returns.length < ((more.foldl step s).step (.poll elapsed)).returns.length

/-- **No change is lost.** -/
theorem network_changes_kept (now : Nat) (steps : List NetworkStep) :
    (steps.foldl step (new now)).Coalesces := by
  have hnew : (new now).Kept := by
    constructor <;> grind [new]
  have hkept : (steps.foldl step (new now)).Kept :=
    ((Run.Guarded.iff_forall_mem (q := fun _ => True)).mpr fun _ _ => trivial).invariant
      (fun _ action h _ => h.step action) hnew
  refine ⟨hkept, fun hcall hchange more elapsed hmore hcool => ?_⟩
  obtain ⟨hlast, hdue⟩ := (Run.Guarded.iff_forall_mem.mpr hmore).invariant
    (I := fun s : NetworkWatch => s.Kept ∧ s.Due _ _)
    (fun _ action h hgoes => ⟨h.1.step action, h.2.step h.1 hgoes⟩)
    ⟨hkept, .inr ⟨rfl, rfl, hcall, hchange.imp_right hkept.recorded⟩⟩
  exact hdue.poll hlast hcool elapsed

end NetworkWatch

end Portl
