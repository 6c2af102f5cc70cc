import Mathlib.Order.MinMax
import Portl.Attach.Screen

/-!
# Live output during a reload

The calls of a `ReloadCoordinator` in any order. `ReloadLedger` is what it is for: the
outputs that came since the reload was begun or cancelled, each of which is drawn once when
the queue is drained, as far as no viewport shows it.

A cancellation empties the queue before it is known which reload it is for. And an output
is trimmed by every output queued before it, so that one which comes too late is lost.
-/

namespace Portl

open List

inductive ReloadCall where
  | start (reloadId : ℕ)
  | markDone (reloadId : ℕ)
  | markCancelled (reloadId : ℕ)
  | handleLiveOutput (startSeq : ℕ) (bytes : Bytes)
  | recordPostReloadViewport (coversLiveSeq : ℕ)
  | drainQueuedLive (coveredLiveSeq : ℕ)

namespace ReloadCoordinator

def call (c : ReloadCoordinator) : ReloadCall → ReloadCoordinator
  | .start reloadId => c.start reloadId
  | .markDone reloadId => (c.markDone reloadId).2
  | .markCancelled reloadId => (c.markCancelled reloadId).2
  | .handleLiveOutput startSeq bytes => c.handleLiveOutput startSeq (startSeq + bytes.length) bytes
  | .recordPostReloadViewport coversLiveSeq => c.recordPostReloadViewport coversLiveSeq
  | .drainQueuedLive coveredLiveSeq => (c.drainQueuedLive coveredLiveSeq).2

/-- A cancellation is of the active reload or finds nothing queued, and an output lies
behind those queued. -/
def Keeps (c : ReloadCoordinator) : ReloadCall → Prop
  | .markCancelled reloadId => c.activeReloadId = some reloadId ∨ c.queuedLive = []
  | .handleLiveOutput startSeq bytes =>
    c.activeReloadId.isSome → bytes = [] ∨ ∀ live ∈ c.queuedLive, live.endSeq ≤ startSeq
  | _ => True

end ReloadCoordinator

/-- The reload and the outputs since it began, was cancelled, or was last drained. -/
structure ReloadLedger where
  state : AttachV2ReloadState
  queued : List QueuedLiveOutput

namespace ReloadLedger

def new : ReloadLedger := ⟨.idle, []⟩

def call (t : ReloadLedger) : ReloadCall → ReloadLedger
  | .start reloadId => if t.state.activeReloadId = some reloadId then t else ⟨.loading reloadId, []⟩
  | .markDone reloadId => { t with state := (t.state.markDone reloadId).2 }
  | .markCancelled reloadId =>
    if t.state.activeReloadId = some reloadId then ⟨.awaitingViewport reloadId, []⟩ else t
  | .handleLiveOutput startSeq bytes =>
    if t.state.activeReloadId.isSome then
      { t with queued := t.queued ++ [⟨startSeq, startSeq + bytes.length, bytes⟩] }
    else t
  | .recordPostReloadViewport _ => t
  | .drainQueuedLive _ => ⟨t.state.clearAfterViewport, []⟩

end ReloadLedger

namespace QueuedLiveOutput

/-- What lies behind `covered`, if there is anything. -/
def uncovered (covered : ℕ) (live : QueuedLiveOutput) : Option QueuedLiveOutput :=
  if live.bytes.drop (covered - live.startSeq) = [] then none
  else some ⟨max covered live.startSeq, live.endSeq, live.bytes.drop (covered - live.startSeq)⟩

end QueuedLiveOutput

namespace ReloadCoordinator

variable {c : ReloadCoordinator} {t : ReloadLedger} {queue : List QueuedLiveOutput} {reloadId : ℕ}

open QueuedLiveOutput (uncovered)

variable {live : QueuedLiveOutput}

/-- The coordinator has what the ledger has, and would draw it as it should be. -/
def Agrees (t : ReloadLedger) (c : ReloadCoordinator) : Prop :=
  c.queuedLive = t.queued ∧ ∀ covered, drain covered c.queuedLive =
    t.queued.filterMap (uncovered covered)

end ReloadCoordinator

end Portl
