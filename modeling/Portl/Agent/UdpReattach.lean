import Portl.Agent.UdpSessions

/-!
# A session that was attached stays

A client whose control stream broke attaches to its session again before the
session's time is over. From then on nothing but the end of a control stream may
take the session away.

`get_live` runs without the attach lock: it finds the session, asks whether it has
expired, and only then waits for the lock to remove it. An attach that holds the
lock meanwhile takes the session over and returns it; the removal does not ask
again and shuts it down. Lookup and question are steps of their own here.
-/

namespace Portl

open List

/-! ## The watched agent -/

/-- `lookups` are the calls of `get_live` that have their session and did not ask
yet whether it has expired; those for `mark_linger_if_current` carry its connection.
`held` are the objects that attach returned and that no control stream's end has
detached since, `shut` those that were shut down. -/
structure WatchedAgent where
  agent : UdpAgent
  lookups : List (Bytes8 × ℕ × Option ConnectionId)
  held : List ℕ
  shut : List ℕ

inductive WatchedStep where
  | act (step : UdpStep)
  | lookup (sessionId : Bytes8) (marks : Option ConnectionId)
  | test (sessionId : Bytes8) (object : ℕ) (marks : Option ConnectionId) (now : UInt64)

/-- The objects of the control streams that are served in `a'` and were not in `a`:
a stream is served when `attach_or_create` has returned `Ok`. -/
def UdpAgent.returned (a a' : UdpAgent) : List ℕ :=
  (a'.controls.take (a'.controls.length - a.controls.length)).map Prod.snd

def UdpAgent.Detaches (a : UdpAgent) (connection : ConnectionId) (object : ℕ)
    (lingerUntil : UInt64) : Prop :=
  (connection, object) ∈ a.marks ∧
    ∃ s ∈ a.objects object, (s.markLingerIfCurrent connection lingerUntil).2 = true

instance (a : UdpAgent) (connection : ConnectionId) (object : ℕ) (lingerUntil : UInt64) :
    Decidable (a.Detaches connection object lingerUntil) :=
  inferInstanceAs (Decidable (_ ∧ _))

def UdpStep.target : UdpStep → Option Bytes8
  | .attachBegin _ req _ _ _ => some req.sessionId
  | .removeExpired sessionId => some sessionId
  | .gcSession sessionId _ => some sessionId
  | .shutdownSession sessionId => some sessionId
  | _ => none

def UdpStep.shuts (P : Primitives) (a : UdpAgent) (step : UdpStep) : List ℕ :=
  match step.target with
  | none => []
  | some id =>
    match a.sessions id, (step.apply P a).sessions id with
    | some object, none => [object]
    | _, _ => []

namespace WatchedAgent

def start : WatchedAgent := ⟨.start, [], [], []⟩

def heldAfter (P : Primitives) (w : WatchedAgent) (step : UdpStep) : List ℕ :=
  match step with
  | .attachFinish freshId => w.agent.returned (w.agent.attachFinish P freshId) ++ w.held
  | .markLinger connection object lingerUntil =>
    if w.agent.Detaches connection object lingerUntil then w.held.filter (· ≠ object)
    else w.held
  | _ => w.held

def act (P : Primitives) (w : WatchedAgent) (step : UdpStep) : WatchedAgent :=
  { w with
    agent := step.apply P w.agent
    held := w.heldAfter P step
    shut := step.shuts P w.agent ++ w.shut }

/-- `sessions.get` of `get_live`. -/
def lookup (w : WatchedAgent) (sessionId : Bytes8) (marks : Option ConnectionId) : WatchedAgent :=
  match w.agent.sessions sessionId with
  | none => w
  | some object => { w with lookups := (sessionId, object, marks) :: w.lookups }

/-- `is_expired` of `get_live`: a session that has expired is to be removed, and one
that lives may be marked. -/
def test (w : WatchedAgent) (sessionId : Bytes8) (object : ℕ) (marks : Option ConnectionId)
    (now : UInt64) : WatchedAgent :=
  if (sessionId, object, marks) ∈ w.lookups then
    let w := { w with lookups := w.lookups.erase (sessionId, object, marks) }
    if w.agent.expired object now then
      { w with agent := { w.agent with removals := sessionId :: w.agent.removals } }
    else
      match marks with
      | none => w
      | some connection =>
        { w with agent := { w.agent with marks := (connection, object) :: w.agent.marks } }
  else w

end WatchedAgent

def WatchedStep.apply (P : Primitives) (w : WatchedAgent) (step : WatchedStep) : WatchedAgent :=
  match step with
  | .act step => w.act P step
  | .lookup sessionId marks => w.lookup sessionId marks
  | .test sessionId object marks now => w.test sessionId object marks now

def WatchedAgent.run (P : Primitives) (steps : List WatchedStep) (w : WatchedAgent) :
    WatchedAgent :=
  steps.foldl (WatchedStep.apply P) w

/-- **What attach returned is there**: registered, and not shut down. -/
def WatchedAgent.Serving (w : WatchedAgent) : Prop :=
  ∀ object ∈ w.held, object ∉ w.shut ∧
    ∃ s ∈ w.agent.objects object, w.agent.sessions s.sessionId = some object

instance (w : WatchedAgent) : Decidable w.Serving :=
  List.decidableBAll _ _

/-- The removal that `get_live` decided on finds the session without a connection.
The agent is not shut down as a whole. -/
def WatchedStep.Spares (w : WatchedAgent) (step : WatchedStep) : Prop :=
  match step with
  | .act (.removeExpired sessionId) =>
    ∀ object ∈ w.agent.sessions sessionId, w.agent.connectionOf object = none
  | .act (.shutdownSession _) => False
  | _ => True

instance (w : WatchedAgent) (step : WatchedStep) : Decidable (step.Spares w) := by
  unfold WatchedStep.Spares
  split <;> infer_instance

/-! ## The invariant -/

/-- Registered sessions are known by their ids and were not shut down, the session
that the holder of the attach lock found is registered, and what is held is
registered, attached and does not linger. -/
structure Retains (w : WatchedAgent) : Prop where
  named : ∀ {id object}, w.agent.sessions id = some object →
    ∃ s, w.agent.objects object = some s ∧ s.sessionId = id
  fresh : ∀ object, w.agent.next ≤ object → w.agent.objects object = none
  found : ∀ {call object}, w.agent.attaching = some (call, some object) →
    w.agent.sessions call.sessionId = some object
  held : ∀ {object}, object ∈ w.held → ∃ s, w.agent.objects object = some s ∧
    w.agent.sessions s.sessionId = some object ∧ s.connectionId ≠ none ∧ s.lingerUntil = none
  alive : ∀ {id object}, w.agent.sessions id = some object → object ∉ w.shut
  shut : ∀ {object}, object ∈ w.shut → object < w.agent.next

variable {P : Primitives} {w w' : WatchedAgent} {a a' b : UdpAgent} {step : UdpStep} {id : Bytes8}
  {object : ℕ} {s s' : UdpSession}

namespace Retains

theorem start : Retains .start where
  named h := by cases h
  fresh _ _ := rfl
  found h := by cases h
  held h := by cases h
  alive h := by cases h
  shut h := by cases h

theorem serving (h : Retains w) : w.Serving := by
  intro object hheld
  obtain ⟨s, hs, hreg, -, -⟩ := h.held hheld
  exact ⟨h.alive hreg, s, hs, hreg⟩

theorem kept (h : Retains w) : w.agent.Kept := ⟨h.named, h.fresh⟩

theorem connectionOf_ne_none (h : Retains w) (hheld : object ∈ w.held) :
    w.agent.connectionOf object ≠ none := by
  obtain ⟨s, hs, -, hconn, -⟩ := h.held hheld
  rw [UdpAgent.connectionOf, hs]
  exact hconn

theorem not_expired (h : Retains w) (hheld : object ∈ w.held) (now : UInt64) :
    w.agent.expired object now = false := by
  obtain ⟨s, hs, -, -, hlinger⟩ := h.held hheld
  simp [UdpAgent.expired, hs, UdpSession.isExpired, hlinger]

end Retains

theorem UdpAgent.core_fields (h : a.core = b.core) : a.objects = b.objects ∧ a.next = b.next ∧
    a.sessions = b.sessions ∧ a.attaching = b.attaching ∧ a.controls = b.controls :=
  ⟨congrArg (·.objects) h, congrArg (·.next) h, congrArg (·.sessions) h, congrArg (·.attaching) h,
    congrArg (·.controls) h⟩

variable {connection : ConnectionId}

theorem UdpAgent.returned_cons (h : a'.controls = (connection, object) :: a.controls) :
    a.returned a' = [object] := by
  rw [returned, h, length_cons, Nat.add_sub_cancel_left]
  rfl

theorem UdpAgent.returned_eq_nil (h : a'.controls.length ≤ a.controls.length) :
    a.returned a' = [] := by
  rw [returned, Nat.sub_eq_zero_of_le h]
  rfl

theorem heldAfter_subset
    (h : (step.apply P w.agent).controls.length ≤ w.agent.controls.length) :
    w.heldAfter P step ⊆ w.held := by
  cases step with
  | attachFinish freshId =>
    show w.agent.returned (UdpStep.apply P w.agent (.attachFinish freshId)) ++ w.held ⊆ w.held
    rw [UdpAgent.returned_eq_nil h]
    exact fun _ hother => hother
  | markLinger connection object lingerUntil =>
    simp only [WatchedAgent.heldAfter]
    split_ifs
    · exact filter_subset_self _
    · exact fun _ hother => hother
  | _ => exact fun _ hother => hother

theorem UdpStep.shuts_of_sessions_eq (h : (step.apply P a).sessions = a.sessions) :
    step.shuts P a = [] := by
  unfold shuts
  rw [h]
  cases step.target with
  | none => rfl
  | some id => cases hid : a.sessions id <;> simp [hid]

theorem UdpSession.markLingerIfCurrent_stays {lingerUntil : UInt64}
    (h : (s.markLingerIfCurrent connection lingerUntil).2 ≠ true) :
    (s.markLingerIfCurrent connection lingerUntil).1.connectionId = s.connectionId ∧
      (s.markLingerIfCurrent connection lingerUntil).1.lingerUntil = s.lingerUntil := by
  unfold markLingerIfCurrent at h ⊢
  split_ifs at h ⊢
  · exact ⟨rfl, rfl⟩
  · exact ⟨rfl, rfl⟩
  · exact absurd rfl h

/-! ## Runs -/

theorem retains_act (step : UdpStep) (h : Retains w) (hspares : (WatchedStep.act step).Spares w) :
    Retains (w.act P step) := by
  obtain ⟨b, hcore, hchange⟩ := UdpAgent.change_apply P w.agent step
  have hbefore := h.kept
  have hlive : ∀ {object now}, object ∈ w.held → w.agent.expired object now = false :=
    fun hheld => h.not_expired hheld _
  have hbound : ∀ {object}, object ∈ w.held → w.agent.connectionOf object ≠ none :=
    h.connectionOf_ne_none
  obtain ⟨hobjects, hnext, hsessions, hattaching, hcontrols⟩ := UdpAgent.core_fields hcore
  have hheldAfter := @heldAfter_subset P w step
  have hshuts := @UdpStep.shuts_of_sessions_eq P w.agent step
  clear hcore
  obtain ⟨hnamed, hfresh, hfound, hheld, halive, hshut⟩ := h
  unfold WatchedAgent.act
  cases hchange
  case' drops hfewer hmarks =>
    have hsub := hheldAfter (hcontrols ▸ hfewer.length_le)
    rw [hshuts hsessions]
  case' ends | locks | sends | routes => rw [hshuts hsessions]
  case' unlocks =>
    have hsub := hheldAfter (by rw [hcontrols])
    rw [hshuts hsessions]
  case' creates freshId call target hattach hfree =>
    have hreturned : w.agent.returned (w.agent.attachFinish P freshId) = [w.agent.next] :=
      UdpAgent.returned_cons hcontrols
    simp only [WatchedAgent.heldAfter, UdpStep.shuts, UdpStep.target, hreturned]
  case' attaches freshId call object s s' countsAsSession controls hattach hs hattached hadded =>
    obtain ⟨-, -, rfl⟩ := UdpSession.attach_eq_attached hattached
    have hreturned : w.agent.returned (w.agent.attachFinish P freshId) ⊆ [object] := by
      have hnow : (w.agent.attachFinish P freshId).controls = controls := hcontrols
      rcases hadded with rfl | rfl
      · rw [UdpAgent.returned_eq_nil (by rw [hnow])]
        exact nil_subset _
      · rw [UdpAgent.returned_cons hnow]
        exact fun _ hother => hother
    rw [hshuts hsessions]
    simp only [WatchedAgent.heldAfter]
  case' lingers connection object lingerUntil s hmem hs =>
    have hstays := @UdpSession.markLingerIfCurrent_stays s connection lingerUntil
    have hid := (s.markLingerIfCurrent_kept connection lingerUntil).1
    rw [hshuts hsessions]
    simp only [WatchedAgent.heldAfter]
  case' replaces session req ips connection now call object hfree hchecked hbinds hreg hexpired =>
    obtain ⟨s, hs, hid, counts, heq⟩ := hbefore.removeSessionLocked_eq hreg
    rw [heq] at hobjects hnext hsessions
    simp only [WatchedAgent.heldAfter, UdpStep.shuts, UdpStep.target, hsessions, hreg,
      Function.update_self]
  case' removes id object hfree hreg hstep =>
    obtain ⟨s, hs, hid, counts, heq⟩ := hbefore.removeSessionLocked_eq hreg
    rw [heq] at hobjects hnext hsessions hattaching
    have hgone : object ∉ w.held := by
      intro hmem
      rcases hstep with ⟨now, rfl, hexpired⟩ | rfl | rfl
      · rw [hlive hmem] at hexpired
        cases hexpired
      · exact hbound hmem (hspares object hreg)
      · exact hspares
    have htarget : step.target = some id ∧ w.heldAfter P step = w.held := by
      rcases hstep with ⟨now, rfl, -⟩ | rfl | rfl <;> exact ⟨rfl, rfl⟩
    simp only [htarget, UdpStep.shuts, hsessions, hreg, Function.update_self]
  all_goals
    constructor <;> simp only [hobjects, hnext, hsessions, hattaching] <;>
      grind [Function.update_apply, UdpSession.new, UdpAgent.Detaches]

namespace Retains

theorem test (h : Retains w) (id : Bytes8) (object : ℕ) (marks : Option ConnectionId)
    (now : UInt64) : Retains (w.test id object marks now) := by
  unfold WatchedAgent.test
  dsimp only
  split_ifs
  · exact { h with }
  · cases marks <;> exact { h with }
  · exact h

theorem lookup (h : Retains w) (id : Bytes8) (marks : Option ConnectionId) :
    Retains (w.lookup id marks) := by
  unfold WatchedAgent.lookup
  cases w.agent.sessions id with
  | none => exact h
  | some object => exact { h with }

end Retains

theorem retains_step (step : WatchedStep) (h : Retains w) (hspares : step.Spares w) :
    Retains (step.apply P w) := by
  cases step with
  | act step => exact retains_act step h hspares
  | lookup sessionId marks => exact h.lookup sessionId marks
  | test sessionId object marks now => exact h.test sessionId object marks now

/-- **What is attached stays.** In every interleaving in which the removals that
`get_live` decides on find the session without a connection, every session that an
attach returned and that no control stream's end has detached since is registered
and was not shut down. -/
theorem udp_reattached_stays (P : Primitives) (steps : List WatchedStep)
    (hspares : Run.Guarded (WatchedStep.apply P) (fun w step => step.Spares w) .start steps) :
    (WatchedAgent.start.run P steps).Serving :=
  (hspares.invariant (fun _ step h hok => retains_step step h hok) .start).serving

/-! ### A datagram at the deadline -/

/-- A client makes a session with id 7 on connection 1; its control stream ends at
100, and the session lingers until 400. -/
def lingering : List WatchedStep :=
  (openSession 1 1 7 ++ [UdpStep.controlEnd 1 0 100, UdpStep.markLinger 1 0 400]).map .act

def reattachBegin (now : UInt64) : WatchedStep :=
  .act (.attachBegin (udpSession 1) { udpRequest 1 with sessionId := Vector.replicate 8 7 }
    [[10, 0, 0, 1]] 2 now)

def reattachFinish : WatchedStep := .act (.attachFinish (Vector.replicate 8 9))

/-- A datagram arrives after the attach. -/
theorem udp_reattached_stays_late :
    (WatchedAgent.start.run (.transparent [])
      (lingering ++ [reattachBegin 399, reattachFinish, .act (.receive 1 (query 7) 20 400),
        .act (.gcSession (Vector.replicate 8 7) 401)])).held = [0] ∧
    (WatchedAgent.start.run (.transparent [])
      (lingering ++ [reattachBegin 399, reattachFinish, .act (.receive 1 (query 7) 20 400),
        .act (.gcSession (Vector.replicate 8 7) 401)])).Serving :=
  ⟨by decide +kernel, udp_reattached_stays _ _ (by decide +kernel)⟩

/-- The attach asks at 399, a datagram at 400; the attach returns the session, and
the removal takes it away. -/
theorem udp_reattached_reaped :
    (WatchedAgent.start.run (.transparent [])
      (lingering ++ [reattachBegin 399, .act (.receive 1 (query 7) 20 400),
        reattachFinish])).agent.connectionOf 0 = some 2 ∧
    (WatchedAgent.start.run (.transparent [])
      (lingering ++ [reattachBegin 399, .act (.receive 1 (query 7) 20 400), reattachFinish,
        .act (.removeExpired (Vector.replicate 8 7))])).held = [0] ∧
    (WatchedAgent.start.run (.transparent [])
      (lingering ++ [reattachBegin 399, .act (.receive 1 (query 7) 20 400), reattachFinish,
        .act (.removeExpired (Vector.replicate 8 7))])).shut = [0] ∧
    ¬ (WatchedAgent.start.run (.transparent [])
      (lingering ++ [reattachBegin 399, .act (.receive 1 (query 7) 20 400), reattachFinish,
        .act (.removeExpired (Vector.replicate 8 7))])).Serving := by
  decide +kernel

end Portl
