import Portl.Agent.UdpSessions

/-!
# UDP forwarding stays inside the ticket

The ticket is looked at when a control stream opens: `udp_permits` tests the
ends of each bind's port range. A datagram comes later, on another way, and its
bind is picked by its port alone, perhaps after the binds were replaced. What
links the two is the control request that last set the binds of the session.

`AuditedAgent` runs the agent and writes that request down. The record has no
effect on the agent; it only gives the request a name.
-/

namespace Portl

open Checks Cover

/-- A control request: on whose behalf it came, and what its hosts resolved to. -/
structure UdpControl where
  session : Accepted
  req : UdpCtlReq
  ips : List Bytes

namespace UdpControl

def binds (c : UdpControl) : List ResolvedUdpBind := c.req.binds.zipWith .mk c.ips

def Checked (c : UdpControl) : Prop :=
  checkUdpControl c.session c.req = .ok () ∧ c.ips.length = c.req.binds.length

end UdpControl

/-- The agent with the request that holds the attach lock, and for each session
object the request that last set its binds. -/
structure AuditedAgent where
  agent : UdpAgent
  holder : Option UdpControl
  setBy : ℕ → Option UdpControl

namespace AuditedAgent

def start : AuditedAgent := ⟨.start, none, fun _ => none⟩

def holderAfter (h : AuditedAgent) (step : UdpStep) (a' : UdpAgent) : Option UdpControl :=
  match step, h.agent.attaching, a'.attaching with
  | .attachBegin session req ips _ _, none, some _ => some ⟨session, req, ips⟩
  | _, _, _ => h.holder

/-- A session was attached to or made: its binds are those of the lock's holder. -/
def setByAfter (h : AuditedAgent) (a' : UdpAgent) : ℕ → Option UdpControl :=
  match a'.attached with
  | [] => h.setBy
  | (object, _) :: rest =>
    if rest.length = h.agent.attached.length then Function.update h.setBy object h.holder
    else h.setBy

def step (P : Primitives) (h : AuditedAgent) (s : UdpStep) : AuditedAgent :=
  let a' := s.apply P h.agent
  ⟨a', h.holderAfter s a', h.setByAfter a'⟩

def run (P : Primitives) (steps : List UdpStep) (h : AuditedAgent) : AuditedAgent :=
  steps.foldl (step P) h

theorem run_agent (P : Primitives) (steps : List UdpStep) (h : AuditedAgent) :
    (h.run P steps).agent = h.agent.run P steps := by
  induction steps generalizing h with
  | nil => rfl
  | cons s steps ih => exact ih (h.step P s)

end AuditedAgent

/-! ## What a step does to binds -/

variable {P : Primitives} {a a' b : UdpAgent} {step : UdpStep} {call : UdpCall} {object : ℕ}
  {connection : ConnectionId} {s s' : UdpSession} {h : AuditedAgent}

/-- No session is attached to or made, and those there are keep their binds. -/
structure KeepsBinds (a a' : UdpAgent) : Prop where
  attached : a'.attached = a.attached
  binds : ∀ {object s'}, a'.objects object = some s' →
    ∃ s, a.objects object = some s ∧ s'.binds = s.binds

theorem KeepsBinds.of_eq (hobjects : a'.objects = a.objects) (hattached : a'.attached = a.attached) :
    KeepsBinds a a' where
  attached := hattached
  binds h := ⟨_, hobjects ▸ h, rfl⟩

theorem KeepsBinds.of_update (hs : a.objects object = some s) (hbinds : s'.binds = s.binds)
    (hobjects : a'.objects = Function.update a.objects object (some s'))
    (hattached : a'.attached = a.attached) : KeepsBinds a a' where
  attached := hattached
  binds := by
    rw [hobjects]
    intro other t ht
    rcases update_cases ht with ⟨rfl, rfl⟩ | ⟨-, hold⟩
    · exact ⟨s, hs, hbinds⟩
    · exact ⟨t, hold, rfl⟩

theorem keepsBinds_removeSessionLocked (a : UdpAgent) (id : Bytes8) :
    KeepsBinds a (a.removeSessionLocked id) := by
  unfold UdpAgent.removeSessionLocked
  cases a.sessions id with
  | none => exact .of_eq rfl rfl
  | some object =>
    cases hs : a.objects object with
    | none =>
      refine .of_eq ?_ rfl
      have hnone : (a.objects object).map UdpSession.shutdown = a.objects object := by
        rw [hs, Option.map_none]
      simp [hnone]
    | some s =>
      refine .of_update hs (rfl : s.shutdown.binds = s.binds) ?_ rfl
      simp [hs]

/-- The call at the lock sets the binds of `object`, and the lock is free again. -/
structure SetsBinds (a : UdpAgent) (call : UdpCall) (object : ℕ) (a' : UdpAgent) : Prop where
  attached : a'.attached = (object, call) :: a.attached
  objects : ∃ s', a'.objects = Function.update a.objects object (some s') ∧ s'.binds = call.binds
  attaching : a'.attaching = none

/-! ## The record is right -/

/-- **Every session has the binds of a request that was let through**: the one
the record names. So does the call at the lock. -/
structure Audited (h : AuditedAgent) : Prop where
  lock : ∀ {call target}, h.agent.attaching = some (call, target) →
    ∃ c, h.holder = some c ∧ c.Checked ∧ call.binds = c.binds
  binds : ∀ {object s}, h.agent.objects object = some s →
    ∃ c, h.setBy object = some c ∧ c.Checked ∧ s.binds = c.binds

theorem audited_start : Audited .start where
  lock h := by cases h
  binds h := by cases h

theorem setByAfter_of_keepsBinds (hkeeps : KeepsBinds h.agent a') : h.setByAfter a' = h.setBy := by
  unfold AuditedAgent.setByAfter
  rw [hkeeps.attached]
  split
  · rfl
  · rename_i object call rest heq
    rw [heq, if_neg (by simp)]

theorem setByAfter_of_setsBinds (hsets : SetsBinds h.agent call object a') :
    h.setByAfter a' = Function.update h.setBy object h.holder := by
  unfold AuditedAgent.setByAfter
  rw [hsets.attached]
  simp

variable (ha : Audited h)
include ha

theorem Audited.of_keepsBinds (hkeeps : KeepsBinds h.agent a') {holder : Option UdpControl}
    (hlock : ∀ {call target}, a'.attaching = some (call, target) →
      ∃ c, holder = some c ∧ c.Checked ∧ call.binds = c.binds) :
    Audited ⟨a', holder, h.setByAfter a'⟩ where
  lock := hlock
  binds := by
    intro object s' hs'
    obtain ⟨s, hs, hbinds⟩ := hkeeps.binds hs'
    obtain ⟨c, hc, hchecked, hsame⟩ := ha.binds hs
    exact ⟨c, by rw [setByAfter_of_keepsBinds hkeeps]; exact hc, hchecked, hbinds.trans hsame⟩

variable {target : Option ℕ} {bind : UdpBind}

theorem Audited.of_setsBinds (hattaching : h.agent.attaching = some (call, target))
    (hsets : SetsBinds h.agent call object a') (holder : Option UdpControl) :
    Audited ⟨a', holder, h.setByAfter a'⟩ where
  lock := by
    intro call target hsome
    rw [hsets.attaching] at hsome
    cases hsome
  binds := by
    rw [setByAfter_of_setsBinds hsets]
    obtain ⟨s', hobjects, hbinds⟩ := hsets.objects
    intro other s hs
    rw [hobjects] at hs
    rcases update_cases hs with ⟨rfl, rfl⟩ | ⟨hne, hold⟩
    · obtain ⟨c, hc, hchecked, hsame⟩ := ha.lock hattaching
      exact ⟨c, by simpa using hc, hchecked, hbinds.trans hsame⟩
    · obtain ⟨c, hc, hchecked, hsame⟩ := ha.binds hold
      exact ⟨c, by simpa [Function.update_of_ne hne] using hc, hchecked, hsame⟩

theorem Audited.keeps (hkeeps : KeepsBinds h.agent b)
    (hlock : b.attaching = h.agent.attaching ∨ b.attaching = none) :
    Audited ⟨b, h.holderAfter step b, h.setByAfter b⟩ := by
  refine ha.of_keepsBinds hkeeps ?_
  intro call target hsome
  rcases hlock with hsame | hnone
  · have hheld : h.agent.attaching = some (call, target) := hsame.symm.trans hsome
    obtain ⟨c, hc, hrest⟩ := ha.lock hheld
    refine ⟨c, ?_, hrest⟩
    unfold AuditedAgent.holderAfter
    rw [hheld]
    cases step <;> exact hc
  · cases hnone.symm.trans hsome

theorem Audited.locks (hkeeps : KeepsBinds h.agent b) {session : Accepted} {req : UdpCtlReq}
    {ips : List Bytes} {now : UInt64} (hfree : h.agent.attaching = none)
    (hchecked : (UdpControl.mk session req ips).Checked) (hnow : b.attaching = some (call, target))
    (hbinds : call.binds = (UdpControl.mk session req ips).binds) :
    Audited ⟨b, h.holderAfter (.attachBegin session req ips connection now) b, h.setByAfter b⟩ := by
  refine ha.of_keepsBinds hkeeps ?_
  intro call' target' hsome
  cases hnow.symm.trans hsome
  refine ⟨⟨session, req, ips⟩, ?_, hchecked, hbinds⟩
  simp [AuditedAgent.holderAfter, hfree, hnow]

theorem audited_change (hchange : h.agent.Change P step b) :
    Audited ⟨b, h.holderAfter step b, h.setByAfter b⟩ := by
  cases hchange with
  | drops | ends => exact ha.keeps (.of_eq rfl rfl) (.inl rfl)
  | locks hfree hchecked hid hbinds htarget =>
    refine ha.locks ?_ hfree hchecked (by rfl) hbinds
    exact .of_eq rfl rfl
  | replaces hfree hchecked hbinds hreg hexpired =>
    have hkeeps := keepsBinds_removeSessionLocked h.agent
    refine ha.locks ?_ hfree hchecked (by rfl) hbinds
    exact ⟨(hkeeps _).attached, (hkeeps _).binds⟩
  | unlocks => exact ha.keeps (.of_eq rfl rfl) (.inr rfl)
  | creates hattaching hfree => exact ha.of_setsBinds hattaching ⟨rfl, ⟨_, rfl, rfl⟩, rfl⟩ _
  | attaches hattaching hs hattach hcontrols =>
    obtain ⟨-, -, rfl⟩ := UdpSession.attach_eq_attached hattach
    exact ha.of_setsBinds hattaching ⟨rfl, ⟨_, rfl, rfl⟩, rfl⟩ _
  | @lingers connection object lingerUntil s hmem hs =>
    have hbinds := (s.markLingerIfCurrent_kept connection lingerUntil).2.2
    exact ha.keeps (.of_update hs hbinds rfl rfl) (.inl rfl)
  | routes hs => exact ha.keeps (.of_update hs (by rfl) rfl rfl) (.inl rfl)
  | sends hs => exact ha.keeps (.of_eq rfl rfl) (.inl rfl)
  | removes hfree hreg hstep =>
    exact ha.keeps (keepsBinds_removeSessionLocked _ _) (.inl (UdpAgent.removeSessionLocked_attaching _ _))

omit ha

theorem audited_step (step : UdpStep) (ha : Audited h) : Audited (h.step P step) := by
  obtain ⟨b, hcore, hchange⟩ := UdpAgent.change_apply P h.agent step
  have hb := audited_change ha hchange
  have hsame : Audited ⟨b.core, h.holderAfter step b.core, h.setByAfter b.core⟩ :=
    ⟨hb.lock, hb.binds⟩
  rw [← hcore] at hsame
  exact ⟨hsame.lock, hsame.binds⟩

theorem audited_run (P : Primitives) (steps : List UdpStep) :
    Audited (AuditedAgent.start.run P steps) := by
  have hrun : ∀ h, Audited h → Audited (h.run P steps) := by
    induction steps with
    | nil => exact fun _ ha => ha
    | cons step steps ih => exact fun h ha => ih (h.step P step) (audited_step step ha)
  exact hrun _ audited_start

/-! ## A datagram inside its bind is inside the ticket -/

theorem UdpSession.routeToTarget_eq_ok {datagram : UdpDatagram} {socketFails : Bool}
    {target : Bytes × UInt16} (h : (s.routeToTarget datagram socketFails).1 = .ok target) :
    ∃ bind ∈ s.binds, bind.bind.targetPortRange.1 ≤ datagram.targetPort ∧
      datagram.targetPort ≤ bind.bind.targetPortRange.2 ∧
      target = (bind.targetIp, datagram.targetPort) := by
  unfold routeToTarget at h
  split at h
  · cases h
  · rename_i bind hfind
    have hrange := List.find?_some hfind
    simp only [Bool.and_eq_true, decide_eq_true_eq] at hrange
    refine ⟨bind, List.mem_of_find?_eq_some hfind, hrange.1, hrange.2, ?_⟩
    simp only at h
    split_ifs at h
    cases h
    rfl

/-- A port between the ends of a permitted range is in the range of the rule:
with the ends the wrong way round there is no such port. -/
theorem rule_of_udpPermits {caps : Capabilities} {port : UInt16} (h : udpPermits caps bind = .ok ())
    (hmin : bind.targetPortRange.1 ≤ port) (hmax : port ≤ bind.targetPortRange.2) :
    ∃ rules rule, caps.udp = some rules ∧ rule ∈ rules ∧
      hostMatches rule.hostGlob bind.targetHost = true ∧ rule.portMin ≤ port ∧
      port ≤ rule.portMax := by
  obtain ⟨rules, hrules, hallow⟩ := udpPermits_eq_ok.mp h
  obtain ⟨rule, hrule, hadm⟩ := allows_iff.mp hallow
  simp only [ruleAdmits, Bool.and_eq_true, decide_eq_true_eq] at hadm
  obtain ⟨⟨hhost, hlo⟩, hhi⟩ := hadm
  exact ⟨rules, rule, hrules, hrule, hhost, UInt16.le_trans hlo hmin, UInt16.le_trans hmax hhi⟩

theorem UdpControl.Checked.permits {c : UdpControl} (h : c.Checked) (hbind : bind ∈ c.req.binds) :
    udpPermits c.session.caps bind = .ok () := by
  have hchecks := h.1
  simp only [checkUdpControl, bind_eq_ok, failIf_eq_ok, forEach_eq_ok] at hchecks
  obtain ⟨-, -, -, -, hall⟩ := hchecks
  exact mapError_eq_ok.mp (hall bind hbind)

/-- **Forwarding stays inside the ticket.** In every reachable state, whatever a
session forwards goes to the address resolved for the host of a bind that the
ticket permits, and to a port that a rule of the ticket admits for that host.
The ticket is the one of the request that set the binds of the session. -/
theorem udp_forwards_within_ticket (P : Primitives) (steps : List UdpStep) {object : ℕ}
    {s : UdpSession} {datagram : UdpDatagram} {socketFails : Bool} {target : Bytes × UInt16}
    (hs : (UdpAgent.start.run P steps).objects object = some s)
    (hroute : (s.routeToTarget datagram socketFails).1 = .ok target) :
    ∃ c, (AuditedAgent.start.run P steps).setBy object = some c ∧ s.binds = c.binds ∧
      ∃ bind ip, (bind, ip) ∈ c.req.binds.zip c.ips ∧
        udpPermits c.session.caps bind = .ok () ∧ target = (ip, datagram.targetPort) ∧
        ∃ rules rule, c.session.caps.udp = some rules ∧ rule ∈ rules ∧
          hostMatches rule.hostGlob bind.targetHost = true ∧
          rule.portMin ≤ datagram.targetPort ∧ datagram.targetPort ≤ rule.portMax := by
  have hobject : (AuditedAgent.start.run P steps).agent.objects object = some s := by
    rw [AuditedAgent.run_agent]
    exact hs
  obtain ⟨c, hc, hchecked, hbinds⟩ := (audited_run P steps).binds hobject
  obtain ⟨resolved, hmem, hmin, hmax, htarget⟩ := UdpSession.routeToTarget_eq_ok hroute
  rw [hbinds, UdpControl.binds, ← List.map_uncurry_zip_eq_zipWith] at hmem
  obtain ⟨⟨bind, ip⟩, hzip, rfl⟩ := List.mem_map.mp hmem
  have hpermits := hchecked.permits (List.of_mem_zip hzip).1
  exact ⟨c, hc, hbinds, bind, ip, hzip, hpermits, htarget,
    rule_of_udpPermits hpermits hmin hmax⟩

/-- The owner attaches again, with overlapping binds and one whose ends are the
wrong way round. -/
def rebindRequest : UdpCtlReq :=
  { udpRequest 1 with
    sessionId := Vector.replicate 8 7
    binds := [⟨(0, 0), "log", (60, 50)⟩, ⟨(0, 0), "dns", (50, 60)⟩, ⟨(0, 0), "ntp", (53, 123)⟩] }

def rebindSteps : List UdpStep :=
  openSession 1 1 7 ++
    [.attachBegin (udpSession 1) rebindRequest [[10, 0, 0, 2], [10, 0, 0, 3], [10, 0, 0, 4]] 1 102,
      .attachFinish (Vector.replicate 8 9)]

def rebound : UdpSession :=
  { UdpSession.new (Vector.replicate 8 7)
      (ownerFingerprint (.transparent []) (Vector.replicate 16 1)
        (Hex.encode (Vector.replicate 16 1).toList))
      (rebindRequest.binds.zipWith .mk [[10, 0, 0, 2], [10, 0, 0, 3], [10, 0, 0, 4]]) 1 with
    activeControls := 2 }

/-- A query goes through the first bind that has its port, under the new request. -/
theorem udp_forwards_within_ticket_rebound :
    (UdpAgent.start.run (.transparent []) rebindSteps).objects 0 = some rebound ∧
      (rebound.routeToTarget (query 7) false).1 = .ok ([10, 0, 0, 3], 53) ∧
      ∃ c, (AuditedAgent.start.run (.transparent []) rebindSteps).setBy 0 = some c ∧
        rebound.binds = c.binds ∧
        ∃ bind ip, (bind, ip) ∈ c.req.binds.zip c.ips ∧
          udpPermits c.session.caps bind = .ok () ∧ ([10, 0, 0, 3], 53) = (ip, (query 7).targetPort) ∧
          ∃ rules rule, c.session.caps.udp = some rules ∧ rule ∈ rules ∧
            hostMatches rule.hostGlob bind.targetHost = true ∧
            rule.portMin ≤ (query 7).targetPort ∧ (query 7).targetPort ≤ rule.portMax := by
  have hs : (UdpAgent.start.run (.transparent []) rebindSteps).objects 0 = some rebound := by
    decide +kernel
  have hroute : (rebound.routeToTarget (query 7) false).1 = .ok ([10, 0, 0, 3], 53) := by
    decide +kernel
  exact ⟨hs, hroute, udp_forwards_within_ticket _ _ hs hroute⟩

end Portl
