import Portl.Agent.UdpSessions
import Portl.Lib.Tally

/-!
# The accounts of the UDP registry

`udp_registry.rs`, call by call. Beside the sessions the registry keeps the number
of sessions of each connection, and no connection may have more than sixteen.

Taking over writes the session first and looks at the quota afterwards. When there
is no room the call fails, and the session belongs to the connection without being
counted. When the session that was asked for has expired it is removed before the
quota is looked at. In runs in which these calls find room, the numbers are right
after every call, and a call that fails has changed nothing.
-/

namespace Portl

open Tally

/-- `UdpSessionRegistry`. Sessions are written where they are shared, so the map
holds them as they are now. -/
structure UdpRegistry where
  lingerSecs : UInt64
  sessions : AList fun _ : Bytes8 => UdpSession
  connectionSessions : AList fun _ : ConnectionId => ℕ

/-- A call of `attach_or_create`, with what the resolver, the clock and the random
numbers say to it. -/
structure AttachCall where
  requestedSessionId : Bytes8
  resolved : Except String (List ResolvedUdpBind)
  clock : Except String UInt64
  connection : ConnectionId
  peerToken : Bytes16
  ticketIdHex : String
  draws : List Bytes8

def AttachCall.fingerprint (P : Primitives) (call : AttachCall) : Bytes32 :=
  ownerFingerprint P call.peerToken call.ticketIdHex

/-- How the call ends. `drawing`: no random number so far is a free id. -/
inductive AttachOutcome where
  | attached (sessionId : Bytes8)
  | failed (message : String)
  | drawing
deriving DecidableEq

namespace UdpRegistry

def new (lingerSecs : UInt64) : UdpRegistry := ⟨lingerSecs, ∅, ∅⟩

def put (reg : UdpRegistry) (sessionId : Bytes8) (s : UdpSession) : UdpRegistry :=
  { reg with sessions := reg.sessions.insert sessionId s }

/-- `ensure_connection_quota` fails. -/
def Full (reg : UdpRegistry) (connection : ConnectionId) : Prop :=
  maxSessionsPerConnection ≤ count reg.connectionSessions connection

instance (reg : UdpRegistry) (connection : ConnectionId) : Decidable (reg.Full connection) :=
  inferInstanceAs (Decidable (_ ≤ _))

def incrementConnectionSessions (reg : UdpRegistry) (connection : ConnectionId) : UdpRegistry :=
  { reg with connectionSessions := increment reg.connectionSessions connection }

def decrementConnectionSessions (reg : UdpRegistry) (connection : ConnectionId) : UdpRegistry :=
  { reg with connectionSessions := decrement reg.connectionSessions connection }

def removeSessionLocked (reg : UdpRegistry) (sessionId : Bytes8) : UdpRegistry :=
  match reg.sessions.lookup sessionId with
  | none => reg
  | some s =>
    let reg := { reg with sessions := reg.sessions.erase sessionId }
    match s.connectionId with
    | some connection => reg.decrementConnectionSessions connection
    | none => reg

/-- `allocate_session_id_locked`: the first number drawn that is free. -/
def allocateSessionIdLocked (reg : UdpRegistry) (draws : List Bytes8) : Option Bytes8 :=
  draws.find? fun id => id ≠ Vector.replicate 8 0 ∧ (reg.sessions.lookup id).isNone

def requested (reg : UdpRegistry) (sessionId : Bytes8) : Option UdpSession :=
  if sessionId = Vector.replicate 8 0 then none else reg.sessions.lookup sessionId

/-- The end of `attach_or_create`: a fresh session. -/
def createSession (P : Primitives) (reg : UdpRegistry) (call : AttachCall)
    (binds : List ResolvedUdpBind) : AttachOutcome × UdpRegistry :=
  if reg.Full call.connection then (.failed "session quota exceeded", reg)
  else
    match reg.allocateSessionIdLocked call.draws with
    | none => (.drawing, reg)
    | some id =>
      (.attached id,
        (reg.put id (.new id (call.fingerprint P) binds call.connection)).incrementConnectionSessions
          call.connection)

/-- Its middle: `s`, which has not expired, is asked for. The quota is looked at
when the session is already written. -/
def attachSession (P : Primitives) (reg : UdpRegistry) (call : AttachCall)
    (binds : List ResolvedUdpBind) (s : UdpSession) : AttachOutcome × UdpRegistry :=
  match s.attach binds call.connection (call.fingerprint P) with
  | .error message => (.failed message, reg)
  | .ok (.createFresh, _) => reg.createSession P call binds
  | .ok (.attached countsAsSession, s') =>
    let reg := reg.put call.requestedSessionId s'
    if countsAsSession then
      if reg.Full call.connection then (.failed "session quota exceeded", reg)
      else (.attached call.requestedSessionId, reg.incrementConnectionSessions call.connection)
    else (.attached call.requestedSessionId, reg)

def attachOrCreate (P : Primitives) (reg : UdpRegistry) (call : AttachCall) :
    AttachOutcome × UdpRegistry :=
  match call.resolved, call.clock with
  | .error message, _ => (.failed message, reg)
  | .ok _, .error message => (.failed message, reg)
  | .ok binds, .ok now =>
    match reg.requested call.requestedSessionId with
    | none => reg.createSession P call binds
    | some s =>
      if s.isExpired now then
        (reg.removeSessionLocked call.requestedSessionId).createSession P call binds
      else reg.attachSession P call binds s

def getLive (reg : UdpRegistry) (sessionId : Bytes8) (clock : Except String UInt64) :
    Except String (Option UdpSession) × UdpRegistry :=
  match reg.sessions.lookup sessionId, clock with
  | none, _ => (.ok none, reg)
  | some _, .error message => (.error message, reg)
  | some s, .ok now =>
    if s.isExpired now then (.ok none, reg.removeSessionLocked sessionId) else (.ok (some s), reg)

def markLingerIfCurrent (reg : UdpRegistry) (sessionId : Bytes8) (connection : ConnectionId)
    (clock clock' : Except String UInt64) : Except String Unit × UdpRegistry :=
  match reg.getLive sessionId clock, clock' with
  | (.error message, reg), _ => (.error message, reg)
  | (.ok none, reg), _ => (.ok (), reg)
  | (.ok (some _), reg), .error message => (.error message, reg)
  | (.ok (some s), reg), .ok now =>
    let marked := s.markLingerIfCurrent connection (now + reg.lingerSecs)
    let reg := reg.put sessionId marked.1
    (.ok (), if marked.2 then reg.decrementConnectionSessions connection else reg)

def gcExpired (reg : UdpRegistry) (clock : Except String UInt64) : Except String Unit × UdpRegistry :=
  match clock with
  | .error message => (.error message, reg)
  | .ok now =>
    (.ok (), reg.sessions.entries.foldl
      (fun reg entry => if entry.2.isExpired now then reg.removeSessionLocked entry.1 else reg) reg)

def shutdown (reg : UdpRegistry) : UdpRegistry :=
  { reg.sessions.keys.foldl removeSessionLocked reg with connectionSessions := ∅ }

end UdpRegistry

/-! ## Runs -/

inductive UdpOp where
  | attachOrCreate (call : AttachCall)
  | markLingerIfCurrent (sessionId : Bytes8) (connection : ConnectionId)
      (clock clock' : Except String UInt64)
  | gcExpired (clock : Except String UInt64)
  | getLive (sessionId : Bytes8) (clock : Except String UInt64)
  | shutdown

def UdpOp.apply (P : Primitives) (reg : UdpRegistry) (op : UdpOp) : UdpRegistry :=
  match op with
  | .attachOrCreate call => (reg.attachOrCreate P call).2
  | .markLingerIfCurrent sessionId connection clock clock' =>
    (reg.markLingerIfCurrent sessionId connection clock clock').2
  | .gcExpired clock => (reg.gcExpired clock).2
  | .getLive sessionId clock => (reg.getLive sessionId clock).2
  | .shutdown => reg.shutdown

def UdpRegistry.run (P : Primitives) (ops : List UdpOp) (reg : UdpRegistry) : UdpRegistry :=
  ops.foldl (UdpOp.apply P) reg

def UdpRegistry.sessionCount (reg : UdpRegistry) (connection : ConnectionId) : ℕ :=
  size UdpSession.connectionId reg.sessions connection

/-- **The accounts are right**: each counter is the number of sessions of its
connection, none is above the quota, and none is zero. -/
structure UdpRegistry.Accounted (reg : UdpRegistry) : Prop where
  counted : ∀ connection, count reg.connectionSessions connection = reg.sessionCount connection
  quota : ∀ connection, count reg.connectionSessions connection ≤ maxSessionsPerConnection
  present : ∀ connection, reg.connectionSessions.lookup connection ≠ some 0

/-- A call that asks for a session that has expired, or for one of its own that
lingers, finds room for it on its connection. -/
def AttachCall.Roomy (P : Primitives) (reg : UdpRegistry) (call : AttachCall) : Prop :=
  match call.resolved, call.clock, reg.requested call.requestedSessionId with
  | .ok _, .ok now, some s =>
    s.isExpired now = true ∨
        s.ownerFingerprint = call.fingerprint P ∧ s.connectionId = none →
      ¬ reg.Full call.connection
  | _, _, _ => True

def UdpOp.Roomy (P : Primitives) (reg : UdpRegistry) (op : UdpOp) : Prop :=
  match op with
  | .attachOrCreate call => call.Roomy P reg
  | _ => True

instance (P : Primitives) (reg : UdpRegistry) (call : AttachCall) :
    Decidable (call.Roomy P reg) := by
  unfold AttachCall.Roomy
  split <;> infer_instance

instance (P : Primitives) (reg : UdpRegistry) (op : UdpOp) : Decidable (op.Roomy P reg) := by
  unfold UdpOp.Roomy
  split <;> infer_instance

/-! ## What each call does to the accounts -/

/-- The invariant: the counters hold the numbers of sessions, these are within the
quota, and a session that is attached does not linger. -/
structure Balanced (reg : UdpRegistry) : Prop where
  holds : Holds reg.connectionSessions reg.sessionCount
  quota : ∀ connection, reg.sessionCount connection ≤ maxSessionsPerConnection
  steady : ∀ {id s}, reg.sessions.lookup id = some s → s.connectionId ≠ none → s.lingerUntil = none

namespace Balanced

variable {P : Primitives} {reg : UdpRegistry} {id : Bytes8} {s s' : UdpSession}
  {connection : ConnectionId}

theorem new (lingerSecs : UInt64) : Balanced (.new lingerSecs) where
  holds := Holds.empty
  quota _ := Nat.zero_le _
  steady h := by cases h

variable (h : Balanced reg)
include h

theorem accounted : reg.Accounted where
  counted := h.holds.count_eq
  quota connection := by
    rw [h.holds.count_eq]
    exact h.quota connection
  present := h.holds.lookup_ne_zero

theorem full_iff :
    reg.Full connection ↔ maxSessionsPerConnection ≤ reg.sessionCount connection := by
  rw [UdpRegistry.Full, h.holds.count_eq]

theorem steady_put (hs' : s'.connectionId ≠ none → s'.lingerUntil = none) {other : Bytes8}
    {t : UdpSession} (ht : (reg.put id s').sessions.lookup other = some t)
    (hattached : t.connectionId ≠ none) : t.lingerUntil = none := by
  by_cases hother : other = id
  · subst hother
    rw [UdpRegistry.put, AList.lookup_insert, Option.some.injEq] at ht
    subst ht
    exact hs' hattached
  · rw [UdpRegistry.put, AList.lookup_insert_ne hother] at ht
    exact h.steady ht hattached

theorem put_same (hs : reg.sessions.lookup id = some s) (hconn : s'.connectionId = s.connectionId)
    (hlinger : s'.connectionId ≠ none → s'.lingerUntil = none) : Balanced (reg.put id s') := by
  have hcount : ∀ c, (reg.put id s').sessionCount c = reg.sessionCount c :=
    fun c => size_insert_same hs hconn c
  refine ⟨h.holds.congr hcount, fun c => ?_, h.steady_put hlinger⟩
  rw [hcount c]
  exact h.quota c

theorem put_attached (hcount : ∀ c, (reg.put id s').sessionCount c =
      reg.sessionCount c + weight UdpSession.connectionId s' c)
    (hconn : s'.connectionId = some connection) (hlinger : s'.lingerUntil = none)
    (hroom : reg.sessionCount connection < maxSessionsPerConnection) :
    Balanced ((reg.put id s').incrementConnectionSessions connection) := by
  have hself : (reg.put id s').sessionCount connection = reg.sessionCount connection + 1 := by
    rw [hcount connection, weight, if_pos hconn]
  have hother : ∀ c, c ≠ connection → (reg.put id s').sessionCount c = reg.sessionCount c := by
    intro c hc
    rw [hcount c, weight, hconn, if_neg, Nat.add_zero]
    rintro ⟨⟩
    exact hc rfl
  refine ⟨h.holds.increment hself hother, fun c => ?_, h.steady_put fun _ => hlinger⟩
  show (reg.put id s').sessionCount c ≤ _
  by_cases hc : c = connection
  · subst hc
    rw [hself]
    exact hroom
  · rw [hother c hc]
    exact h.quota c

theorem release {sessions : AList fun _ : Bytes8 => UdpSession}
    (hcount : ∀ c, size UdpSession.connectionId sessions c + weight UdpSession.connectionId s c =
      reg.sessionCount c) (hsteady : ∀ {id t}, sessions.lookup id = some t → t.connectionId ≠ none →
      t.lingerUntil = none) (hconn : s.connectionId = some connection) :
    Balanced (UdpRegistry.decrementConnectionSessions { reg with sessions := sessions }
      connection) := by
  refine ⟨h.holds.decrement ?_ ?_, fun c => ?_, hsteady⟩
  · rw [← hcount connection, weight, if_pos hconn]
    rfl
  · intro c hc
    rw [← hcount c, weight, hconn, if_neg]
    · rfl
    · rintro ⟨⟩
      exact hc rfl
  · have := hcount c
    have := h.quota c
    show size UdpSession.connectionId sessions c ≤ _
    omega

theorem removeSessionLocked (id : Bytes8) : Balanced (reg.removeSessionLocked id) := by
  unfold UdpRegistry.removeSessionLocked
  cases hs : reg.sessions.lookup id with
  | none => exact h
  | some s =>
    have hsteady : ∀ {other t}, (reg.sessions.erase id).lookup other = some t →
        t.connectionId ≠ none → t.lingerUntil = none := by
      intro other t ht
      by_cases hother : other = id
      · rw [hother, AList.lookup_erase] at ht
        cases ht
      · rw [AList.lookup_erase_ne hother] at ht
        exact h.steady ht
    have hcount : ∀ c, size UdpSession.connectionId (reg.sessions.erase id) c +
        weight UdpSession.connectionId s c = reg.sessionCount c := size_erase hs
    cases hconn : s.connectionId with
    | some connection =>
      simp only [hconn]
      exact h.release hcount hsteady hconn
    | none =>
      have hsame : ∀ c, size UdpSession.connectionId (reg.sessions.erase id) c =
          reg.sessionCount c := by
        intro c
        have := hcount c
        rwa [weight_of_eq_none hconn, Nat.add_zero] at this
      simp only [hconn]
      refine ⟨h.holds.congr hsame, fun c => ?_, hsteady⟩
      show size UdpSession.connectionId (reg.sessions.erase id) c ≤ _
      rw [hsame c]
      exact h.quota c

theorem getLive (id : Bytes8) (clock : Except String UInt64) :
    Balanced (reg.getLive id clock).2 := by
  unfold UdpRegistry.getLive
  cases reg.sessions.lookup id with
  | none => exact h
  | some s =>
    cases clock with
    | error message => exact h
    | ok now =>
      simp only
      split_ifs
      · exact h.removeSessionLocked id
      · exact h

omit h

theorem lookup_of_getLive {clock : Except String UInt64} {reg' : UdpRegistry}
    (hlive : reg.getLive id clock = (.ok (some s), reg')) :
    reg.sessions.lookup id = some s ∧ reg' = reg := by
  unfold UdpRegistry.getLive at hlive
  cases hs : reg.sessions.lookup id with
  | none =>
    rw [hs] at hlive
    cases hlive
  | some found =>
    rw [hs] at hlive
    cases clock with
    | error message => cases hlive
    | ok now =>
      simp only at hlive
      split_ifs at hlive
      · cases hlive
      · cases hlive
        exact ⟨rfl, rfl⟩

/-- **A control stream ends.** -/
theorem markLingerIfCurrent (h : Balanced reg) (id : Bytes8) (connection : ConnectionId)
    (clock clock' : Except String UInt64) :
    Balanced (reg.markLingerIfCurrent id connection clock clock').2 := by
  have hlive := h.getLive id clock
  unfold UdpRegistry.markLingerIfCurrent
  rcases hget : reg.getLive id clock with ⟨found, reg'⟩
  rw [hget] at hlive
  cases found with
  | error message => exact hlive
  | ok found =>
    cases found with
    | none => exact hlive
    | some s =>
      cases clock' with
      | error message => exact hlive
      | ok now =>
        obtain ⟨hs, rfl⟩ := lookup_of_getLive hget
        simp only [UdpSession.markLingerIfCurrent]
        by_cases hother : s.connectionId ≠ some connection
        · simp only [if_pos hother]
          exact h.put_same hs rfl (h.steady hs)
        · by_cases hmore : s.activeControls > 1
          · simp only [if_neg hother, if_pos hmore]
            have hsteady := h.steady hs
            exact h.put_same hs rfl hsteady
          · simp only [if_neg hother, if_neg hmore]
            exact h.release (size_insert_leave hs rfl)
              (h.steady_put fun hattached => absurd rfl hattached) (not_not.mp hother)

theorem gcExpired (h : Balanced reg) (clock : Except String UInt64) :
    Balanced (reg.gcExpired clock).2 := by
  unfold UdpRegistry.gcExpired
  cases clock with
  | error message => exact h
  | ok now =>
    refine List.foldlRecOn _ _ h fun reg hreg entry _ => ?_
    split_ifs
    · exact hreg.removeSessionLocked entry.1
    · exact hreg

end Balanced

/-! ## Attaching -/

/-- How a call leaves the registry: in balance, and as it was when it fails. -/
structure FairCall (reg : UdpRegistry) (result : AttachOutcome × UdpRegistry) : Prop where
  balanced : Balanced result.2
  unchanged : ∀ message, result.1 = .failed message → result.2 = reg

namespace Balanced

variable {P : Primitives} {reg : UdpRegistry} {id : Bytes8} {s s' : UdpSession}
  {connection : ConnectionId}

variable (h : Balanced reg)
include h

theorem refused (message : String) : FairCall reg (.failed message, reg) :=
  ⟨h, fun _ _ => rfl⟩

theorem createSession (call : AttachCall) (binds : List ResolvedUdpBind) :
    FairCall reg (reg.createSession P call binds) := by
  unfold UdpRegistry.createSession
  split_ifs with hfull
  · exact h.refused _
  · cases hid : reg.allocateSessionIdLocked call.draws with
    | none => exact ⟨h, nofun⟩
    | some id =>
      have hfree : reg.sessions.lookup id = none := by
        have hfound := List.find?_some hid
        rw [decide_eq_true_eq] at hfound
        exact Option.isNone_iff_eq_none.mp hfound.2
      rw [h.full_iff, not_le] at hfull
      exact ⟨h.put_attached (size_insert_fresh hfree) rfl rfl hfull, nofun⟩

theorem connectionId_of_isExpired (hs : reg.sessions.lookup id = some s) {now : UInt64}
    (hexpired : s.isExpired now = true) : s.connectionId = none := by
  by_contra hattached
  rw [UdpSession.isExpired, h.steady hs hattached] at hexpired
  cases hexpired

theorem connectionId_of_attached (hs : reg.sessions.lookup id = some s)
    (hmode : s.attachMode connection = .attached true) : s.connectionId = none := by
  by_contra hattached
  rcases UdpSession.attachMode_eq_over hmode with hnone | hlinger
  · exact hattached hnone
  · exact hlinger (h.steady hs hattached)

theorem attachSession (call : AttachCall) (binds : List ResolvedUdpBind)
    (hs : reg.sessions.lookup call.requestedSessionId = some s)
    (hroom : s.ownerFingerprint = call.fingerprint P → s.connectionId = none →
      ¬ reg.Full call.connection) : FairCall reg (reg.attachSession P call binds s) := by
  unfold UdpRegistry.attachSession
  cases hattach : s.attach binds call.connection (call.fingerprint P) with
  | error message => exact h.refused message
  | ok result =>
    obtain ⟨mode, s'⟩ := result
    cases mode with
    | createFresh => exact h.createSession call binds
    | attached countsAsSession =>
      obtain ⟨howner, hmode, rfl⟩ := UdpSession.attach_eq_attached hattach
      cases countsAsSession with
      | false =>
        have hsame := UdpSession.attachMode_eq_again hmode
        exact ⟨h.put_same hs hsame.symm fun _ => rfl, nofun⟩
      | true =>
        have hnone := h.connectionId_of_attached hs hmode
        have hfree := hroom howner hnone
        simp only [if_true]
        rw [if_neg (show ¬ UdpRegistry.Full (reg.put _ _) _ from hfree)]
        rw [h.full_iff, not_le] at hfree
        exact ⟨h.put_attached (size_insert_join hs hnone) rfl rfl hfree, nofun⟩

theorem replaceExpired (call : AttachCall) (binds : List ResolvedUdpBind)
    (hs : reg.sessions.lookup id = some s) (hconn : s.connectionId = none)
    (hroom : ¬ reg.Full call.connection) :
    FairCall reg ((reg.removeSessionLocked id).createSession P call binds) := by
  refine ⟨((h.removeSessionLocked id).createSession call binds).balanced, ?_⟩
  -- its counters are as before
  have hsame : (reg.removeSessionLocked id).connectionSessions = reg.connectionSessions := by
    simp only [UdpRegistry.removeSessionLocked, hs, hconn]
  have hroom' : ¬ (reg.removeSessionLocked id).Full call.connection := by
    rwa [UdpRegistry.Full, hsame]
  unfold UdpRegistry.createSession
  rw [if_neg hroom']
  cases (reg.removeSessionLocked id).allocateSessionIdLocked call.draws with
  | none | some => exact nofun

/-- **A call that finds room** is fair. -/
theorem attachOrCreate {call : AttachCall} (hroomy : call.Roomy P reg) :
    FairCall reg (reg.attachOrCreate P call) := by
  revert hroomy
  unfold UdpRegistry.attachOrCreate AttachCall.Roomy
  cases call.resolved with
  | error message => exact fun _ => h.refused message
  | ok binds =>
    cases call.clock with
    | error message => exact fun _ => h.refused message
    | ok now =>
      cases hreq : reg.requested call.requestedSessionId with
      | none => exact fun _ => h.createSession call binds
      | some s =>
        intro hroomy
        simp only at hroomy ⊢
        have hs : reg.sessions.lookup call.requestedSessionId = some s := by
          unfold UdpRegistry.requested at hreq
          split_ifs at hreq
          exact hreq
        split_ifs with hexpired
        · have hconn := h.connectionId_of_isExpired hs hexpired
          exact h.replaceExpired call binds hs hconn (hroomy (Or.inl hexpired))
        · apply h.attachSession call binds hs
          intro howner hnone
          exact hroomy (Or.inr ⟨howner, hnone⟩)

end Balanced

/-! ## The end of the registry -/

namespace UdpRegistry

theorem sessions_removeSessionLocked (reg : UdpRegistry) (id other : Bytes8) :
    (reg.removeSessionLocked id).sessions.lookup other =
      if other = id then none else reg.sessions.lookup other := by
  unfold removeSessionLocked
  cases hs : reg.sessions.lookup id with
  | none =>
    split_ifs with hother
    · rw [hother, hs]
    · rfl
  | some s =>
    have herase : (reg.sessions.erase id).lookup other =
        if other = id then none else reg.sessions.lookup other := by
      split_ifs with hother
      · rw [hother, AList.lookup_erase]
      · rw [AList.lookup_erase_ne hother]
    cases hconn : s.connectionId with
    | none | some =>
      simp only [hconn]
      exact herase

theorem sessions_foldl_removeSessionLocked (ids : List Bytes8) (reg : UdpRegistry)
    (other : Bytes8) :
    (ids.foldl removeSessionLocked reg).sessions.lookup other =
      if other ∈ ids then none else reg.sessions.lookup other := by
  induction ids generalizing reg with
  | nil => rfl
  | cons id ids ih =>
    rw [List.foldl_cons, ih, sessions_removeSessionLocked]
    by_cases hid : other = id
    · simp [hid]
    · simp [hid]

theorem sessions_shutdown (reg : UdpRegistry) (id : Bytes8) :
    reg.shutdown.sessions.lookup id = none := by
  show (reg.sessions.keys.foldl removeSessionLocked reg).sessions.lookup id = none
  rw [sessions_foldl_removeSessionLocked]
  split_ifs with hmem
  · rfl
  · exact AList.lookup_eq_none.mpr hmem

end UdpRegistry

theorem Balanced.shutdown (reg : UdpRegistry) : Balanced reg.shutdown := by
  have hzero : ∀ c, reg.shutdown.sessionCount c = 0 :=
    size_of_lookup_eq_none reg.sessions_shutdown
  refine ⟨Holds.empty.congr hzero, fun c => ?_, fun hs => ?_⟩
  · rw [hzero c]
    exact Nat.zero_le _
  · rw [reg.sessions_shutdown] at hs
    cases hs

/-! ## Runs -/

variable {P : Primitives}

theorem balanced_step {reg : UdpRegistry} (op : UdpOp) (h : Balanced reg)
    (hroomy : op.Roomy P reg) : Balanced (op.apply P reg) := by
  cases op with
  | attachOrCreate call => exact (h.attachOrCreate hroomy).balanced
  | markLingerIfCurrent id connection clock clock' =>
    exact h.markLingerIfCurrent id connection clock clock'
  | gcExpired clock => exact h.gcExpired clock
  | getLive id clock => exact h.getLive id clock
  | shutdown => exact Balanced.shutdown reg

theorem balanced_run {lingerSecs : UInt64} {ops : List UdpOp}
    (hroomy : Run.Guarded (UdpOp.apply P) (fun reg op => op.Roomy P reg) (.new lingerSecs) ops) :
    Balanced ((UdpRegistry.new lingerSecs).run P ops) :=
  hroomy.invariant (fun _ op h hok => balanced_step op h hok) (.new lingerSecs)

/-- **The accounts.** In every run whose attaches find room where they need it, each
counter is the number of sessions of its connection, at most sixteen and never a
zero entry, and an attach that fails leaves the registry as it was. -/
theorem udp_sessions_accounted (P : Primitives) (lingerSecs : UInt64) (ops : List UdpOp)
    (hroomy : Run.Guarded (UdpOp.apply P) (fun reg op => op.Roomy P reg) (.new lingerSecs) ops) :
    ((UdpRegistry.new lingerSecs).run P ops).Accounted ∧
      ∀ call message, call.Roomy P ((UdpRegistry.new lingerSecs).run P ops) →
        (((UdpRegistry.new lingerSecs).run P ops).attachOrCreate P call).1 = .failed message →
        (((UdpRegistry.new lingerSecs).run P ops).attachOrCreate P call).2 =
          (UdpRegistry.new lingerSecs).run P ops := by
  have hbalanced := balanced_run hroomy
  refine ⟨hbalanced.accounted, fun call message hcall hfailed => ?_⟩
  exact (hbalanced.attachOrCreate hcall).unchanged message hfailed

/-! ### A seventeenth session -/

/-- A client asks on a connection for a session (the zero id: a fresh one), which
gets the id that is drawn. -/
def askFor (connection : ConnectionId) (requested drawn : UInt8) : AttachCall :=
  { requestedSessionId := Vector.replicate 8 requested, resolved := .ok [],
    clock := .ok 100, connection := connection, peerToken := Vector.replicate 16 1,
    ticketIdHex := "01", draws := [Vector.replicate 8 drawn] }

/-- A session is made on connection 1 and left to linger; connection 2 makes itself
`n` sessions. -/
def lingerThenFill (n : ℕ) : List UdpOp :=
  [.attachOrCreate (askFor 1 0 1),
    .markLingerIfCurrent (Vector.replicate 8 1) 1 (.ok 100) (.ok 100)] ++
  (List.range n).map fun i => .attachOrCreate (askFor 2 0 (UInt8.ofNat (i + 2)))

/-- The lingering session is one of three that connection 2 has then; a caller
without the owner's fingerprint is turned away and leaves all as it is. -/
theorem udp_sessions_accounted_three :
    ((UdpRegistry.new 300).run (.transparent [])
        (lingerThenFill 2 ++ [UdpOp.attachOrCreate (askFor 2 1 9)])).Accounted ∧
      count ((UdpRegistry.new 300).run (.transparent [])
        (lingerThenFill 2 ++ [UdpOp.attachOrCreate (askFor 2 1 9)])).connectionSessions 2 = 3 ∧
      (((UdpRegistry.new 300).run (.transparent [])
        (lingerThenFill 2 ++ [UdpOp.attachOrCreate (askFor 2 1 9)])).attachOrCreate (.transparent [])
          { askFor 2 1 9 with ticketIdHex := "02" }).2 =
        (UdpRegistry.new 300).run (.transparent [])
          (lingerThenFill 2 ++ [UdpOp.attachOrCreate (askFor 2 1 9)]) := by
  have hrun := udp_sessions_accounted (.transparent []) 300
    (lingerThenFill 2 ++ [UdpOp.attachOrCreate (askFor 2 1 9)]) (by decide +kernel)
  refine ⟨hrun.1, by decide +kernel, ?_⟩
  exact hrun.2 _ "udp session owner mismatch" (by decide +kernel) (by decide +kernel)

/-- With sixteen sessions on connection 2 the attach fails, and connection 2 has
seventeen, of which sixteen are counted. -/
theorem udp_quota_error_attaches :
    (((UdpRegistry.new 300).run (.transparent []) (lingerThenFill 16)).attachOrCreate
        (.transparent []) (askFor 2 1 99)).1 = .failed "session quota exceeded" ∧
      ((UdpRegistry.new 300).run (.transparent []) (lingerThenFill 16)).sessionCount 2 = 16 ∧
      ((UdpRegistry.new 300).run (.transparent [])
        (lingerThenFill 16 ++ [UdpOp.attachOrCreate (askFor 2 1 99)])).sessionCount 2 = 17 ∧
      count ((UdpRegistry.new 300).run (.transparent [])
        (lingerThenFill 16 ++ [UdpOp.attachOrCreate (askFor 2 1 99)])).connectionSessions 2 = 16 := by
  decide +kernel

end Portl
