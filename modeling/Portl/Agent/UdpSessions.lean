import Mathlib.Algebra.Order.Ring.Int
import Portl.Lib.Run
import Portl.Caps.Enforce
import Portl.Agent.Pipeline

/-!
# UDP sessions

`udp_registry.rs` and `udp_handler.rs`. A control stream creates a session or
attaches to one, and the registry, which all connections share, keeps it under
a random id. A pump per connection reads the id out of each datagram and looks it up.

An attach compares the fingerprint of the caller with the owner's. The pump
compares nothing, so whoever knows the id of a session sends through it. What
isolates connections is that a client sends on a session only while it holds a
control stream on it (`Scoped`).

Every action below is one critical section of the source.
-/

namespace Portl

open Checks List

/-! ## One session -/

def maxSessionsPerConnection : ℕ := 16

def maxSrcTagsPerSession : ℕ := 1024

def maxUdpDatagramBytes : ℕ := 1200

def ownerFingerprintDomain : Bytes := asciiBytes "portl/udp-session/v1"

def ownerFingerprint (P : Primitives) (peerToken : Bytes16) (ticketIdHex : String) : Bytes32 :=
  P.sha256 (peerToken.toList ++ asciiBytes ticketIdHex ++ ownerFingerprintDomain)

structure ResolvedUdpBind where
  bind : UdpBind
  targetIp : Bytes
deriving DecidableEq

structure UdpDatagram where
  sessionId : Bytes8
  targetPort : UInt16
  srcTag : UInt32
  payload : Bytes
deriving DecidableEq

/-- A connection is known by its `stable_id`. -/
abbrev ConnectionId := ℕ

/-- `UdpSession` with what its lock guards. The source tags stand in the order of
their last use. -/
structure UdpSession where
  sessionId : Bytes8
  ownerFingerprint : Bytes32
  binds : List ResolvedUdpBind
  connectionId : Option ConnectionId
  activeControls : ℕ
  lingerUntil : Option UInt64
  srcTags : List UInt32
deriving DecidableEq

inductive AttachResult where
  | attached (countsAsSession : Bool)
  | createFresh
deriving DecidableEq

namespace UdpSession

def new (sessionId : Bytes8) (ownerFingerprint : Bytes32) (binds : List ResolvedUdpBind)
    (connection : ConnectionId) : UdpSession :=
  { sessionId, ownerFingerprint, binds, connectionId := some connection, activeControls := 1,
    lingerUntil := none, srcTags := [] }

def isExpired (s : UdpSession) (now : UInt64) : Bool := s.lingerUntil.any (· ≤ now)

/-- What the new connection means for a session: the same one again, one that
another connection holds, or one to take over. -/
def attachMode (s : UdpSession) (connection : ConnectionId) : AttachResult :=
  match s.connectionId with
  | some current =>
    if current = connection then .attached false
    else if s.lingerUntil = none then .createFresh
    else .attached true
  | none => .attached true

def attach (s : UdpSession) (binds : List ResolvedUdpBind) (connection : ConnectionId)
    (fingerprint : Bytes32) : Except String (AttachResult × UdpSession) :=
  if s.ownerFingerprint ≠ fingerprint then .error "udp session owner mismatch"
  else
    match s.attachMode connection with
    | .createFresh => .ok (.createFresh, s)
    | .attached countsAsSession =>
      .ok (.attached countsAsSession,
        { s with
          binds := binds
          connectionId := some connection
          lingerUntil := none
          activeControls := if countsAsSession then 1 else s.activeControls + 1 })

/-- The session after a control stream of `connection` ended, and whether it
lingers now. -/
def markLingerIfCurrent (s : UdpSession) (connection : ConnectionId) (lingerUntil : UInt64) :
    UdpSession × Bool :=
  if s.connectionId ≠ some connection then (s, false)
  else if s.activeControls > 1 then ({ s with activeControls := s.activeControls - 1 }, false)
  else
    ({ s with
      activeControls := 0
      connectionId := none
      lingerUntil := some lingerUntil }, true)

def shutdown (s : UdpSession) : UdpSession :=
  { s with connectionId := none, activeControls := 0, lingerUntil := some 0, srcTags := [] }

/-- The tags after one is used: the oldest makes room for a new one. A socket
that cannot be bound leaves the room empty. -/
def touchSrcTag (tags : List UInt32) (tag : UInt32) (socketFails : Bool) : List UInt32 :=
  if tag ∈ tags then tags.erase tag ++ [tag]
  else
    let kept := if tags.length ≥ maxSrcTagsPerSession then tags.drop 1 else tags
    if socketFails then kept else kept ++ [tag]

/-- The locked part of `route_to_target`: the address to send to. -/
def routeToTarget (s : UdpSession) (datagram : UdpDatagram) (socketFails : Bool) :
    Except String (Bytes × UInt16) × UdpSession :=
  match s.binds.find? fun bind =>
      bind.bind.targetPortRange.1 ≤ datagram.targetPort &&
        datagram.targetPort ≤ bind.bind.targetPortRange.2 with
  | none => (.error ("target port " ++ toString datagram.targetPort ++ " is not bound"), s)
  | some bind =>
    let s' := { s with srcTags := touchSrcTag s.srcTags datagram.srcTag socketFails }
    if datagram.srcTag ∉ s.srcTags ∧ socketFails = true then
      (.error "bind udp src-tag socket", s')
    else (.ok (bind.targetIp, datagram.targetPort), s')

end UdpSession

/-! ## Control requests -/

structure UdpCtlReq where
  preamble : StreamPreamble
  sessionId : Bytes8
  binds : List UdpBind
deriving DecidableEq

def alpnUdpV1 : String := "portl/udp/v1"

/-- How a control request is turned away: the handler's error, or the text of
its response. -/
inductive UdpRefusal where
  | bail (message : String)
  | rejected (error : String)
deriving DecidableEq

/-- The checks of `serve_stream` before the registry. -/
def checkUdpControl (session : Accepted) (req : UdpCtlReq) : Except UdpRefusal Unit := do
  failIf (req.preamble.peerToken ≠ session.peerToken ∨ req.preamble.alpn ≠ alpnUdpV1)
    (.bail "invalid udp preamble")
  failIf (req.binds = []) (.rejected "at least one udp bind is required")
  forEach (fun bind => (udpPermits session.caps bind).mapError .rejected) req.binds

/-- What `attach_or_create` is called with. -/
structure UdpCall where
  sessionId : Bytes8
  binds : List ResolvedUdpBind
  connection : ConnectionId
  peerToken : Bytes16
  ticketIdHex : String
deriving DecidableEq

def UdpCall.fingerprint (P : Primitives) (call : UdpCall) : Bytes32 :=
  ownerFingerprint P call.peerToken call.ticketIdHex

/-! ## The registry and its users -/

/-- A datagram about to be sent, or sent: whence, through which session object,
and where to. -/
structure Outgoing where
  connection : ConnectionId
  object : ℕ
  datagram : UdpDatagram
  target : Bytes × UInt16
deriving DecidableEq

structure Forwarded where
  out : Outgoing
  session : UdpSession
deriving DecidableEq

/-- The registry and the tasks that use it. Session objects are shared
references, numbered in the order of their making; `sessions` is the map of the
registry. `attaching` is the holder of the attach lock with the session it found.
`controls` are the control streams being read, `marks` those that ended and have
yet to mark their session, `removals` the ids of sessions found expired, `routes`
and `sends` the datagrams on their way. The last two fields are histories. -/
structure UdpAgent where
  objects : ℕ → Option UdpSession
  next : ℕ
  sessions : Bytes8 → Option ℕ
  connectionSessions : ConnectionId → ℕ
  attaching : Option (UdpCall × Option ℕ)
  controls : List (ConnectionId × ℕ)
  marks : List (ConnectionId × ℕ)
  removals : List Bytes8
  pumps : List ConnectionId
  routes : List (ConnectionId × ℕ × UdpDatagram)
  sends : List Outgoing
  attached : List (ℕ × UdpCall)
  forwarded : List Forwarded

namespace UdpAgent

def start : UdpAgent :=
  { objects := fun _ => none, next := 0, sessions := fun _ => none,
    connectionSessions := fun _ => 0, attaching := none, controls := [], marks := [],
    removals := [], pumps := [], routes := [], sends := [], attached := [], forwarded := [] }

def expired (a : UdpAgent) (object : ℕ) (now : UInt64) : Bool :=
  (a.objects object).any (·.isExpired now)

def connectionOf (a : UdpAgent) (object : ℕ) : Option ConnectionId :=
  (a.objects object).bind UdpSession.connectionId

/-- `increment_connection_sessions`. -/
def increment (counts : ConnectionId → ℕ) (connection : ConnectionId) : ConnectionId → ℕ :=
  Function.update counts connection (counts connection + 1)

/-- `decrement_connection_sessions`: the last one takes the entry with it. -/
def decrement (counts : ConnectionId → ℕ) (connection : ConnectionId) : ConnectionId → ℕ :=
  Function.update counts connection (counts connection - 1)

def removeSessionLocked (a : UdpAgent) (sessionId : Bytes8) : UdpAgent :=
  match a.sessions sessionId with
  | none => a
  | some object =>
    { a with
      sessions := Function.update a.sessions sessionId none
      connectionSessions := match a.connectionOf object with
        | some connection => decrement a.connectionSessions connection
        | none => a.connectionSessions
      objects := Function.update a.objects object ((a.objects object).map .shutdown) }

def requested (a : UdpAgent) (sessionId : Bytes8) : Option ℕ :=
  if sessionId = Vector.replicate 8 0 then none else a.sessions sessionId

/-- `attach_or_create` up to the test of an existing session. `ips` is what the
binds resolve to. -/
def attachBegin (a : UdpAgent) (session : Accepted) (req : UdpCtlReq) (ips : List Bytes)
    (connection : ConnectionId) (now : UInt64) : UdpAgent :=
  if a.attaching = none ∧ checkUdpControl session req = .ok () ∧
      ips.length = req.binds.length then
    let call : UdpCall :=
      ⟨req.sessionId, req.binds.zipWith .mk ips, connection, session.peerToken,
        Hex.encode session.ticketId.toList⟩
    match a.requested req.sessionId with
    | none => { a with attaching := some (call, none) }
    | some object =>
      if a.expired object now then
        { a.removeSessionLocked req.sessionId with attaching := some (call, none) }
      else { a with attaching := some (call, some object) }
  else a

/-- A fresh session. An id that is zero or taken is drawn again, so that it makes
no step. -/
def createSession (P : Primitives) (a : UdpAgent) (call : UdpCall) (freshId : Bytes8) : UdpAgent :=
  if a.connectionSessions call.connection ≥ maxSessionsPerConnection then
    { a with attaching := none }
  else if freshId = Vector.replicate 8 0 ∨ a.sessions freshId ≠ none then a
  else
    { a with
      objects := Function.update a.objects a.next
        (some (.new freshId (call.fingerprint P) call.binds call.connection))
      next := a.next + 1
      sessions := Function.update a.sessions freshId (some a.next)
      connectionSessions := increment a.connectionSessions call.connection
      attaching := none
      controls := (call.connection, a.next) :: a.controls
      attached := (a.next, call) :: a.attached }

/-- The session object `attach` has changed. The quota is looked at only
afterwards: when it is exceeded the request fails and the session stays attached
to the connection. -/
def finishAttached (a : UdpAgent) (call : UdpCall) (object : ℕ) (countsAsSession : Bool)
    (s : UdpSession) : UdpAgent :=
  let a' :=
    { a with
      objects := Function.update a.objects object (some s)
      attaching := none
      attached := (object, call) :: a.attached }
  if countsAsSession = false then
    { a' with controls := (call.connection, object) :: a.controls }
  else if a.connectionSessions call.connection ≥ maxSessionsPerConnection then a'
  else
    { a' with
      connectionSessions := increment a.connectionSessions call.connection
      controls := (call.connection, object) :: a.controls }

/-- The rest of `attach_or_create`. -/
def attachFinish (P : Primitives) (a : UdpAgent) (freshId : Bytes8) : UdpAgent :=
  match a.attaching with
  | none => a
  | some (call, none) => a.createSession P call freshId
  | some (call, some object) =>
    match a.objects object with
    | none => a
    | some s =>
      match s.attach call.binds call.connection (call.fingerprint P) with
      | .error _ => { a with attaching := none }
      | .ok (.createFresh, _) => a.createSession P call freshId
      | .ok (.attached countsAsSession, s') => a.finishAttached call object countsAsSession s'

/-- A control stream ends: `get_live` for `mark_linger_if_current`. -/
def controlEnd (a : UdpAgent) (connection : ConnectionId) (object : ℕ) (now : UInt64) :
    UdpAgent :=
  if (connection, object) ∈ a.controls then
    let a' := { a with controls := a.controls.erase (connection, object) }
    match a.objects object with
    | none => a'
    | some s =>
      match a.sessions s.sessionId with
      | none => a'
      | some found =>
        if a.expired found now then { a' with removals := s.sessionId :: a.removals }
        else { a' with marks := (connection, found) :: a.marks }
  else a

def controlAbort (a : UdpAgent) (connection : ConnectionId) (object : ℕ) : UdpAgent :=
  { a with controls := a.controls.erase (connection, object) }

def markLinger (a : UdpAgent) (connection : ConnectionId) (object : ℕ) (lingerUntil : UInt64) :
    UdpAgent :=
  if (connection, object) ∈ a.marks then
    let a' := { a with marks := a.marks.erase (connection, object) }
    match a.objects object with
    | none => a'
    | some s =>
      let marked := s.markLingerIfCurrent connection lingerUntil
      { a' with
        objects := Function.update a.objects object (some marked.1)
        connectionSessions :=
          if marked.2 then decrement a.connectionSessions connection
          else a.connectionSessions }
  else a

/-- `ensure_datagram_pump`, after the response to a control request. -/
def startPump (a : UdpAgent) (connection : ConnectionId) : UdpAgent :=
  if a.controls.any (fun control => control.1 = connection) then
    { a with pumps := connection :: a.pumps }
  else a

/-- The pump reads a datagram of `size` bytes and looks its session up. Whose
session it is plays no part. -/
def receive (a : UdpAgent) (connection : ConnectionId) (datagram : UdpDatagram) (size : ℕ)
    (now : UInt64) : UdpAgent :=
  if connection ∈ a.pumps then
    match a.sessions datagram.sessionId with
    | none => a
    | some object =>
      if a.expired object now then { a with removals := datagram.sessionId :: a.removals }
      else if size > maxUdpDatagramBytes then a
      else { a with routes := (connection, object, datagram) :: a.routes }
  else a

def route (a : UdpAgent) (connection : ConnectionId) (object : ℕ) (datagram : UdpDatagram)
    (socketFails : Bool) : UdpAgent :=
  if (connection, object, datagram) ∈ a.routes then
    let a' := { a with routes := a.routes.erase (connection, object, datagram) }
    match a.objects object with
    | none => a'
    | some s =>
      let routed := s.routeToTarget datagram socketFails
      let a' := { a' with objects := Function.update a.objects object (some routed.2) }
      match routed.1 with
      | .error _ => a'
      | .ok target => { a' with sends := ⟨connection, object, datagram, target⟩ :: a.sends }
  else a

/-- `socket.send_to`. -/
def send (a : UdpAgent) (out : Outgoing) : UdpAgent :=
  if out ∈ a.sends then
    let a' := { a with sends := a.sends.erase out }
    match a.objects out.object with
    | none => a'
    | some s => { a' with forwarded := ⟨out, s⟩ :: a.forwarded }
  else a

/-- `remove_session` of a session that a lookup found expired. -/
def removeExpired (a : UdpAgent) (sessionId : Bytes8) : UdpAgent :=
  if sessionId ∈ a.removals ∧ a.attaching = none then
    { a.removeSessionLocked sessionId with removals := a.removals.erase sessionId }
  else a

/-- One round of the loop of `gc_expired`. -/
def gcSession (a : UdpAgent) (sessionId : Bytes8) (now : UInt64) : UdpAgent :=
  match a.sessions sessionId with
  | none => a
  | some object =>
    if a.attaching = none ∧ a.expired object now = true then a.removeSessionLocked sessionId
    else a

/-- One round of the loop of `shutdown`. -/
def shutdownSession (a : UdpAgent) (sessionId : Bytes8) : UdpAgent :=
  if a.attaching = none then a.removeSessionLocked sessionId else a

end UdpAgent

inductive UdpStep where
  | attachBegin (session : Accepted) (req : UdpCtlReq) (ips : List Bytes)
      (connection : ConnectionId) (now : UInt64)
  | attachFinish (freshId : Bytes8)
  | controlEnd (connection : ConnectionId) (object : ℕ) (now : UInt64)
  | controlAbort (connection : ConnectionId) (object : ℕ)
  | markLinger (connection : ConnectionId) (object : ℕ) (lingerUntil : UInt64)
  | startPump (connection : ConnectionId)
  | receive (connection : ConnectionId) (datagram : UdpDatagram) (size : ℕ) (now : UInt64)
  | route (connection : ConnectionId) (object : ℕ) (datagram : UdpDatagram)
      (socketFails : Bool)
  | send (out : Outgoing)
  | removeExpired (sessionId : Bytes8)
  | gcSession (sessionId : Bytes8) (now : UInt64)
  | shutdownSession (sessionId : Bytes8)
  | clearConnectionSessions

def UdpStep.apply (P : Primitives) (a : UdpAgent) (step : UdpStep) : UdpAgent :=
  match step with
  | .attachBegin session req ips connection now => a.attachBegin session req ips connection now
  | .attachFinish freshId => a.attachFinish P freshId
  | .controlEnd connection object now => a.controlEnd connection object now
  | .controlAbort connection object => a.controlAbort connection object
  | .markLinger connection object lingerUntil => a.markLinger connection object lingerUntil
  | .startPump connection => a.startPump connection
  | .receive connection datagram size now => a.receive connection datagram size now
  | .route connection object datagram socketFails => a.route connection object datagram socketFails
  | .send out => a.send out
  | .removeExpired sessionId => a.removeExpired sessionId
  | .gcSession sessionId now => a.gcSession sessionId now
  | .shutdownSession sessionId => a.shutdownSession sessionId
  | .clearConnectionSessions => { a with connectionSessions := fun _ => 0 }

def UdpAgent.run (P : Primitives) (steps : List UdpStep) (a : UdpAgent) : UdpAgent :=
  steps.foldl (UdpStep.apply P) a

/-! ## What a step can do -/

def UdpAgent.core (a : UdpAgent) : UdpAgent :=
  { a with connectionSessions := fun _ => 0, removals := [], pumps := [], routes := [], sends := [] }

/-- **What a step can do** to the sessions, the attach lock, the control streams and the
histories. -/
inductive UdpAgent.Change (P : Primitives) (a : UdpAgent) : UdpStep → UdpAgent → Prop where
  | drops {step controls marks} (hcontrols : controls.Sublist a.controls)
      (hmarks : marks.Sublist a.marks) :
      Change P a step { a with controls := controls, marks := marks }
  | ends {connection object found s now} (hmem : (connection, object) ∈ a.controls)
      (hs : a.objects object = some s) (hreg : a.sessions s.sessionId = some found) :
      Change P a (.controlEnd connection object now) { a with
        controls := a.controls.erase (connection, object)
        marks := (connection, found) :: a.marks }
  | locks {session req ips connection now call target} (hfree : a.attaching = none)
      (hchecked : checkUdpControl session req = .ok () ∧ ips.length = req.binds.length)
      (hid : call.sessionId = req.sessionId) (hbinds : call.binds = req.binds.zipWith .mk ips)
      (htarget : ∀ object, target = some object → a.sessions req.sessionId = some object) :
      Change P a (.attachBegin session req ips connection now)
        { a with attaching := some (call, target) }
  | replaces {session req ips connection now call object} (hfree : a.attaching = none)
      (hchecked : checkUdpControl session req = .ok () ∧ ips.length = req.binds.length)
      (hbinds : call.binds = req.binds.zipWith .mk ips)
      (hreg : a.sessions req.sessionId = some object) (hexpired : a.expired object now = true) :
      Change P a (.attachBegin session req ips connection now)
        { a.removeSessionLocked req.sessionId with attaching := some (call, none) }
  | unlocks {freshId} : Change P a (.attachFinish freshId) { a with attaching := none }
  | creates {freshId call target} (hattaching : a.attaching = some (call, target))
      (hfree : a.sessions freshId = none) :
      Change P a (.attachFinish freshId) { a with
        objects := Function.update a.objects a.next
          (some (.new freshId (call.fingerprint P) call.binds call.connection))
        next := a.next + 1
        sessions := Function.update a.sessions freshId (some a.next)
        attaching := none
        controls := (call.connection, a.next) :: a.controls
        attached := (a.next, call) :: a.attached }
  | attaches {freshId call object s s' countsAsSession controls}
      (hattaching : a.attaching = some (call, some object)) (hs : a.objects object = some s)
      (hattach : s.attach call.binds call.connection (call.fingerprint P) =
        .ok (.attached countsAsSession, s'))
      (hcontrols : controls = a.controls ∨ controls = (call.connection, object) :: a.controls) :
      Change P a (.attachFinish freshId) { a with
        objects := Function.update a.objects object (some s')
        attaching := none
        controls := controls
        attached := (object, call) :: a.attached }
  | lingers {connection object lingerUntil s} (hmem : (connection, object) ∈ a.marks)
      (hs : a.objects object = some s) :
      Change P a (.markLinger connection object lingerUntil) { a with
        objects := Function.update a.objects object
          (some (s.markLingerIfCurrent connection lingerUntil).1)
        marks := a.marks.erase (connection, object) }
  | routes {connection object datagram socketFails s tags} (hs : a.objects object = some s) :
      Change P a (.route connection object datagram socketFails) { a with
        objects := Function.update a.objects object (some { s with srcTags := tags }) }
  | sends {out s} (hs : a.objects out.object = some s) :
      Change P a (.send out) { a with forwarded := ⟨out, s⟩ :: a.forwarded }
  | removes {step id object} (hfree : a.attaching = none) (hreg : a.sessions id = some object)
      (hstep : (∃ now, step = .gcSession id now ∧ a.expired object now = true) ∨
        step = .removeExpired id ∨ step = .shutdownSession id) :
      Change P a step (a.removeSessionLocked id)

variable {P : Primitives} {a a' b : UdpAgent} {step : UdpStep} {connection : ConnectionId}
  {object : ℕ} {s s' : UdpSession} {call : UdpCall} {freshId : Bytes8} {countsAsSession : Bool}

namespace UdpAgent

theorem Change.same : Change P a step a := .drops (.refl _) (.refl _)

theorem Change.upTo (h : Change P a step b) (hcore : a'.core = b.core) :
    ∃ b, a'.core = b.core ∧ Change P a step b := ⟨b, hcore, h⟩

theorem change_attachBegin (session : Accepted) (req : UdpCtlReq) (ips : List Bytes)
    (connection : ConnectionId) (now : UInt64) :
    ∃ b, (a.attachBegin session req ips connection now).core = b.core ∧
      Change P a (.attachBegin session req ips connection now) b := by
  unfold attachBegin
  split_ifs with hready
  · cases hreq : a.requested req.sessionId with
    | none => exact Change.upTo (.locks hready.1 hready.2 rfl rfl (fun _ h => by cases h)) rfl
    | some object =>
      have hreg : a.sessions req.sessionId = some object := by
        unfold requested at hreq
        split_ifs at hreq
        exact hreq
      simp only
      split_ifs with hexpired
      · exact Change.upTo (.replaces hready.1 hready.2 rfl hreg hexpired) rfl
      · refine Change.upTo (.locks hready.1 hready.2 rfl rfl ?_) rfl
        intro found hfound
        cases hfound
        exact hreg
  · exact Change.upTo .same rfl

theorem change_createSession {target : Option ℕ} (hattaching : a.attaching = some (call, target))
    (freshId : Bytes8) : ∃ b, (a.createSession P call freshId).core = b.core ∧
      Change P a (.attachFinish freshId) b := by
  unfold createSession
  split_ifs with hquota hdraw
  · exact Change.upTo .unlocks rfl
  · exact Change.upTo .same rfl
  · refine Change.upTo (.creates hattaching ?_) rfl
    by_contra htaken
    exact hdraw (Or.inr htaken)

theorem change_attachFinish (freshId : Bytes8) :
    ∃ b, (a.attachFinish P freshId).core = b.core ∧ Change P a (.attachFinish freshId) b := by
  unfold attachFinish
  cases hattaching : a.attaching with
  | none => exact Change.upTo .same rfl
  | some holder =>
    obtain ⟨call, target⟩ := holder
    cases target with
    | none => exact change_createSession hattaching freshId
    | some object =>
      simp only
      cases hs : a.objects object with
      | none => exact Change.upTo .same rfl
      | some s =>
        simp only
        cases hattach : s.attach call.binds call.connection (call.fingerprint P) with
        | error message => exact Change.upTo .unlocks rfl
        | ok result =>
          obtain ⟨mode, s'⟩ := result
          cases mode with
          | createFresh => exact change_createSession hattaching freshId
          | attached countsAsSession =>
            simp only [finishAttached]
            split_ifs
            · exact Change.upTo (.attaches hattaching hs hattach (Or.inr rfl)) rfl
            · exact Change.upTo (.attaches hattaching hs hattach (Or.inl rfl)) rfl
            · exact Change.upTo (.attaches hattaching hs hattach (Or.inr rfl)) rfl

theorem change_controlEnd (connection : ConnectionId) (object : ℕ) (now : UInt64) :
    ∃ b, (a.controlEnd connection object now).core = b.core ∧
      Change P a (.controlEnd connection object now) b := by
  unfold controlEnd
  split_ifs with hmem
  · cases hs : a.objects object with
    | none => exact Change.upTo (.drops erase_sublist (.refl _)) rfl
    | some s =>
      simp only
      cases hreg : a.sessions s.sessionId with
      | none => exact Change.upTo (.drops erase_sublist (.refl _)) rfl
      | some found =>
        simp only
        split_ifs
        · exact Change.upTo (.drops erase_sublist (.refl _)) rfl
        · exact Change.upTo (.ends hmem hs hreg) rfl
  · exact Change.upTo .same rfl

theorem change_receive (connection : ConnectionId) (datagram : UdpDatagram) (size : ℕ)
    (now : UInt64) : ∃ b, (a.receive connection datagram size now).core = b.core ∧
      Change P a (.receive connection datagram size now) b := by
  unfold receive
  by_cases hpump : connection ∈ a.pumps
  · rw [if_pos hpump]
    cases a.sessions datagram.sessionId with
    | none => exact Change.upTo .same rfl
    | some object =>
      simp only
      split_ifs
      all_goals exact Change.upTo .same rfl
  · rw [if_neg hpump]
    exact Change.upTo .same rfl

end UdpAgent

theorem UdpSession.routeToTarget_spec (s : UdpSession) (datagram : UdpDatagram)
    (socketFails : Bool) :
    ∃ tags, (s.routeToTarget datagram socketFails).2 = { s with srcTags := tags } := by
  unfold routeToTarget
  split
  · exact ⟨s.srcTags, rfl⟩
  · split_ifs
    · exact ⟨_, rfl⟩
    · exact ⟨_, rfl⟩

namespace UdpAgent

theorem change_route (connection : ConnectionId) (object : ℕ) (datagram : UdpDatagram)
    (socketFails : Bool) : ∃ b, (a.route connection object datagram socketFails).core = b.core ∧
      Change P a (.route connection object datagram socketFails) b := by
  unfold route
  split_ifs with hmem
  · cases hs : a.objects object with
    | none => exact Change.upTo .same rfl
    | some s =>
      obtain ⟨tags, htags⟩ := s.routeToTarget_spec datagram socketFails
      refine ⟨_, ?_, @Change.routes _ _ _ _ _ _ _ tags hs⟩
      simp only [htags]
      split
      · rfl
      · rfl
  · exact Change.upTo .same rfl

theorem change_removeSessionLocked {id : Bytes8} (hfree : a.attaching = none)
    (hstep : ∀ object, a.sessions id = some object →
      (∃ now, step = .gcSession id now ∧ a.expired object now = true) ∨
        step = .removeExpired id ∨ step = .shutdownSession id) :
    ∃ b, (a.removeSessionLocked id).core = b.core ∧ Change P a step b := by
  cases hreg : a.sessions id with
  | none =>
    refine ⟨a, ?_, .same⟩
    simp only [removeSessionLocked, hreg]
  | some object => exact Change.upTo (.removes hfree hreg (hstep object hreg)) rfl

/-- **Every step is a change**, up to the counters and the queues. -/
theorem change_apply (P : Primitives) (a : UdpAgent) (step : UdpStep) :
    ∃ b, (step.apply P a).core = b.core ∧ Change P a step b := by
  cases step with
  | attachBegin session req ips connection now =>
    exact change_attachBegin session req ips connection now
  | attachFinish freshId => exact change_attachFinish freshId
  | controlEnd connection object now => exact change_controlEnd connection object now
  | controlAbort connection object => exact Change.upTo (.drops erase_sublist (.refl _)) rfl
  | markLinger connection object lingerUntil =>
    simp only [UdpStep.apply, markLinger]
    split_ifs with hmem
    · cases hs : a.objects object with
      | none => exact Change.upTo (.drops (.refl _) erase_sublist) rfl
      | some s => exact Change.upTo (.lingers hmem hs) rfl
    · exact Change.upTo .same rfl
  | startPump connection =>
    simp only [UdpStep.apply, startPump]
    split_ifs
    all_goals exact Change.upTo .same rfl
  | receive connection datagram size now => exact change_receive connection datagram size now
  | route connection object datagram socketFails =>
    exact change_route connection object datagram socketFails
  | send out =>
    simp only [UdpStep.apply, send]
    split_ifs
    · cases hs : a.objects out.object with
      | none => exact Change.upTo .same rfl
      | some s => exact Change.upTo (.sends hs) rfl
    · exact Change.upTo .same rfl
  | removeExpired id =>
    simp only [UdpStep.apply, removeExpired]
    split_ifs with hready
    · exact change_removeSessionLocked hready.2 fun _ _ => .inr (.inl rfl)
    · exact Change.upTo .same rfl
  | gcSession id now =>
    simp only [UdpStep.apply, gcSession]
    cases hreg : a.sessions id with
    | none => exact Change.upTo .same rfl
    | some object =>
      simp only
      split_ifs with hready
      · exact Change.upTo (.removes hready.1 hreg (.inl ⟨now, rfl, hready.2⟩)) rfl
      · exact Change.upTo .same rfl
  | shutdownSession id =>
    simp only [UdpStep.apply, shutdownSession]
    split_ifs with hfree
    · exact change_removeSessionLocked hfree fun _ _ => .inr (.inr rfl)
    · exact Change.upTo .same rfl
  | clearConnectionSessions => exact Change.upTo .same rfl

end UdpAgent

/-! ## Names -/

theorem update_cases {objects : ℕ → Option UdpSession} {other : ℕ} {t : UdpSession}
    (h : Function.update objects object (some s) other = some t) :
    (other = object ∧ s = t) ∨ (other ≠ object ∧ objects other = some t) := by
  by_cases heq : other = object
  · subst heq
    rw [Function.update_self, Option.some.injEq] at h
    exact Or.inl ⟨rfl, h⟩
  · rw [Function.update_of_ne heq] at h
    exact Or.inr ⟨heq, h⟩

theorem UdpSession.attach_eq_attached {binds : List ResolvedUdpBind} {fingerprint : Bytes32}
    (h : s.attach binds connection fingerprint = .ok (.attached countsAsSession, s')) :
    s.ownerFingerprint = fingerprint ∧ s.attachMode connection = .attached countsAsSession ∧
      s' = { s with
        binds := binds
        connectionId := some connection
        lingerUntil := none
        activeControls := if countsAsSession then 1 else s.activeControls + 1 } := by
  unfold attach at h
  split_ifs at h with howner
  cases hmode : s.attachMode connection with
  | createFresh =>
    rw [hmode] at h
    cases h
  | attached counts =>
    rw [hmode] at h
    cases h
    exact ⟨not_not.mp howner, rfl, rfl⟩

theorem UdpSession.markLingerIfCurrent_kept (s : UdpSession) (connection : ConnectionId)
    (lingerUntil : UInt64) :
    (s.markLingerIfCurrent connection lingerUntil).1.sessionId = s.sessionId ∧
    (s.markLingerIfCurrent connection lingerUntil).1.ownerFingerprint = s.ownerFingerprint ∧
    (s.markLingerIfCurrent connection lingerUntil).1.binds = s.binds := by
  unfold markLingerIfCurrent
  split_ifs
  all_goals exact ⟨rfl, rfl, rfl⟩

/-- Registered sessions are known by their own ids, and no object is there before it
is made. -/
structure UdpAgent.Kept (a : UdpAgent) : Prop where
  named : ∀ {id object}, a.sessions id = some object →
    ∃ s, a.objects object = some s ∧ s.sessionId = id
  fresh : ∀ object, a.next ≤ object → a.objects object = none

namespace UdpAgent

theorem Kept.lt_next (h : a.Kept) (hs : a.objects object = some s) : object < a.next := by
  by_contra hge
  rw [h.fresh object (not_lt.mp hge)] at hs
  cases hs

theorem Kept.of_update (h : a.Kept) (hs : a.objects object = some s)
    (hid : s'.sessionId = s.sessionId)
    (hobjects : b.objects = Function.update a.objects object (some s')) (hnext : b.next = a.next)
    (hsessions : b.sessions = a.sessions) : b.Kept where
  named := by
    rw [hsessions, hobjects]
    intro id other hreg
    obtain ⟨t, ht, htid⟩ := h.named hreg
    by_cases heq : other = object
    · subst heq
      cases hs.symm.trans ht
      exact ⟨s', Function.update_self .., by rw [hid, htid]⟩
    · exact ⟨t, by rw [Function.update_of_ne heq, ht], htid⟩
  fresh := by
    rw [hnext, hobjects]
    intro o ho
    rw [Function.update_of_ne (Nat.ne_of_gt (Nat.lt_of_lt_of_le (h.lt_next hs) ho)),
      h.fresh o ho]

theorem removeSessionLocked_attaching (a : UdpAgent) (id : Bytes8) :
    (a.removeSessionLocked id).attaching = a.attaching := by
  unfold removeSessionLocked
  split <;> rfl

variable {id : Bytes8}

/-- **A registered session goes**: it is shut down. -/
theorem Kept.removeSessionLocked_eq (h : a.Kept) (hreg : a.sessions id = some object) :
    ∃ s, a.objects object = some s ∧ s.sessionId = id ∧ ∃ counts, a.removeSessionLocked id =
      { a with
        sessions := Function.update a.sessions id none
        connectionSessions := counts
        objects := Function.update a.objects object (some s.shutdown) } := by
  obtain ⟨s, hs, hid⟩ := h.named hreg
  refine ⟨s, hs, hid, (a.removeSessionLocked id).connectionSessions, ?_⟩
  simp only [removeSessionLocked, hreg, hs]
  rfl

theorem Kept.removeSessionLocked (h : a.Kept) (hreg : a.sessions id = some object) :
    (a.removeSessionLocked id).Kept := by
  obtain ⟨s, hs, hid, counts, heq⟩ := h.removeSessionLocked_eq hreg
  have hgone : UdpAgent.Kept { a with sessions := Function.update a.sessions id none } := by
    refine ⟨fun {id' other} hother => ?_, h.fresh⟩
    by_cases hsame : id' = id
    · simp [hsame] at hother
    · exact h.named (by simpa [Function.update_of_ne hsame] using hother)
  rw [heq]
  exact hgone.of_update hs (show s.shutdown.sessionId = s.sessionId from rfl) rfl rfl rfl

theorem Kept.change (h : a.Kept) (hchange : Change P a step b) : b.Kept := by
  cases hchange with
  | drops | ends | locks => exact ⟨h.named, h.fresh⟩
  | replaces hfree hchecked hbinds hreg hexpired =>
    have hkept := h.removeSessionLocked hreg
    exact ⟨hkept.named, hkept.fresh⟩
  | unlocks => exact ⟨h.named, h.fresh⟩
  | @creates freshId call target hattaching hfree =>
    refine ⟨fun {id object} hreg => ?_, fun object hobject => ?_⟩
    all_goals simp only at *
    · by_cases heq : id = freshId
      · rw [heq, Function.update_self, Option.some.injEq] at hreg
        rw [← hreg, heq]
        exact ⟨_, Function.update_self .., rfl⟩
      · rw [Function.update_of_ne heq] at hreg
        obtain ⟨s, hs, hsid⟩ := h.named hreg
        exact ⟨s, by rw [Function.update_of_ne (Nat.ne_of_lt (h.lt_next hs)), hs], hsid⟩
    · rw [Function.update_of_ne (Nat.ne_of_gt hobject), h.fresh object (Nat.le_of_succ_le hobject)]
  | attaches hattaching hs hattach hcontrols =>
    obtain ⟨-, -, rfl⟩ := UdpSession.attach_eq_attached hattach
    exact h.of_update hs (by rfl) rfl rfl rfl
  | @lingers connection object lingerUntil s hmem hs =>
    exact h.of_update hs (s.markLingerIfCurrent_kept connection lingerUntil).1 rfl rfl rfl
  | routes hs => exact h.of_update hs (by rfl) rfl rfl rfl
  | sends hs => exact ⟨h.named, h.fresh⟩
  | removes hfree hreg hstep => exact h.removeSessionLocked hreg

end UdpAgent

/-! ## Isolation -/

/-- The session a datagram went through was attached to the connection it came
from, by a caller of that connection with the owner's fingerprint. -/
def Forwarded.Isolated (P : Primitives) (attached : List (ℕ × UdpCall)) (f : Forwarded) : Prop :=
  f.session.connectionId = some f.out.connection ∧
    ∃ entry ∈ attached, entry.1 = f.out.object ∧ entry.2.connection = f.out.connection ∧
      entry.2.fingerprint P = f.session.ownerFingerprint

instance (P : Primitives) (attached : List (ℕ × UdpCall)) (f : Forwarded) :
    Decidable (f.Isolated P attached) :=
  inferInstanceAs (Decidable (_ ∧ _))

def UdpAgent.Isolated (P : Primitives) (a : UdpAgent) : Prop :=
  ∀ f ∈ a.forwarded, f.Isolated P a.attached

instance (P : Primitives) (a : UdpAgent) : Decidable (a.Isolated P) :=
  List.decidableBAll _ _

/-- The action is one of a client that sends on a session only while it has a
control stream open on it, the session is still registered, and random ids do
not repeat. -/
def UdpStep.Held (a : UdpAgent) (step : UdpStep) : Prop :=
  match step with
  | .send out =>
    (out.connection, out.object) ∈ a.controls ∧
      ∀ s ∈ a.objects out.object, a.sessions s.sessionId = some out.object
  | .attachFinish freshId =>
    ∀ object ∈ List.range a.next, ∀ s ∈ a.objects object, s.sessionId ≠ freshId
  | _ => True

instance (a : UdpAgent) (step : UdpStep) : Decidable (step.Held a) := by
  unfold UdpStep.Held
  split <;> infer_instance

/-! ## The invariant -/

namespace UdpAgent

/-- The control streams of a connection on a session that are open or have yet
to mark it. -/
def holds (a : UdpAgent) (connection : ConnectionId) (object : ℕ) : ℕ :=
  a.controls.count (connection, object) + a.marks.count (connection, object)

end UdpAgent

/-- A session with `n` control streams of `connection`: all are counted when it
is attached there, and it does not linger; otherwise there are none. -/
def UdpSession.Counts (s : UdpSession) (connection : ConnectionId) (n : ℕ) : Prop :=
  if s.connectionId = some connection then n ≤ s.activeControls ∧ s.lingerUntil = none
  else n = 0

/-- Some caller of `connection` with the owner's fingerprint was let on the
session. -/
def LetOn (P : Primitives) (attached : List (ℕ × UdpCall)) (object : ℕ) (s : UdpSession)
    (connection : ConnectionId) : Prop :=
  ∃ entry ∈ attached, entry.1 = object ∧ entry.2.connection = connection ∧
    entry.2.fingerprint P = s.ownerFingerprint

/-- **Sessions and control streams belong together.** Registered sessions are
known by their own ids, ids do not repeat, every control stream on a registered
session is counted by it, and a session is attached only to a connection whose
caller was let on. -/
structure Scoped (P : Primitives) (a : UdpAgent) : Prop where
  named : ∀ {id object}, a.sessions id = some object →
    ∃ s, a.objects object = some s ∧ s.sessionId = id
  distinct : ∀ {object object' s s'}, a.objects object = some s → a.objects object' = some s' →
    s.sessionId = s'.sessionId → object = object'
  fresh : ∀ object, a.next ≤ object → a.objects object = none
  known : ∀ {connection object}, 0 < a.holds connection object → object < a.next
  counted : ∀ {object s}, a.objects object = some s → a.sessions s.sessionId = some object →
    ∀ connection, s.Counts connection (a.holds connection object)
  logged : ∀ {object s connection}, a.objects object = some s →
    s.connectionId = some connection → LetOn P a.attached object s connection
  isolated : a.Isolated P

theorem scoped_start : Scoped P .start where
  named h := by cases h
  distinct h := by cases h
  fresh _ _ := rfl
  known h := by cases h
  counted h := by cases h
  logged h := by cases h
  isolated f hf := by cases hf

theorem Scoped.kept (h : Scoped P a) : a.Kept := ⟨h.named, h.fresh⟩

theorem Scoped.of_core (h : Scoped P b) (hcore : a.core = b.core) : Scoped P a := by
  have hb : Scoped P b.core :=
    { h with }
  rw [← hcore] at hb
  exact { hb with }

/-! ## Runs -/

theorem count_erase_add {l : List (ConnectionId × ℕ)} {x y : ConnectionId × ℕ} (h : x ∈ l) :
    (l.erase x).count y + (if x = y then 1 else 0) = l.count y := by
  by_cases heq : x = y
  · subst heq
    rw [count_erase_self, if_pos rfl]
    exact Nat.sub_add_cancel (count_pos_iff.mpr h)
  · rw [count_erase_of_ne (Ne.symm heq), if_neg heq, Nat.add_zero]

theorem UdpSession.Counts.mono {m n : ℕ} (h : s.Counts connection n) (hle : m ≤ n) :
    s.Counts connection m := by
  unfold Counts at h ⊢
  split_ifs at h ⊢
  · exact ⟨hle.trans h.1, h.2⟩
  · omega

theorem LetOn.mono {attached attached' : List (ℕ × UdpCall)}
    (h : LetOn P attached object s connection) (hsub : attached ⊆ attached') :
    LetOn P attached' object s connection := by
  obtain ⟨entry, hentry, hrest⟩ := h
  exact ⟨entry, hsub hentry, hrest⟩

theorem isolated_mono (h : a.Isolated P) (hforwarded : a'.forwarded = a.forwarded)
    (hattached : a.attached ⊆ a'.attached) : a'.Isolated P := by
  intro f hf
  rw [hforwarded] at hf
  obtain ⟨hconn, entry, hentry, hrest⟩ := h f hf
  exact ⟨hconn, entry, hattached hentry, hrest⟩

theorem UdpSession.attachMode_eq_again (h : s.attachMode connection = .attached false) :
    s.connectionId = some connection := by
  unfold attachMode at h
  cases hconn : s.connectionId with
  | none =>
    rw [hconn] at h
    cases h
  | some current =>
    rw [hconn] at h
    simp only at h
    split_ifs at h with hsame
    · rw [hsame]
    · cases h

theorem UdpSession.attachMode_eq_over (h : s.attachMode connection = .attached true) :
    s.connectionId = none ∨ s.lingerUntil ≠ none := by
  unfold attachMode at h
  cases hconn : s.connectionId with
  | none => exact Or.inl rfl
  | some current =>
    rw [hconn] at h
    simp only at h
    split_ifs at h with hsame hlinger
    · cases h
    · exact Or.inr hlinger

/-- The new counts of a session that is attached to, with one more control
stream of the caller's connection, or none when the quota is exceeded. -/
theorem UdpSession.Counts.attach {other : ConnectionId} {n m : ℕ} (h : s.Counts other n)
    (hattach : s.attach call.binds call.connection (call.fingerprint P) =
      .ok (.attached countsAsSession, s'))
    (hm : m ≤ n + if call.connection = other then 1 else 0) : s'.Counts other m := by
  obtain ⟨howner, hmode, rfl⟩ := attach_eq_attached hattach
  unfold Counts at h ⊢
  cases countsAsSession with
  | false =>
    have hsame := attachMode_eq_again hmode
    grind
  | true =>
    -- Nobody holds a session that is taken over.
    have hover := attachMode_eq_over hmode
    grind

/-- The last stream that is counted is the one that ends. -/
theorem UdpSession.Counts.markLinger {other : ConnectionId} {n : ℕ} (lingerUntil : UInt64)
    (h : s.Counts other (n + if connection = other then 1 else 0)) :
    (s.markLingerIfCurrent connection lingerUntil).1.Counts other n := by
  unfold markLingerIfCurrent
  unfold Counts at h ⊢
  grind

variable (h : Scoped P a)
include h

theorem Scoped.removeSessionLocked {id : Bytes8} (hreg : a.sessions id = some object) :
    Scoped P (a.removeSessionLocked id) := by
  obtain ⟨s, hs, hsid, counts, heq⟩ := h.kept.removeSessionLocked_eq hreg
  have hkept := h.kept.removeSessionLocked hreg
  obtain ⟨-, hdistinct, -, hknown, hcounted, hlogged, hisolated⟩ := h
  rw [heq] at hkept ⊢
  refine ⟨hkept.named, ?_, hkept.fresh, hknown, ?_, ?_, hisolated⟩
  · grind [Function.update_apply, UdpSession.shutdown]
  · intro o t ht hstill c
    rcases update_cases ht with ⟨rfl, rfl⟩ | ⟨hne, hold⟩
    · simp [UdpSession.shutdown, hsid] at hstill
    · exact hcounted hold (by grind [Function.update_apply]) c
  · grind [Function.update_apply, UdpSession.shutdown]

/-- **A session is made** under an id that no session had. -/
theorem Scoped.creates (hkept : b.Kept)
    (hfresh : ∀ object s, a.objects object = some s → s.sessionId ≠ freshId) (hb : b = { a with
      objects := Function.update a.objects a.next
        (some (.new freshId (call.fingerprint P) call.binds call.connection))
      next := a.next + 1
      sessions := Function.update a.sessions freshId (some a.next)
      attaching := none
      controls := (call.connection, a.next) :: a.controls
      attached := (a.next, call) :: a.attached }) : Scoped P b := by
  have hholds : ∀ c o, b.holds c o = a.holds c o +
      if call.connection = c ∧ a.next = o then 1 else 0 := by
    simp only [UdpAgent.holds, hb, count_cons]
    grind
  obtain ⟨-, hdistinct, -, hknown, hcounted, hlogged, hisolated⟩ := h
  have hnone : ∀ c, a.holds c a.next = 0 :=
    fun c => Nat.eq_zero_of_not_pos (fun hpos => (hknown hpos).false)
  refine ⟨hkept.named, ?_, hkept.fresh, ?_, ?_, ?_, ?_⟩
  · rw [hb]
    grind [Function.update_apply, UdpSession.new]
  · grind
  · simp only [hholds]
    rw [hb]
    grind [Function.update_apply, UdpSession.new, UdpSession.Counts]
  · rw [hb]
    intro object s connection hs hconn
    rcases update_cases hs with ⟨rfl, rfl⟩ | ⟨hne, hold⟩
    · exact ⟨_, mem_cons_self, rfl, Option.some.inj hconn, rfl⟩
    · exact (hlogged hold hconn).mono (subset_cons_self _ _)
  · rw [hb]
    exact isolated_mono hisolated rfl (subset_cons_self _ _)

/-- **A session is attached to**, with or without room for the control stream. -/
theorem Scoped.attaches (hkept : b.Kept) {controls : List (ConnectionId × ℕ)}
    (hs : a.objects object = some s)
    (hattach : s.attach call.binds call.connection (call.fingerprint P) =
      .ok (.attached countsAsSession, s'))
    (hcontrols : controls = a.controls ∨ controls = (call.connection, object) :: a.controls)
    (hb : b = { a with
      objects := Function.update a.objects object (some s')
      attaching := none
      controls := controls
      attached := (object, call) :: a.attached }) : Scoped P b := by
  have hholds : ∀ c o, b.holds c o ≤ a.holds c o +
      if call.connection = c ∧ object = o then 1 else 0 := by
    simp only [UdpAgent.holds, hb]
    grind
  have hlt := h.kept.lt_next hs
  obtain ⟨-, hdistinct, -, hknown, hcounted, hlogged, hisolated⟩ := h
  obtain ⟨howner, hmode, hs'⟩ := UdpSession.attach_eq_attached hattach
  refine ⟨hkept.named, ?_, hkept.fresh, ?_, ?_, ?_, ?_⟩
  · rw [hb]
    grind [Function.update_apply]
  · grind
  · intro o t ht hreg c
    rw [hb] at ht hreg
    rcases update_cases ht with ⟨rfl, rfl⟩ | ⟨hne, hold⟩
    · exact (hcounted hs (by grind) c).attach hattach (by grind)
    · exact (hcounted hold hreg c).mono (by grind)
  · rw [hb]
    intro o t c ht hc
    rcases update_cases ht with ⟨rfl, rfl⟩ | ⟨hne, hold⟩
    · exact ⟨_, mem_cons_self, rfl, by grind, by grind⟩
    · exact (hlogged hold hc).mono (subset_cons_self _ _)
  · rw [hb]
    exact isolated_mono hisolated rfl (subset_cons_self _ _)

theorem Scoped.lingers (hkept : b.Kept) {lingerUntil : UInt64}
    (hmem : (connection, object) ∈ a.marks) (hs : a.objects object = some s) (hb : b = { a with
      objects := Function.update a.objects object
        (some (s.markLingerIfCurrent connection lingerUntil).1)
      marks := a.marks.erase (connection, object) }) : Scoped P b := by
  have hholds : ∀ c o, b.holds c o + (if connection = c ∧ object = o then 1 else 0) =
      a.holds c o := by
    simp only [UdpAgent.holds, hb, ← count_erase_add hmem]
    grind
  have hlt := h.kept.lt_next hs
  obtain ⟨-, hdistinct, -, hknown, hcounted, hlogged, hisolated⟩ := h
  obtain ⟨hid, howner, -⟩ := s.markLingerIfCurrent_kept connection lingerUntil
  refine ⟨hkept.named, ?_, hkept.fresh, ?_, ?_, ?_, by rwa [hb]⟩
  · rw [hb]
    grind [Function.update_apply]
  · grind
  · intro o t ht hreg c
    rw [hb] at ht hreg
    rcases update_cases ht with ⟨rfl, rfl⟩ | ⟨hne, hold⟩
    · exact UdpSession.Counts.markLinger lingerUntil (by grind)
    · exact (hcounted hold hreg c).mono (by grind)
  · rw [hb]
    intro o t c ht hc
    rcases update_cases ht with ⟨rfl, rfl⟩ | ⟨hne, hold⟩
    · have hconn : s.connectionId = some c := by grind [UdpSession.markLingerIfCurrent]
      obtain ⟨entry, hentry, hobject, hcaller, hprint⟩ := hlogged hs hconn
      exact ⟨entry, hentry, hobject, hcaller, by rw [hprint, howner]⟩
    · exact hlogged hold hc

theorem scoped_change (hheld : step.Held a) (hchange : a.Change P step b) : Scoped P b := by
  have hkept := h.kept.change hchange
  cases hchange with
  | @drops _ controls marks hcontrols hmarks =>
    have hholds : ∀ c o, UdpAgent.holds { a with controls := controls, marks := marks } c o ≤
        a.holds c o := fun c o => Nat.add_le_add (hcontrols.count_le _) (hmarks.count_le _)
    exact { h with
      known := fun hpos => h.known (hpos.trans_le (hholds _ _))
      counted := fun hs hreg c => (h.counted hs hreg c).mono (hholds _ _) }
  | locks | unlocks => exact { h with }
  | @ends connection object found s now hmem hs hreg =>
    -- Ids do not repeat, so the session found is the one of the stream.
    obtain ⟨t, ht, htid⟩ := h.named hreg
    have hfound := h.distinct ht hs htid
    have hholds : ∀ c o, UdpAgent.holds { a with
        controls := a.controls.erase (connection, object)
        marks := (connection, found) :: a.marks } c o = a.holds c o := by
      simp only [UdpAgent.holds, ← count_erase_add hmem, count_cons, hfound]
      grind
    exact { h with
      known := fun hpos => h.known (by rwa [hholds] at hpos)
      counted := fun hs hreg c => by rw [hholds]; exact h.counted hs hreg c }
  | @routes connection object datagram socketFails s tags hs =>
    obtain ⟨hnamed, hdistinct, hfresh, hknown, hcounted, hlogged, hisolated⟩ := h
    refine ⟨hkept.named, ?_, hkept.fresh, hknown, ?_, ?_, hisolated⟩
    · grind [Function.update_apply]
    · intro o t ht hreg c
      rcases update_cases ht with ⟨rfl, rfl⟩ | ⟨hne, hold⟩
      · exact (hcounted hs hreg c :)
      · exact hcounted hold hreg c
    · intro o t c ht hc
      rcases update_cases ht with ⟨rfl, rfl⟩ | ⟨hne, hold⟩
      · exact (hlogged hs hc :)
      · exact hlogged hold hc
  | creates hattaching hfree =>
    refine h.creates hkept (fun object s hs => ?_) rfl
    exact hheld object (mem_range.mpr (h.kept.lt_next hs)) s hs
  | attaches hattaching hs hattach hcontrols => exact h.attaches hkept hs hattach hcontrols rfl
  | lingers hmem hs => exact h.lingers hkept hmem hs rfl
  | @sends out s hs =>
    -- With a control stream open on it, the session is attached to the sender's connection.
    have hpos : 0 < a.holds out.connection out.object :=
      Nat.add_pos_left (count_pos_iff.mpr hheld.1) _
    have hconn : s.connectionId = some out.connection := by
      have hcounts := h.counted hs (hheld.2 s hs) out.connection
      grind [UdpSession.Counts]
    refine { h with isolated := ?_ }
    intro f hf
    rcases mem_cons.mp hf with rfl | hf
    · exact ⟨hconn, h.logged hs hconn⟩
    · exact h.isolated f hf
  | replaces hfree hchecked hbinds hreg hexpired => exact { h.removeSessionLocked hreg with }
  | removes hfree hreg hstep => exact h.removeSessionLocked hreg

omit h

theorem scoped_step (step : UdpStep) (h : Scoped P a) (hheld : step.Held a) :
    Scoped P (step.apply P a) := by
  obtain ⟨b, hcore, hchange⟩ := UdpAgent.change_apply P a step
  exact (scoped_change h hheld hchange).of_core hcore

/-- **Isolation between connections.** In every run whose sends come from
connections that hold a control stream on the session, every datagram went
through a session that was attached to its connection by a caller with the
owner's fingerprint. -/
theorem udp_isolated (P : Primitives) (steps : List UdpStep)
    (hheld : Run.Guarded (UdpStep.apply P) (fun a step => step.Held a) .start steps) :
    (UdpAgent.start.run P steps).Isolated P :=
  (Run.Guarded.invariant (fun _ step h hok => scoped_step step h hok) hheld scoped_start).isolated

/-! ### Two clients -/

def udpSession (peer : UInt8) : Accepted :=
  { peerToken := Vector.replicate 16 peer,
    caps :=
      { presence := 0b00000100, shell := none, tcp := none, udp := some [⟨"*", 0, 65535⟩],
        fs := none, vpn := none, metaCaps := none, unix := none },
    ticketId := Vector.replicate 16 peer, ticketChainIds := [], ticketIssuerId := sampleKey 1,
    ticketHolderId := none, bearer := none }

def udpRequest (peer : UInt8) : UdpCtlReq :=
  ⟨⟨Vector.replicate 16 peer, alpnUdpV1⟩, Vector.replicate 8 0, [⟨(0, 0), "dns", (53, 53)⟩]⟩

/-- A client on connection `connection` makes itself a session with the given id. -/
def openSession (peer : UInt8) (connection : ConnectionId) (id : UInt8) : List UdpStep :=
  [.attachBegin (udpSession peer) (udpRequest peer) [[10, 0, 0, 1]] connection 100,
    .attachFinish (Vector.replicate 8 id), .startPump connection]

def query (id : UInt8) : UdpDatagram := ⟨Vector.replicate 8 id, 53, 1, [42]⟩

/-- Connection `connection` sends a datagram with the id of a session. -/
def sendQuery (connection : ConnectionId) (id : UInt8) (object : ℕ) : List UdpStep :=
  [.receive connection (query id) 20 101, .route connection object (query id) false,
    .send ⟨connection, object, query id, ([10, 0, 0, 1], 53)⟩]

/-- Both clients send on their own sessions. -/
theorem udp_isolated_own :
    ((UdpAgent.start.run (.transparent [])
      (openSession 1 1 7 ++ openSession 2 2 8 ++ sendQuery 1 7 0 ++ sendQuery 2 8 1)).forwarded.map
        fun f => (f.out.connection, f.out.object)) = [(2, 1), (1, 0)] ∧
    (UdpAgent.start.run (.transparent [])
      (openSession 1 1 7 ++ openSession 2 2 8 ++ sendQuery 1 7 0 ++ sendQuery 2 8 1)).Isolated
        (.transparent []) :=
  ⟨by decide +kernel, udp_isolated _ _ (by decide +kernel)⟩

/-- The second client sends on the session of the first. -/
theorem udp_forwards_foreign :
    ((UdpAgent.start.run (.transparent [])
      (openSession 1 1 7 ++ openSession 2 2 8 ++ sendQuery 2 7 0)).forwarded.map
        fun f => (f.out.connection, f.session.connectionId)) = [(2, some 1)] ∧
    ¬ (UdpAgent.start.run (.transparent [])
      (openSession 1 1 7 ++ openSession 2 2 8 ++ sendQuery 2 7 0)).Isolated (.transparent []) := by
  decide +kernel

end Portl
