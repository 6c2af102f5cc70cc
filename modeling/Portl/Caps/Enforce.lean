import Mathlib.Data.Prod.Basic
import Portl.Lib.Checks
import Portl.Caps.Narrowing

/-!
# Capability enforcement

`caps_enforce.rs`: the tests the agent runs on each request. They are written
independently of the narrowing decision of `Caps/Narrowing.lean` — other
crate, other functions, other string matching — so the two have to be related
rule by rule. `Cover.allows_of_narrows` carries the list part; what is left per
family is that one covering rule admits what the covered rule admits.
-/

namespace Portl

open Checks Cover

/-! ## Requests -/

structure StreamPreamble where
  peerToken : Bytes16
  alpn : String
deriving DecidableEq

inductive ShellMode where
  | shell
  | exec
deriving DecidableEq

structure PtyCfg where
  term : String
  cols : UInt16
  rows : UInt16
deriving DecidableEq

inductive EnvValue where
  | set (value : String)
  | unset
deriving DecidableEq

structure ShellReq where
  preamble : StreamPreamble
  mode : ShellMode
  argv : Option (List String)
  envPatch : List (String × EnvValue)
  cwd : Option String
  pty : Option PtyCfg
  user : Option String
deriving DecidableEq

inductive ShellReason where
  | capDenied
  | badUser (message : String)
  | spawnFailed (message : String)
  | invalidPty
  | notFound
  | internalError (message : String)
deriving DecidableEq

structure TcpReq where
  preamble : StreamPreamble
  host : String
  port : UInt16
deriving DecidableEq

structure UdpBind where
  localPortRange : UInt16 × UInt16
  targetHost : String
  targetPortRange : UInt16 × UInt16
deriving DecidableEq

inductive UnixOp where
  | connect (path : String)
  | listen (path : String) (cleanup sshAgent : Bool)
deriving DecidableEq

structure UnixReq where
  preamble : StreamPreamble
  op : UnixOp
deriving DecidableEq

/-! ## Shell -/

/-- The first `match` of `shell_permits`, on the requested mode. -/
def modePermits (shellCaps : ShellCaps) (mode : ShellMode) : Except ShellReason Unit :=
  match mode with
  | .shell => failIf (shellCaps.ptyAllowed = false) .capDenied
  | .exec => failIf (shellCaps.execAllowed = false) .capDenied

def userPermits (shellCaps : ShellCaps) (user : Option String) : Except ShellReason Unit :=
  match shellCaps.userAllowlist with
  | some allowlist => failIf (user.getD "" ∉ allowlist) .capDenied
  | none => .ok ()

def commandPermits (shellCaps : ShellCaps) (req : ShellReq) : Except ShellReason Unit :=
  match req.mode, shellCaps.commandAllowlist with
  | .exec, some allowlist => do
    let argv0 ← okOr (req.argv.bind List.head?) (.spawnFailed "exec mode requires argv")
    failIf (argv0 ∉ allowlist) .capDenied
  | _, _ => .ok ()

def shellPermits (caps : Capabilities) (req : ShellReq) : Except ShellReason Unit := do
  let shellCaps ← okOr caps.shell .capDenied
  modePermits shellCaps req.mode
  failIf (req.pty.isSome = true ∧ shellCaps.ptyAllowed = false) .capDenied
  userPermits shellCaps req.user
  commandPermits shellCaps req

/-! ## Hosts, ports, sockets -/

def hostMatches (pattern host : String) : Bool :=
  if pattern = "*" then true
  else
    match Str.stripPrefix pattern "*." with
    | some suffix => Str.endsWith host ("." ++ suffix) || decide (host = suffix)
    | none =>
      match Str.stripSuffix pattern ".*" with
      | some pre => Str.startsWith host (pre ++ ".")
      | none => decide (pattern = host)

def isLoopbackName (host : String) : Bool :=
  decide (host = "localhost") || decide (host = "127.0.0.1") || decide (host = "::1")

def listenHostMatches (pattern host : String) : Bool :=
  if pattern = "*" then isLoopbackName host else hostMatches pattern host

/-- The rule test shared by `tcp_permits`, `tcp_listen_permits` and
`udp_permits`: a host test, and an interval of ports inside the rule's. -/
def ruleAdmits (hostTest : String → String → Bool) (rule : PortRule)
    (dest : String × UInt16 × UInt16) : Bool :=
  hostTest rule.hostGlob dest.1 && decide (rule.portMin ≤ dest.2.1) &&
    decide (dest.2.2 ≤ rule.portMax)

def tcpPermits (caps : Capabilities) (req : TcpReq) : Except String Unit := do
  let rules ← okOr caps.tcp "tcp forwarding not allowed"
  failIf (allows (ruleAdmits hostMatches) rules (req.host, req.port, req.port) = false)
    "destination not permitted by ticket"

def tcpListenPermits (caps : Capabilities) (bindHost : String) (bindPort : UInt16) :
    Except String Unit := do
  failIf (caps.presence &&& tcpListenCapBit = 0) "tcp listen forwarding not allowed"
  let rules ← okOr caps.tcp "tcp listen forwarding not allowed"
  failIf (allows (ruleAdmits listenHostMatches) rules (bindHost, bindPort, bindPort) = false)
    "listen address not permitted by ticket"

def udpPermits (caps : Capabilities) (bind : UdpBind) : Except String Unit := do
  let rules ← okOr caps.udp "udp forwarding not allowed"
  failIf (allows (ruleAdmits hostMatches) rules
      (bind.targetHost, bind.targetPortRange.1, bind.targetPortRange.2) = false)
    "destination not permitted by ticket"

def unixRulesFor (unixCaps : UnixCaps) (op : UnixOp) : List UnixPathRule × String :=
  match op with
  | .connect path => (unixCaps.connect, path)
  | .listen path _ _ => (unixCaps.listen, path)

def unixPermits (caps : Capabilities) (req : UnixReq) : Except String Unit := do
  let unixCaps ← okOr caps.unix "unix forwarding not allowed"
  let (rules, path) := unixRulesFor unixCaps req.op
  failIf (allows UnixPathRule.matchesPath rules path = false)
    "unix path not permitted by ticket"

/-! ## What each test accepts -/

variable {shellCaps : ShellCaps} {req : ShellReq} {caps child parent : Capabilities}

theorem modePermits_eq_ok {mode : ShellMode} :
    modePermits shellCaps mode = .ok () ↔
      (mode = .shell → shellCaps.ptyAllowed = true) ∧
      (mode = .exec → shellCaps.execAllowed = true) := by
  cases mode <;> simp [modePermits]

theorem userPermits_eq_ok {user : Option String} :
    userPermits shellCaps user = .ok () ↔
      ListAllows shellCaps.userAllowlist (user.getD "") := by
  unfold userPermits ListAllows
  cases shellCaps.userAllowlist <;> simp

theorem commandPermits_eq_ok :
    commandPermits shellCaps req = .ok () ↔
      (req.mode = .exec → shellCaps.commandAllowlist.isSome = true →
        ∃ argv0, req.argv.bind List.head? = some argv0 ∧
          ListAllows shellCaps.commandAllowlist argv0) := by
  unfold commandPermits ListAllows
  cases req.mode <;> cases shellCaps.commandAllowlist <;> simp

/-- **The shell test, as one predicate** on the shell caps in force. -/
theorem shellPermits_eq_ok :
    shellPermits caps req = .ok () ↔
      ∃ shellCaps, caps.shell = some shellCaps ∧
        modePermits shellCaps req.mode = .ok () ∧
        (req.pty.isSome = true → shellCaps.ptyAllowed = true) ∧
        userPermits shellCaps req.user = .ok () ∧
        commandPermits shellCaps req = .ok () := by
  simp only [shellPermits, bind_eq_ok, okOr_eq_ok, exists_unit_ok, failIf_eq_ok,
    exists_const, not_and, Bool.not_eq_false]

theorem tcpPermits_eq_ok {req : TcpReq} :
    tcpPermits caps req = .ok () ↔
      ∃ rules, caps.tcp = some rules ∧
        allows (ruleAdmits hostMatches) rules (req.host, req.port, req.port) = true := by
  simp [tcpPermits, bind_eq_ok, okOr_eq_ok, failIf_eq_ok]

variable {bind : UdpBind} {host : String}

theorem udpPermits_eq_ok :
    udpPermits caps bind = .ok () ↔
      ∃ rules, caps.udp = some rules ∧
        allows (ruleAdmits hostMatches) rules
          (bind.targetHost, bind.targetPortRange.1, bind.targetPortRange.2) = true := by
  simp [udpPermits, bind_eq_ok, okOr_eq_ok, failIf_eq_ok]

theorem tcpListenPermits_eq_ok {port : UInt16} :
    tcpListenPermits caps host port = .ok () ↔
      caps.presence &&& tcpListenCapBit ≠ 0 ∧
      ∃ rules, caps.tcp = some rules ∧
        allows (ruleAdmits listenHostMatches) rules (host, port, port) = true := by
  simp [tcpListenPermits, bind_eq_ok, okOr_eq_ok, failIf_eq_ok]

theorem unixPermits_eq_ok {req : UnixReq} :
    unixPermits caps req = .ok () ↔
      ∃ unixCaps, caps.unix = some unixCaps ∧
        allows UnixPathRule.matchesPath (unixRulesFor unixCaps req.op).1
          (unixRulesFor unixCaps req.op).2 = true := by
  simp [unixPermits, bind_eq_ok, okOr_eq_ok, failIf_eq_ok]

/-! ## Covering is sound, family by family -/

/-- `host_glob_covers` knows only the bare wildcard and equality, so covering
is sound on every host for which the test accepts the bare wildcard. -/
theorem ruleAdmits_of_covers {hostTest : String → String → Bool} {p c : PortRule}
    {ports : UInt16 × UInt16} (hwild : hostTest "*" host = true) (hcov : portRuleCovers p c = true)
    (hadm : ruleAdmits hostTest c (host, ports) = true) :
    ruleAdmits hostTest p (host, ports) = true := by
  simp only [portRuleCovers, hostGlobCovers, Bool.and_eq_true, Bool.or_eq_true,
    decide_eq_true_eq] at hcov
  simp only [ruleAdmits, Bool.and_eq_true, decide_eq_true_eq] at hadm ⊢
  obtain ⟨⟨hglob, hmin⟩, hmax⟩ := hcov
  obtain ⟨⟨hhost, hlo⟩, hhi⟩ := hadm
  refine ⟨⟨?_, UInt16.le_trans hmin hlo⟩, UInt16.le_trans hhi hmax⟩
  rcases hglob with hstar | heq
  · rw [hstar]
    exact hwild
  · rw [heq]
    exact hhost

theorem hostMatches_wildcard (host : String) : hostMatches "*" host = true := by
  simp [hostMatches]

theorem portRuleCovers_sound : Sound (ruleAdmits hostMatches) portRuleCovers := by
  rintro p c ⟨host, ports⟩ hcov hadm
  exact ruleAdmits_of_covers (hostMatches_wildcard host) hcov hadm

theorem unixCovers_sound : Sound UnixPathRule.matchesPath UnixPathRule.covers :=
  fun _ _ _ => UnixPathRule.matchesPath_of_covers

/-! ## Narrowing is sound for enforcement -/

variable (hn : Narrows parent child)
include hn

theorem shellPermits_of_narrows (h : shellPermits child req = .ok ()) :
    shellPermits parent req = .ok () := by
  obtain ⟨c, hc, hmode, hpty, huser, hcmd⟩ := shellPermits_eq_ok.mp h
  have hsh := hn.shell
  rw [hc] at hsh
  obtain ⟨p, hp, hpc⟩ := optionNarrows_some hsh
  simp only [shellNarrows, Bool.and_eq_true] at hpc
  obtain ⟨⟨⟨⟨husers, hcmds⟩, hptys⟩, hexecs⟩, -⟩ := hpc
  refine shellPermits_eq_ok.mpr ⟨p, hp, ?_, ?_, ?_, ?_⟩
  · rw [modePermits_eq_ok] at hmode ⊢
    exact ⟨fun hm => of_boolNarrows hptys (hmode.1 hm),
      fun hm => of_boolNarrows hexecs (hmode.2 hm)⟩
  · intro hreq
    exact of_boolNarrows hptys (hpty hreq)
  · rw [userPermits_eq_ok] at huser ⊢
    exact listAllows_of_narrows husers huser
  · rw [commandPermits_eq_ok] at hcmd ⊢
    intro hexec hsome
    -- a parent list forces a child list, so the child did look at argv[0]
    have hcsome : c.commandAllowlist.isSome = true := by
      cases hcl : c.commandAllowlist with
      | some l => rfl
      | none =>
        rw [hcl, allowlistNarrows, Option.isNone_iff_eq_none] at hcmds
        rw [hcmds] at hsome
        cases hsome
    obtain ⟨argv0, hargv, hallow⟩ := hcmd hexec hcsome
    exact ⟨argv0, hargv, listAllows_of_narrows hcmds hallow⟩

theorem tcpPermits_of_narrows {req : TcpReq} (h : tcpPermits child req = .ok ()) :
    tcpPermits parent req = .ok () := by
  obtain ⟨c, hc, hallow⟩ := tcpPermits_eq_ok.mp h
  have htcp := hn.tcp
  rw [hc] at htcp
  obtain ⟨p, hp, hpc⟩ := optionNarrows_some htcp
  exact tcpPermits_eq_ok.mpr
    ⟨p, hp, allows_of_narrows portRuleCovers_sound hpc hallow⟩

theorem udpPermits_of_narrows (h : udpPermits child bind = .ok ()) :
    udpPermits parent bind = .ok () := by
  obtain ⟨c, hc, hallow⟩ := udpPermits_eq_ok.mp h
  have hudp := hn.udp
  rw [hc] at hudp
  obtain ⟨p, hp, hpc⟩ := optionNarrows_some hudp
  exact udpPermits_eq_ok.mpr
    ⟨p, hp, allows_of_narrows portRuleCovers_sound hpc hallow⟩

theorem unixPermits_of_narrows {req : UnixReq} (h : unixPermits child req = .ok ()) :
    unixPermits parent req = .ok () := by
  obtain ⟨c, hc, hallow⟩ := unixPermits_eq_ok.mp h
  have hunix := hn.unix
  rw [hc] at hunix
  obtain ⟨p, hp, hpc⟩ := optionNarrows_some hunix
  simp only [unixNarrows, Bool.and_eq_true] at hpc
  refine unixPermits_eq_ok.mpr ⟨p, hp, ?_⟩
  -- the operation picks the list on both sides, so the path is the same
  cases hop : req.op with
  | connect path =>
    rw [hop] at hallow
    exact allows_of_narrows unixCovers_sound hpc.1 hallow
  | listen path cleanup sshAgent =>
    rw [hop] at hallow
    exact allows_of_narrows unixCovers_sound hpc.2 hallow

omit hn

/-- **Narrowing is sound for enforcement.** Whatever a child capability set
lets through, the parent it narrows lets through: shell, tcp, udp and unix
requests alike, on arbitrary capability values. -/
theorem isNarrowing_sound {parent child : Capabilities}
    (h : isNarrowing parent child = true) :
    (∀ req, shellPermits child req = .ok () → shellPermits parent req = .ok ()) ∧
    (∀ req, tcpPermits child req = .ok () → tcpPermits parent req = .ok ()) ∧
    (∀ bind, udpPermits child bind = .ok () → udpPermits parent bind = .ok ()) ∧
    (∀ req, unixPermits child req = .ok () → unixPermits parent req = .ok ()) := by
  have hn := isNarrowing_iff.mp h
  exact ⟨fun _ => shellPermits_of_narrows hn, fun _ => tcpPermits_of_narrows hn,
    fun _ => udpPermits_of_narrows hn, fun _ => unixPermits_of_narrows hn⟩

/-- A delegation that uses every family at once: one listed command out of
two, one port range out of the wildcard, one socket out of a glob. -/
theorem isNarrowing_sound_delegate :
    let parent : Capabilities :=
      { presence := 0b01000111,
        shell := some ⟨none, true, true, some ["ls", "make"], .merge none⟩,
        tcp := some [⟨"*", 1, 65535⟩], udp := some [⟨"10.0.0.*", 1, 9000⟩],
        fs := none, vpn := none, metaCaps := none,
        unix := some ⟨[⟨"/tmp/portl-*"⟩], []⟩ }
    let child : Capabilities :=
      { presence := 0b01000111,
        shell := some ⟨some ["dev"], false, true, some ["make"], .deny⟩,
        tcp := some [⟨"*.internal", 22, 22⟩], udp := some [⟨"10.0.0.*", 53, 53⟩],
        fs := none, vpn := none, metaCaps := none,
        unix := some ⟨[⟨"/tmp/portl-agent.sock"⟩], []⟩ }
    isNarrowing parent child = true ∧
      ∀ req, tcpPermits child req = .ok () → tcpPermits parent req = .ok () := by
  intro parent child
  have h : isNarrowing parent child = true := by decide
  exact ⟨h, (isNarrowing_sound h).2.1⟩

/-! ## Listening: the bare wildcard means something else

`tcp_listen_permits` reads the same `tcp` rules, but `listen_host_matches`
takes the bare `*` for the three loopback names only, while
`host_glob_covers` still lets `*` cover every glob. A child may therefore name
an interface its wildcard parent cannot bind. -/

/-- Some rule other than the bare wildcard admits the address, by the connect
rules. -/
def NamedRuleAdmits (caps : Capabilities) (host : String) (port : UInt16) : Prop :=
  ∃ rules, caps.tcp = some rules ∧ ∃ rule ∈ rules,
    rule.hostGlob ≠ "*" ∧ ruleAdmits hostMatches rule (host, port, port) = true

theorem listenHostMatches_wildcard (host : String) :
    listenHostMatches "*" host = isLoopbackName host := by
  simp [listenHostMatches]

theorem ruleAdmits_listen_named {rule : PortRule} (h : rule.hostGlob ≠ "*")
    (dest : String × UInt16 × UInt16) :
    ruleAdmits listenHostMatches rule dest = ruleAdmits hostMatches rule dest := by
  simp [ruleAdmits, listenHostMatches, h]

/-- **When listen narrowing is sound.** A bind address the child may listen on
is one the parent may listen on exactly when it is a loopback name or the
parent has a rule other than the bare wildcard for it. -/
theorem tcpListenPermits_of_narrows_iff {parent child : Capabilities} {host : String}
    {port : UInt16} (hn : isNarrowing parent child = true)
    (hc : tcpListenPermits child host port = .ok ()) :
    tcpListenPermits parent host port = .ok () ↔
      isLoopbackName host = true ∨ NamedRuleAdmits parent host port := by
  have hnarrows := isNarrowing_iff.mp hn
  obtain ⟨hbit, c, hctcp, hcallow⟩ := tcpListenPermits_eq_ok.mp hc
  have hpbit := listenBit_of_narrows hnarrows hbit
  constructor
  · intro hp
    obtain ⟨-, p, hptcp, hpallow⟩ := tcpListenPermits_eq_ok.mp hp
    obtain ⟨rule, hmem, hadm⟩ := allows_iff.mp hpallow
    by_cases hstar : rule.hostGlob = "*"
    · left
      simp only [ruleAdmits, hstar, listenHostMatches_wildcard, Bool.and_eq_true] at hadm
      exact hadm.1.1
    · right
      rw [ruleAdmits_listen_named hstar] at hadm
      exact ⟨p, hptcp, rule, hmem, hstar, hadm⟩
  · rintro (hloop | ⟨p, hptcp, rule, hmem, hstar, hadm⟩)
    · -- on a loopback name the two readings of the wildcard agree
      have htcp := hnarrows.tcp
      rw [hctcp] at htcp
      obtain ⟨p, hptcp, hpc⟩ := optionNarrows_some htcp
      obtain ⟨crule, hcmem, hcadm⟩ := allows_iff.mp hcallow
      obtain ⟨prule, hpmem, hcov⟩ := exists_cover hpc hcmem
      have hadm : ruleAdmits listenHostMatches prule (host, port, port) = true :=
        ruleAdmits_of_covers (by rw [listenHostMatches_wildcard, hloop]) hcov hcadm
      exact tcpListenPermits_eq_ok.mpr
        ⟨hpbit, p, hptcp, allows_iff.mpr ⟨prule, hpmem, hadm⟩⟩
    · rw [← ruleAdmits_listen_named hstar] at hadm
      exact tcpListenPermits_eq_ok.mpr
        ⟨hpbit, p, hptcp, allows_iff.mpr ⟨rule, hmem, hadm⟩⟩

def listenCaps (glob : String) : Capabilities :=
  { presence := 0b10000010, shell := none, tcp := some [⟨glob, 0, 65535⟩], udp := none,
    fs := none, vpn := none, metaCaps := none, unix := none }

/-- A wildcard parent hands out the loopback address, and keeps it. -/
theorem tcpListenPermits_of_narrows_loopback :
    isNarrowing (listenCaps "*") (listenCaps "127.0.0.1") = true ∧
    tcpListenPermits (listenCaps "127.0.0.1") "127.0.0.1" 2222 = .ok () ∧
    tcpListenPermits (listenCaps "*") "127.0.0.1" 2222 = .ok () := by
  have hn : isNarrowing (listenCaps "*") (listenCaps "127.0.0.1") = true := by decide
  have hc : tcpListenPermits (listenCaps "127.0.0.1") "127.0.0.1" 2222 = .ok () := by decide
  exact ⟨hn, hc, (tcpListenPermits_of_narrows_iff hn hc).mpr (Or.inl (by decide))⟩

/-- The same parent hands out the unspecified address, which it may not bind. -/
theorem tcpListenPermits_widened :
    isNarrowing (listenCaps "*") (listenCaps "0.0.0.0") = true ∧
    tcpListenPermits (listenCaps "0.0.0.0") "0.0.0.0" 2222 = .ok () ∧
    tcpListenPermits (listenCaps "*") "0.0.0.0" 2222 =
      .error "listen address not permitted by ticket" := by
  refine ⟨?_, ?_, ?_⟩ <;> decide

end Portl
