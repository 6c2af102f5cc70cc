import Portl.Agent.TargetContext

/-!
# Choosing what to run

`shell_handler/user.rs` and the three spawn functions of
`shell_handler/spawn.rs`, each up to the call that starts the process. The
permission test looks at the mode and at `argv`; the dispatch looks at the mode
and at the terminal. A shell request with a terminal is where the two do not
meet: its `argv` is nobody's business in the test, and it is what gets run.

A step that can take the agent down is a `panic`, kept apart from the rejections.
-/

namespace Portl

open Checks

/-! ## Rejections -/

inductive RejectKind where
  | argvEmpty
  | pathProbeFailed
  | ptyAllocationFailed
  | uidLookupFailed
  | userSwitchRefused
deriving DecidableEq

structure SpawnReject where
  kind : RejectKind
  wire : ShellReason
deriving DecidableEq

namespace SpawnReject

def argvEmpty : SpawnReject := ⟨.argvEmpty, .spawnFailed "missing argv"⟩

def uidLookupFailed (message : String) : SpawnReject := ⟨.uidLookupFailed, .badUser message⟩

def userSwitchRefused (message : String) : SpawnReject :=
  ⟨.userSwitchRefused, .badUser message⟩

def ptyAllocationFailed (wire : ShellReason) : SpawnReject := ⟨.ptyAllocationFailed, wire⟩

end SpawnReject

inductive SpawnStop where
  | err (reject : SpawnReject)
  | panic
deriving DecidableEq

/-! ## The account -/

/-- `nix::unistd::User`. -/
structure Account where
  uid : UInt32
  gid : UInt32
  name : String
  dir : String
  shell : String

structure UserDb where
  currentUid : UInt32
  fromUid : UInt32 → Except String (Option Account)
  fromName : String → Except String (Option Account)

/-- What is handed to the operating system. `switchTo` is the account of the
hook that drops privileges, `pty` the terminal. -/
structure Command where
  program : String
  args : List String
  cwd : Option String
  env : List (String × String)
  pty : Option PtyCfg
  switchTo : Option RequestedUser
deriving DecidableEq

/-- `install_exec_user_switch`: no hook unless a switch is called for. -/
def installExecUserSwitch (requestedUser : Option RequestedUser) : Option RequestedUser :=
  requestedUser.filter RequestedUser.switchRequired

def TargetProcessContext.command (context : TargetProcessContext) (program : String)
    (args : List String) (pty : Option PtyCfg) (switchTo : Option RequestedUser) : Command :=
  ⟨program, args, context.cwd, context.env, pty, switchTo⟩

/-- `Vec::remove(0)`, which panics on an empty vector. -/
def removeFirst {α : Type} (v : List α) : Except SpawnStop (α × List α) :=
  match v with
  | [] => .error .panic
  | a :: rest => .ok (a, rest)

section

variable (shellVar : Option String) (caps : Capabilities) (req : ShellReq)
  (requestedUser : Option RequestedUser)

def spawnExecProcess : Except SpawnStop Command := do
  let argv ← okOr (req.argv.filter fun argv => !argv.isEmpty) (.err .argvEmpty)
  -- indexing; the filter is what keeps it in bounds
  let program ← okOr argv.head? .panic
  let context := TargetProcessContext.new shellVar caps.shell req requestedUser
  .ok (context.command program argv.tail none (installExecUserSwitch requestedUser))

def spawnRawShellProcess : Except SpawnStop Command :=
  let context := TargetProcessContext.new shellVar caps.shell req requestedUser
  .ok (context.command context.shellProgram ["-l"] none (installExecUserSwitch requestedUser))

/-- The program of a terminal process: the login shell without an `argv`, and
otherwise whatever it starts with. -/
def ptyProgram (context : TargetProcessContext) (argv : Option (List String)) :
    Except SpawnStop (String × List String) :=
  match argv with
  | none => .ok (context.shellProgram, ["-l"])
  | some requested => removeFirst requested

def spawnPtyProcess : Except SpawnStop Command := do
  failIf (requestedUser.any RequestedUser.switchRequired = true)
    (.err (.userSwitchRefused
      "pty mode does not support --user; use `portl exec --user <name>` or run the agent as the target user"))
  let pty ← okOr req.pty (.err (.ptyAllocationFailed .invalidPty))
  let context := TargetProcessContext.new shellVar caps.shell req requestedUser
  let chosen ← ptyProgram context req.argv
  .ok (context.command chosen.1 chosen.2 (some pty) none)

def spawnProcess : Except SpawnStop Command :=
  match req.mode, req.pty with
  | .exec, none => spawnExecProcess shellVar caps req requestedUser
  | .shell, none => spawnRawShellProcess shellVar caps req requestedUser
  | _, some _ => spawnPtyProcess shellVar caps req requestedUser

end

/-! ## What each of them runs -/

variable {shellVar : Option String} {caps : Capabilities} {req : ShellReq}
  {requestedUser : Option RequestedUser} {command : Command} {α : Type} {v : List α}
  {args : List String} {program : String}

theorem removeFirst_eq_ok {rest : List α} {a : α} :
    removeFirst v = .ok (a, rest) ↔ v = a :: rest := by
  cases v <;> simp [removeFirst]

theorem removeFirst_eq_panic : removeFirst v = .error .panic ↔ v = [] := by
  cases v <;> simp [removeFirst]

theorem spawnExecProcess_eq_ok
    (h : spawnExecProcess shellVar caps req requestedUser = .ok command) :
    req.argv = some (command.program :: command.args) := by
  simp only [spawnExecProcess, bind_eq_ok, okOr_eq_ok, Option.filter_eq_some_iff] at h
  obtain ⟨argv, ⟨hargv, -⟩, program, hhead, hcommand⟩ := h
  obtain rfl := Except.ok.inj hcommand
  obtain ⟨rest, rfl⟩ := List.head?_eq_some_iff.mp hhead
  exact hargv

theorem spawnExecProcess_ne_panic :
    spawnExecProcess shellVar caps req requestedUser ≠ .error .panic := by
  intro h
  simp only [spawnExecProcess, bind_eq_error, okOr_eq_error, okOr_eq_ok,
    Option.filter_eq_some_iff] at h
  rcases h with ⟨-, herr⟩ | ⟨argv, ⟨-, hne⟩, ⟨hhead, -⟩ | ⟨program, -, hok⟩⟩
  · cases herr
  · -- a vector that passed the filter has a first element
    rw [List.head?_eq_none_iff.mp hhead] at hne
    cases hne
  · cases hok

theorem spawnRawShellProcess_eq_ok
    (h : spawnRawShellProcess shellVar caps req requestedUser = .ok command) :
    command.program = targetShell shellVar requestedUser ∧ command.args = ["-l"] := by
  obtain rfl := Except.ok.inj h
  exact ⟨rfl, rfl⟩

theorem spawnPtyProcess_eq_ok
    (h : spawnPtyProcess shellVar caps req requestedUser = .ok command) :
    (req.argv = none ∧ command.program = targetShell shellVar requestedUser ∧
      command.args = ["-l"]) ∨ req.argv = some (command.program :: command.args) := by
  simp only [spawnPtyProcess, bind_eq_ok, okOr_eq_ok, exists_unit_ok] at h
  obtain ⟨-, pty, -, chosen, hchosen, hcommand⟩ := h
  obtain rfl := Except.ok.inj hcommand
  cases hargv : req.argv with
  | none =>
    rw [hargv] at hchosen
    obtain rfl := Except.ok.inj hchosen
    exact Or.inl ⟨rfl, rfl, rfl⟩
  | some argv =>
    rw [hargv] at hchosen
    obtain ⟨program, rest⟩ := chosen
    obtain rfl := removeFirst_eq_ok.mp hchosen
    exact Or.inr rfl

theorem spawnPtyProcess_argv {pty : PtyCfg}
    (hswitch : requestedUser.any RequestedUser.switchRequired = false) (hpty : req.pty = some pty)
    (hargv : req.argv = some (program :: args)) :
    ∃ command, spawnPtyProcess shellVar caps req requestedUser = .ok command ∧
      command.program = program ∧ command.args = args := by
  let context := TargetProcessContext.new shellVar caps.shell req requestedUser
  refine ⟨context.command program args (some pty) none, ?_, rfl, rfl⟩
  unfold spawnPtyProcess
  rw [hswitch, hpty, hargv]
  rfl

theorem spawnPtyProcess_eq_panic :
    spawnPtyProcess shellVar caps req requestedUser = .error .panic ↔
      requestedUser.any RequestedUser.switchRequired = false ∧ req.pty.isSome = true ∧
        req.argv = some [] := by
  simp only [spawnPtyProcess, bind_eq_error, failIf_eq_error, failIf_eq_ok, okOr_eq_error,
    okOr_eq_ok, exists_const, Bool.not_eq_true]
  constructor
  · rintro (⟨-, herr⟩ | ⟨hswitch, ⟨-, herr⟩ | ⟨pty, hpty, hchosen | ⟨chosen, -, hok⟩⟩⟩)
    · cases herr
    · cases herr
    · refine ⟨hswitch, by rw [hpty]; rfl, ?_⟩
      cases hargv : req.argv with
      | none =>
        rw [hargv] at hchosen
        cases hchosen
      | some argv =>
        rw [hargv] at hchosen
        rw [removeFirst_eq_panic.mp hchosen]
    · cases hok
  · rintro ⟨hswitch, hpty, hargv⟩
    obtain ⟨pty, hpty⟩ := Option.isSome_iff_exists.mp hpty
    refine Or.inr ⟨hswitch, Or.inr ⟨pty, hpty, Or.inl ?_⟩⟩
    rw [hargv]
    rfl

/-! ## No request takes the agent down -/

theorem spawnProcess_eq_panic :
    spawnProcess shellVar caps req requestedUser = .error .panic ↔
      req.pty.isSome = true ∧ req.argv = some [] ∧
        requestedUser.any RequestedUser.switchRequired = false := by
  have hpanic : spawnPtyProcess shellVar caps req requestedUser = .error .panic ↔
      requestedUser.any RequestedUser.switchRequired = false ∧ req.pty.isSome = true ∧
        req.argv = some [] := spawnPtyProcess_eq_panic
  unfold spawnProcess
  split
  · rename_i hmode hpty
    rw [hpty]
    constructor
    · intro h
      exact absurd h spawnExecProcess_ne_panic
    · rintro ⟨hsome, -⟩
      cases hsome
  · rename_i hmode hpty
    rw [hpty]
    constructor
    · intro h
      cases h
    · rintro ⟨hsome, -⟩
      cases hsome
  · rw [hpanic]
    constructor
    · rintro ⟨hswitch, hpty, hargv⟩
      exact ⟨hpty, hargv, hswitch⟩
    · rintro ⟨hpty, hargv, hswitch⟩
      exact ⟨hswitch, hpty, hargv⟩

/-- **When spawning panics.** On a request the capabilities permit, choosing the
program ends in `Ok` or `Err` exactly when it is not a terminal request with an
empty `argv`, unless that is refused before for wanting another account. -/
theorem spawnProcess_no_panic_iff (shellVar : Option String) (caps : Capabilities)
    (req : ShellReq) (requestedUser : Option RequestedUser) :
    shellPermits caps req = .ok () →
      (spawnProcess shellVar caps req requestedUser ≠ .error .panic ↔
        ¬ (req.pty.isSome = true ∧ req.argv = some [] ∧
          requestedUser.any RequestedUser.switchRequired = false)) := by
  intro _
  rw [Ne, spawnProcess_eq_panic]

def openShellCaps (commandAllowlist : Option (List String)) : Capabilities :=
  { presence := 1, shell := some ⟨none, true, true, commandAllowlist, .deny⟩, tcp := none,
    udp := none, fs := none, vpn := none, metaCaps := none, unix := none }

def ptyReq (mode : ShellMode) (argv : Option (List String)) : ShellReq :=
  { plainReq [] with mode := mode, argv := argv, pty := some ⟨"xterm", 80, 24⟩ }

theorem spawnProcess_no_panic_ls :
    shellPermits (openShellCaps none) (ptyReq .exec (some ["ls"])) = .ok () ∧
    spawnProcess none (openShellCaps none) (ptyReq .exec (some ["ls"])) none ≠
      .error .panic := by
  have hpermits : shellPermits (openShellCaps none) (ptyReq .exec (some ["ls"])) = .ok () := by
    decide
  exact ⟨hpermits, (spawnProcess_no_panic_iff none _ _ none hpermits).mpr (by decide)⟩

/-- A shell with a terminal and an empty `argv` is permitted, and panics. -/
theorem spawnProcess_empty_argv_panics :
    shellPermits (openShellCaps none) (ptyReq .shell (some [])) = .ok () ∧
    spawnProcess none (openShellCaps none) (ptyReq .shell (some [])) none =
      .error .panic := by
  refine ⟨?_, ?_⟩ <;> decide

/-! ## The command allowlist -/

/-- What the list asks of a command: the login shell, or a listed first word of
a request that may execute. -/
def Command.WithinAllowlist (command : Command) (shellVar : Option String) (req : ShellReq)
    (requestedUser : Option RequestedUser) (shellCaps : ShellCaps) (allowlist : List String) :
    Prop :=
  (command.program = targetShell shellVar requestedUser ∧ command.args = ["-l"]) ∨
    (req.argv.bind List.head? = some command.program ∧ command.program ∈ allowlist ∧
      shellCaps.execAllowed = true)

/-- The `argv` of a shell request with a terminal, which nothing checks, happens
to name the login shell or a listed command. -/
def ShellArgvListed (shellVar : Option String) (req : ShellReq)
    (requestedUser : Option RequestedUser) (shellCaps : ShellCaps) (allowlist : List String) :
    Prop :=
  req.mode = .shell → req.pty.isSome = true →
    requestedUser.any RequestedUser.switchRequired = false →
    ∀ program args, req.argv = some (program :: args) →
      (program = targetShell shellVar requestedUser ∧ args = ["-l"]) ∨
        (program ∈ allowlist ∧ shellCaps.execAllowed = true)

theorem exec_listed {shellCaps : ShellCaps} {allowlist : List String}
    (hlist : shellCaps.commandAllowlist = some allowlist)
    (hmode : modePermits shellCaps req.mode = .ok ()) (hexec : req.mode = .exec)
    (hcommand : commandPermits shellCaps req = .ok ()) (hargv : req.argv = some (program :: args)) :
    program ∈ allowlist ∧ shellCaps.execAllowed = true := by
  have hsome : shellCaps.commandAllowlist.isSome = true := by rw [hlist]; rfl
  obtain ⟨argv0, hargv0, hallow⟩ := commandPermits_eq_ok.mp hcommand hexec hsome
  rw [hargv] at hargv0
  obtain rfl : program = argv0 := Option.some.inj hargv0
  exact ⟨hallow allowlist hlist, (modePermits_eq_ok.mp hmode).2 hexec⟩

/-- Whatever is run is the login shell, or what `argv` says: in an exec request,
or with a terminal and no other account. -/
theorem spawnProcess_eq_ok (h : spawnProcess shellVar caps req requestedUser = .ok command) :
    (command.program = targetShell shellVar requestedUser ∧ command.args = ["-l"]) ∨
      (req.argv = some (command.program :: command.args) ∧
        (req.mode = .exec ∨ (req.pty.isSome = true ∧
          requestedUser.any RequestedUser.switchRequired = false))) := by
  unfold spawnProcess at h
  split at h
  · rename_i hexec hnone
    exact Or.inr ⟨spawnExecProcess_eq_ok h, Or.inl hexec⟩
  · exact Or.inl (spawnRawShellProcess_eq_ok h)
  · rename_i pty hpty
    have hsome : req.pty.isSome = true := by rw [hpty]; rfl
    have hswitch : requestedUser.any RequestedUser.switchRequired = false := by
      simp only [spawnPtyProcess, bind_eq_ok, failIf_eq_ok, exists_const] at h
      simpa using h.1
    rcases spawnPtyProcess_eq_ok h with ⟨-, hlogin⟩ | hargv
    · exact Or.inl hlogin
    · exact Or.inr ⟨hargv, Or.inr ⟨hsome, hswitch⟩⟩

/-- **When the command allowlist holds.** On a permitted request the program
that would be run is the login shell with `-l` or a listed first word, exactly
when the `argv` of a shell request with a terminal is. -/
theorem spawnProcess_allowlist_iff {caps : Capabilities} {shellCaps : ShellCaps}
    {allowlist : List String} {req : ShellReq} (hcaps : caps.shell = some shellCaps)
    (hlist : shellCaps.commandAllowlist = some allowlist)
    (hpermits : shellPermits caps req = .ok ()) (shellVar : Option String)
    (requestedUser : Option RequestedUser) :
    (∀ command, spawnProcess shellVar caps req requestedUser = .ok command →
      command.WithinAllowlist shellVar req requestedUser shellCaps allowlist) ↔
      ShellArgvListed shellVar req requestedUser shellCaps allowlist := by
  obtain ⟨shellCaps', hcaps', hmode, -, -, hcommand⟩ := shellPermits_eq_ok.mp hpermits
  obtain rfl : shellCaps = shellCaps' := Option.some.inj (hcaps.symm.trans hcaps')
  constructor
  · intro h hshell hpty hswitch program args hargv
    obtain ⟨pty, hpty⟩ := Option.isSome_iff_exists.mp hpty
    obtain ⟨command, hspawn, rfl, rfl⟩ :
        ∃ command, spawnPtyProcess shellVar caps req requestedUser = .ok command ∧
          command.program = program ∧ command.args = args :=
      spawnPtyProcess_argv hswitch hpty hargv
    have hdispatch : spawnProcess shellVar caps req requestedUser = .ok command := by
      unfold spawnProcess
      rw [hshell, hpty]
      exact hspawn
    rcases h command hdispatch with hlogin | ⟨-, hmem, hexec⟩
    · exact Or.inl hlogin
    · exact Or.inr ⟨hmem, hexec⟩
  · intro h command hspawn
    rcases spawnProcess_eq_ok hspawn with hlogin | ⟨hargv, hwhere⟩
    · exact Or.inl hlogin
    · have hhead : req.argv.bind List.head? = some command.program := by rw [hargv]; rfl
      cases hmodeEq : req.mode with
      | exec =>
        exact Or.inr ⟨hhead, exec_listed hlist hmode hmodeEq hcommand hargv⟩
      | shell =>
        rcases hwhere with hexec | ⟨hpty, hswitch⟩
        · rw [hmodeEq] at hexec
          cases hexec
        · rcases h hmodeEq hpty hswitch _ _ hargv with hlogin | hlisted
          · exact Or.inl hlogin
          · exact Or.inr ⟨hhead, hlisted⟩

/-- An exec request for the one listed command. -/
theorem spawnProcess_allowlist_ls :
    shellPermits (openShellCaps (some ["ls"])) (ptyReq .exec (some ["ls", "/"])) = .ok () ∧
    ∀ command, spawnProcess none (openShellCaps (some ["ls"]))
        (ptyReq .exec (some ["ls", "/"])) none = .ok command →
      command.WithinAllowlist none (ptyReq .exec (some ["ls", "/"])) none
        ⟨none, true, true, some ["ls"], .deny⟩ ["ls"] := by
  have hpermits : shellPermits (openShellCaps (some ["ls"]))
      (ptyReq .exec (some ["ls", "/"])) = .ok () := by decide
  refine ⟨hpermits, (spawnProcess_allowlist_iff rfl rfl hpermits none none).mpr ?_⟩
  intro hshell
  cases hshell

/-- With a terminal and in shell mode, a command that is not on the list gets
through and is run, also where execution is not allowed at all. -/
theorem spawnProcess_runs_unlisted :
    let shellCaps : ShellCaps := ⟨none, true, false, some ["ls"], .deny⟩
    let caps : Capabilities := { openShellCaps none with shell := some shellCaps }
    let req := ptyReq .shell (some ["/bin/rm", "-r", "/"])
    shellPermits caps req = .ok () ∧
    ∃ command, spawnProcess none caps req none = .ok command ∧
      command.program = "/bin/rm" ∧ command.args = ["-r", "/"] ∧
      ¬ command.WithinAllowlist none req none shellCaps ["ls"] := by
  intro shellCaps caps req
  have hpermits : shellPermits caps req = .ok () := by decide
  obtain ⟨command, hspawn, hprogram, hargs⟩ :
      ∃ command, spawnPtyProcess none caps req none = .ok command ∧
        command.program = "/bin/rm" ∧ command.args = ["-r", "/"] :=
    spawnPtyProcess_argv rfl rfl rfl
  refine ⟨hpermits, command, hspawn, hprogram, hargs, ?_⟩
  rintro (⟨hlogin, -⟩ | ⟨-, -, hexec⟩)
  · rw [hprogram] at hlogin
    exact absurd hlogin (by decide)
  · cases hexec

end Portl
