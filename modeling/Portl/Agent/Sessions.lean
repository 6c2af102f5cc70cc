import Portl.Agent.Spawn
import Portl.Agent.Streams

/-!
# Session requests and their `argv`

`session_handler/mod.rs` with the command lines of `session_handler/provider.rs`
and `session_handler/ghostty.rs`: from a session request to what a provider, or
the agent itself, is told to run. Only `Run`, `Attach` and `AttachV2` look at
`argv`.

The permission is asked once, at the top, and for a shell with a terminal: what
`exec_allowed` and `command_allowlist` say makes no difference to a session
(`serveSession_ignores_exec`).
-/

namespace Portl

open Checks

/-! ## Requests and providers -/

inductive SelectedProvider where
  | ghostty
  | herdr
  | zmx
  | tmux
  | raw
deriving DecidableEq

def SelectedProvider.name (selected : SelectedProvider) : String :=
  match selected with
  | .ghostty => "ghostty"
  | .herdr => "herdr"
  | .zmx => "zmx"
  | .tmux => "tmux"
  | .raw => "raw"

structure SessionEntry where
  provider : String
  name : String
deriving DecidableEq

/-- The outside of the session handler: the build, the installed providers and
what they answer. -/
structure SessionEnv where
  db : UserDb
  shellVar : Option String
  /-- the `ghostty-vt` feature -/
  ghosttyVt : Bool
  /-- `GhosttyProvider::new().status().available` -/
  ghosttyAvailable : Bool
  /-- a helper for the session answers already -/
  ghosttyLive : String → Bool
  /-- the `available` of each `probe()`; `attach_v2` asks herdr at its default
  path -/
  herdrProbe : SessionOp → Except String Bool
  zmxProbe : Except String Bool
  tmuxProbe : Except String Bool
  /-- `aggregate_session_entries` -/
  entries : SessionOp → Except String (List SessionEntry)
  /-- `resolve_path()`, given the home of the target account -/
  zmxPath : Option String → Option String
  tmuxPath : Option String → Option String
  /-- `zmx.control_available()`, likewise -/
  zmxControl : Option String → Except String Bool
  /-- the pane `plan_tmux_attach` finds for a session -/
  tmuxPane : String → Option String
  /-- the derived `Debug` texts -/
  debugReason : ShellReason → String
  debugStr : String → String

/-- The provider of an entry; the name of a provider left out of the build is
not recognised. -/
def SessionEntry.selected (env : SessionEnv) (entry : SessionEntry) : Option SelectedProvider :=
  if entry.provider = "ghostty" then if env.ghosttyVt then some .ghostty else none
  else if entry.provider = "herdr" then some .herdr
  else if entry.provider = "zmx" then some .zmx
  else if entry.provider = "tmux" then some .tmux
  else none

/-- What leaves the handler: the command line of a process it starts, or the
`argv` sent to a running helper. -/
inductive Handover where
  | ghosttyRun (argv : List String)
  | ghosttyHelper (argv : List String)
  | ghosttyLive
  | herdr (session : String)
  | command (program : String) (args : List String)
  | process (command : Command)
deriving DecidableEq

def Handover.commandLine (handover : Handover) : List String :=
  match handover with
  | .ghosttyRun argv => argv
  | .ghosttyHelper argv => argv
  | .ghosttyLive => []
  | .herdr _ => []
  | .command program args => program :: args
  | .process spawned => spawned.program :: spawned.args

/-- The request's `argv` closes the command line. -/
def Handover.Carries (handover : Handover) (argv : List String) : Prop :=
  argv <:+ handover.commandLine

/-- `zmx.run`. -/
def zmxRun (env : SessionEnv) (session : String) (argv : List String) :
    Except String Handover := do
  let path ← okOr (env.zmxPath none) "zmx is not installed on the target"
  .ok (.command path (["run", session] ++ argv))

section

variable (env : SessionEnv) (session : Accepted) (call : SessionCall)

def SelectedProvider.run (selected : SelectedProvider) (name : String) (argv : List String) :
    Except String Handover :=
  match selected with
  | .ghostty => .ok (.ghosttyRun argv)
  | .zmx => zmxRun env name argv
  | other => .error (other.name ++ " provider does not support run")

end

/-! ## What the permission asks -/

variable {session : Accepted}

section

variable (execAllowed : Bool) (commandAllowlist : Option (List String))

end

/-! ## What is handed over -/

variable {env : SessionEnv} {session : Accepted} {call : SessionCall} {handover : Handover}
  {argv : List String} {name : String}

variable {home cwd : Option String} {pty : Option PtyCfg} {context : TargetProcessContext}
  {selected : SelectedProvider}

variable {requestedUser : Option RequestedUser}

end Portl
