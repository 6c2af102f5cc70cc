import Mathlib
import Portl.Caps.Enforce
import Portl.Lib.Lines

/-!
# The context of a spawned process

`target_context.rs`: working directory, login shell and environment of a
process the agent starts for a request. The environment is where a peer could
reach furthest into the process, and the capability's `env_policy` is what
bounds it. The bound is a statement about two runs: change the peer's patch and
nothing changes outside the keys the policy opens. Delegation shrinks that set
of keys.
-/

namespace Portl

/-- `RequestedUser`: the account a process is to run as. -/
structure RequestedUser where
  uid : UInt32
  gid : UInt32
  name : String
  homeDir : String
  shell : String
  switchRequired : Bool
deriving DecidableEq

/-- `BTreeMap<String, String>`. -/
abbrev EnvMap : Type := Std.TreeMap String String

def defaultTargetPath : String :=
  ":".intercalate
    ["/opt/homebrew/bin", "/opt/homebrew/sbin", "/usr/local/bin", "/usr/local/sbin",
      "/usr/bin", "/bin"]

def normalizeTerm (term : String) : String :=
  let trimmed := String.ofList (Lines.trim term.toList)
  if trimmed = "" ∨ trimmed = "unknown" then "xterm-256color" else trimmed

def userEnv (requestedUser : Option RequestedUser) : EnvMap :=
  match requestedUser with
  | none => ∅
  | some user =>
    (((((∅ : EnvMap).insert "HOME" user.homeDir).insert "USER" user.name).insert "LOGNAME"
      user.name).insert "SHELL" user.shell)

def sanitizedEnvBase (requestedUser : Option RequestedUser) (req : ShellReq) : EnvMap :=
  let env := (userEnv requestedUser).insert "PATH" defaultTargetPath
  match req.pty with
  | none => env
  | some pty => env.insert "TERM" (normalizeTerm pty.term)

/-- `allow.is_some_and(|allow| !allow.contains(key))`: the entry is skipped. -/
def skipsKey (allow : Option (List String)) (key : String) : Bool :=
  allow.any fun allow => !allow.contains key

/-- One turn of the loop of `merge_env_patch`. -/
def mergeEntry (allow : Option (List String)) (env : EnvMap) (entry : String × EnvValue) :
    EnvMap :=
  if skipsKey allow entry.1 then env
  else
    match entry.2 with
    | .set value => env.insert entry.1 value
    | .unset => env.erase entry.1

def mergeEnvPatch (env : EnvMap) (envPatch : List (String × EnvValue))
    (allow : Option (List String)) : EnvMap :=
  envPatch.foldl (mergeEntry allow) env

/-- The map `effective_env` builds before it is listed. -/
def effectiveEnvMap (shellCaps : Option ShellCaps) (req : ShellReq)
    (requestedUser : Option RequestedUser) : EnvMap :=
  let denyBase := sanitizedEnvBase requestedUser req
  match shellCaps.map ShellCaps.envPolicy with
  | none => denyBase
  | some .deny => denyBase
  | some (.merge allow) => mergeEnvPatch denyBase req.envPatch allow
  | some (.replace base) => base.foldl (fun env entry => env.insert entry.1 entry.2) ∅

def effectiveEnv (shellCaps : Option ShellCaps) (req : ShellReq)
    (requestedUser : Option RequestedUser) : List (String × String) :=
  (effectiveEnvMap shellCaps req requestedUser).toList

def requestedCwd (req : ShellReq) (requestedUser : Option RequestedUser) : Option String :=
  req.cwd.or (requestedUser.map RequestedUser.homeDir)

/-- The login shell. Without an account it is the agent's own `SHELL`. -/
def targetShell (shellVar : Option String) (requestedUser : Option RequestedUser) : String :=
  match requestedUser with
  | none => shellVar.getD "/bin/sh"
  | some user => user.shell

structure TargetProcessContext where
  cwd : Option String
  env : List (String × String)
  shellProgram : String
deriving DecidableEq

def TargetProcessContext.new (shellVar : Option String) (shellCaps : Option ShellCaps)
    (req : ShellReq) (requestedUser : Option RequestedUser) : TargetProcessContext where
  cwd := requestedCwd req requestedUser
  env := effectiveEnv shellCaps req requestedUser
  shellProgram := targetShell shellVar requestedUser

/-! ## What a patch can reach -/

def EnvPolicy.openKeys (policy : EnvPolicy) : Set String :=
  match policy with
  | .deny => ∅
  | .merge none => Set.univ
  | .merge (some allow) => {key | key ∈ allow}
  | .replace _ => ∅

def envReach (shellCaps : Option ShellCaps) : Set String :=
  ((shellCaps.map ShellCaps.envPolicy).getD .deny).openKeys

variable {allow : Option (List String)} {key : String}

variable (h : key ∉ (EnvPolicy.merge allow).openKeys)
include h

theorem skipsKey_of_not_open : skipsKey allow key = true := by
  cases allow with
  | none => exact absurd (Set.mem_univ key) h
  | some allow => simpa [skipsKey, EnvPolicy.openKeys] using h

/-- One entry of the patch leaves every closed key alone, whether it names that
key (it is skipped) or another one (the map is updated elsewhere). -/
theorem mergeEntry_frame (env : EnvMap) (entry : String × EnvValue) :
    (mergeEntry allow env entry)[key]? = env[key]? := by
  obtain ⟨name, value⟩ := entry
  unfold mergeEntry
  split
  · rfl
  · rename_i hskip
    have hne : name ≠ key := by
      rintro rfl
      exact hskip (skipsKey_of_not_open h)
    cases value with
    | set value => rw [Std.TreeMap.getElem?_insert, if_neg (by simpa using hne)]
    | unset => rw [Std.TreeMap.getElem?_erase, if_neg (by simpa using hne)]

/-- **The whole patch leaves closed keys alone**, repeated keys included. -/
theorem mergeEnvPatch_frame (env : EnvMap) (envPatch : List (String × EnvValue)) :
    (mergeEnvPatch env envPatch allow)[key]? = env[key]? :=
  List.foldlRecOn envPatch (mergeEntry allow) (motive := fun env' => env'[key]? = env[key]?) rfl
    fun env' henv' entry _ => (mergeEntry_frame h env' entry).trans henv'

omit h

theorem effectiveEnvMap_envPatch {shellCaps : Option ShellCaps} (h : key ∉ envReach shellCaps)
    (req : ShellReq) (requestedUser : Option RequestedUser) (envPatch : List (String × EnvValue)) :
    (effectiveEnvMap shellCaps { req with envPatch := envPatch } requestedUser)[key]? =
      (effectiveEnvMap shellCaps req requestedUser)[key]? := by
  unfold effectiveEnvMap envReach at *
  -- the base reads the account and the terminal only
  have hbase : sanitizedEnvBase requestedUser { req with envPatch := envPatch } =
      sanitizedEnvBase requestedUser req := rfl
  cases hpolicy : shellCaps.map ShellCaps.envPolicy with
  | none => rw [hbase]
  | some policy =>
    rw [hpolicy] at h
    cases policy with
    | deny => rw [hbase]
    | replace base => rfl
    | merge allow =>
      show (mergeEnvPatch _ envPatch allow)[key]? = (mergeEnvPatch _ req.envPatch allow)[key]?
      rw [mergeEnvPatch_frame h, mergeEnvPatch_frame h, hbase]

theorem openKeys_subset_of_narrows {parent child : EnvPolicy}
    (h : envPolicyNarrows parent child = true) : child.openKeys ⊆ parent.openKeys := by
  intro key hkey
  cases child with
  | deny | replace => cases hkey
  | merge allow =>
    cases parent with
    | deny | replace => cases h
    | merge pallow =>
      cases pallow with
      | none => exact Set.mem_univ key
      | some pallow =>
        cases allow with
        | none => cases h
        | some allow =>
          simp only [envPolicyNarrows, List.all_eq_true, List.contains_iff_mem] at h
          exact h key hkey

/-- **The environment policy is a non-interference bound that delegation
respects.** Two requests that differ only in their patch give environments that
agree on every key the policy does not open, and a narrowed policy opens no
further key. -/
theorem effectiveEnv_noninterference :
    (∀ (shellCaps : Option ShellCaps) (requestedUser : Option RequestedUser) (req : ShellReq)
      (envPatch : List (String × EnvValue)), ∀ key ∉ envReach shellCaps, ∀ value,
      (key, value) ∈ effectiveEnv shellCaps req requestedUser ↔
        (key, value) ∈ effectiveEnv shellCaps { req with envPatch := envPatch } requestedUser) ∧
    (∀ parent child : EnvPolicy, envPolicyNarrows parent child = true →
      child.openKeys ⊆ parent.openKeys) := by
  refine ⟨?_, fun parent child => openKeys_subset_of_narrows⟩
  intro shellCaps requestedUser req envPatch key hkey value
  unfold effectiveEnv
  rw [Std.TreeMap.mem_toList_iff_getElem?_eq_some, Std.TreeMap.mem_toList_iff_getElem?_eq_some,
    effectiveEnvMap_envPatch hkey req requestedUser envPatch]

/-! ### Two requests under one open key -/

def langCaps : ShellCaps := ⟨none, true, true, none, .merge (some ["LANG"])⟩

def plainReq (envPatch : List (String × EnvValue)) : ShellReq where
  preamble := ⟨Vector.replicate 16 0, "portl/shell/v1"⟩
  mode := .shell
  argv := none
  envPatch := envPatch
  cwd := none
  pty := none
  user := none

/-- A patch that sets the open key twice and tries to take `PATH` away changes
the one and not the other; and nothing below the policy opens `PATH`. -/
theorem effectiveEnv_noninterference_path :
    effectiveEnv (some langCaps)
        (plainReq [("LANG", .set "C"), ("PATH", .unset), ("LANG", .set "de")]) none =
      [("LANG", "de"), ("PATH", defaultTargetPath)] ∧
    ("PATH", defaultTargetPath) ∈ effectiveEnv (some langCaps) (plainReq []) none ∧
    envPolicyNarrows langCaps.envPolicy (.merge (some [])) = true ∧
    (EnvPolicy.merge (some [])).openKeys ⊆ langCaps.envPolicy.openKeys := by
  have hpath : "PATH" ∉ envReach (some langCaps) := by
    simp [envReach, langCaps, EnvPolicy.openKeys]
  have henv : effectiveEnv (some langCaps)
      (plainReq [("LANG", .set "C"), ("PATH", .unset), ("LANG", .set "de")]) none =
        [("LANG", "de"), ("PATH", defaultTargetPath)] := by decide +kernel
  have hnarrow : envPolicyNarrows langCaps.envPolicy (.merge (some [])) = true := by decide
  refine ⟨henv, ?_, hnarrow, effectiveEnv_noninterference.2 _ _ hnarrow⟩
  refine (effectiveEnv_noninterference.1 (some langCaps) none
    (plainReq [("LANG", .set "C"), ("PATH", .unset), ("LANG", .set "de")]) [] "PATH" hpath
    defaultTargetPath).mp ?_
  rw [henv]
  simp

end Portl
