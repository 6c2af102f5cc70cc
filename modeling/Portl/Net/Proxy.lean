import Portl.Cli.EndpointIds
import Portl.Diagnostics.UrlUserinfo
import Portl.Store.SessionShare

/-!
# The proxy of a process

`proxy.rs`: one decision per process how other hosts are reached. A flag comes first, then
`PORTL_PROXY`, then `portl.toml`, then the variables that other programs read too. An
explicit choice is written back into the environment, where the clients inside the process
and the portl processes it starts find it; programs of the user are given the environment
as it was.

URLs and the matcher of `NO_PROXY` are other people's code. `UrlCrate` has what is called
of them, and what is known of the text of an `http` URL.
-/

namespace Portl

open Checks List

/-! ## Environments -/

/-- `OsString`: text, or bytes that are no text. -/
inductive OsString where
  | unicode (text : String)
  | other (bytes : Bytes)
deriving DecidableEq

def OsString.toStr : OsString → Option String
  | .unicode text => some text
  | .other _ => none

abbrev Environ := AList fun _ : OsString => OsString

namespace Environ

def varOs (env : Environ) (name : String) : Option OsString := env.lookup (.unicode name)

/-- `env_var`: what is no text counts as absent. -/
def var (env : Environ) (name : String) : Option String := (env.varOs name).bind OsString.toStr

def setVar (env : Environ) (name value : String) : Environ :=
  env.insert (.unicode name) (.unicode value)

def removeVar (env : Environ) (name : String) : Environ := env.erase (.unicode name)

def AllUnicode (env : Environ) : Prop :=
  ∀ entry ∈ env.entries, entry.1.toStr.isSome = true ∧ entry.2.toStr.isSome = true

instance instDecidableAllUnicode (env : Environ) : Decidable env.AllUnicode :=
  inferInstanceAs (Decidable (∀ entry ∈ env.entries, _))

def asText (entry : Σ _ : OsString, OsString) : Option (String × String) := do
  return (← entry.1.toStr, ← entry.2.toStr)

/-- `std::env::vars`, which panics at what is no text. -/
def vars (env : Environ) : Option (List (String × String)) :=
  if env.AllUnicode then some (env.entries.filterMap asText) else none

variable {env : Environ} {name value : String} {key : OsString}

theorem lookup_setVar_ne (h : key ≠ .unicode name) :
    (env.setVar name value).lookup key = env.lookup key :=
  AList.lookup_insert_ne h

theorem lookup_removeVar_ne (h : key ≠ .unicode name) :
    (env.removeVar name).lookup key = env.lookup key :=
  AList.lookup_erase_ne h

theorem var_setVar : (env.setVar name value).var name = some value := by
  rw [var, varOs, setVar, AList.lookup_insert]
  rfl

theorem allUnicode_iff : env.AllUnicode ↔ ∀ key value, env.lookup key = some value →
    key.toStr.isSome = true ∧ value.toStr.isSome = true := by
  constructor
  · intro h key value hlookup
    exact h ⟨key, value⟩ (AList.mem_lookup_iff.mp hlookup)
  · rintro h ⟨key, value⟩ hmem
    exact h key value (AList.mem_lookup_iff.mpr hmem)

theorem AllUnicode.setVar (h : env.AllUnicode) (name value : String) :
    (env.setVar name value).AllUnicode := by
  rw [allUnicode_iff] at h ⊢
  intro key value' hlookup
  by_cases hkey : key = .unicode name
  · subst hkey
    rw [Environ.setVar, AList.lookup_insert] at hlookup
    cases hlookup
    exact ⟨rfl, rfl⟩
  · rw [lookup_setVar_ne hkey] at hlookup
    exact h key value' hlookup

theorem AllUnicode.removeVar (h : env.AllUnicode) (name : String) :
    (env.removeVar name).AllUnicode := by
  rw [allUnicode_iff] at h ⊢
  intro key value hlookup
  by_cases hkey : key = .unicode name
  · subst hkey
    rw [Environ.removeVar, AList.lookup_erase] at hlookup
    cases hlookup
  · rw [lookup_removeVar_ne hkey] at hlookup
    exact h key value hlookup

theorem mem_filterMap_asText :
    (name, value) ∈ env.entries.filterMap asText ↔ env.varOs name = some (.unicode value) := by
  rw [mem_filterMap, varOs]
  constructor
  · rintro ⟨⟨key, stored⟩, hmem, htext⟩
    cases key with
    | other bytes => cases htext
    | unicode text =>
      cases stored with
      | other bytes => cases htext
      | unicode stored =>
        cases htext
        exact AList.mem_lookup_iff.mpr hmem
  · intro hlookup
    exact ⟨⟨.unicode name, .unicode value⟩, AList.mem_lookup_iff.mp hlookup, rfl⟩

end Environ

/-! ## URLs -/

structure UrlCrate where
  Url : Type
  parse : String → Except String Url
  asStr : Url → String
  scheme : Url → String
  hostStr : Url → Option String
  username : Url → String
  password : Url → Option String
  /-- the two alphabets of base64 -/
  encodeStandard : String → String
  encodeUrlSafe : String → String
  /-- `http://host/` is a URI, and a matcher with this `NO_PROXY` leaves it alone -/
  spares : String → String → Bool
  parse_asStr : ∀ url, scheme url = "http" → parse (asStr url) = .ok url
  asStr_http : ∀ url, scheme url = "http" → ∃ rest, asStr url = "http://" ++ rest
  asStr_trim : ∀ url, scheme url = "http" → trimString (asStr url) = asStr url

section Proxy

variable (U : UrlCrate)

/-- A validated `http://` proxy URL. -/
structure ProxyUrl where
  url : U.Url
  http : U.scheme url = "http"
  host : (U.hostStr url).any (· ≠ "") = true

variable {U}

def unsupportedScheme (scheme : String) : String :=
  if scheme = "https" then
    "https:// proxies are not supported; use an http:// proxy URL (traffic inside the CONNECT " ++
      "tunnel stays TLS-encrypted)"
  else if scheme ∈ ["socks4", "socks4a", "socks5", "socks5h"] then
    "SOCKS proxies are not supported (iroh's relay client only speaks HTTP CONNECT); use an " ++
      "http:// proxy URL"
  else "unsupported proxy scheme `" ++ scheme ++ "://`; use an http:// proxy URL"

def ProxyUrl.parse (value : String) : Except String (ProxyUrl U) :=
  let value := trimString value
  let withScheme :=
    if (Find.splitAt schemeMark value.toList).isSome then value else "http://" ++ value
  match U.parse withScheme with
  | .error err => .error ("invalid proxy URL: " ++ err)
  | .ok url =>
    if http : U.scheme url = "http" then
      if host : (U.hostStr url).any (· ≠ "") = true then .ok ⟨url, http, host⟩
      else .error "proxy URL has no host"
    else .error (unsupportedScheme (U.scheme url))

/-- `Display`, without the credentials. -/
def ProxyUrl.display (proxy : ProxyUrl U) : String :=
  String.ofList (redactUrlUserinfo (U.asStr proxy.url).toList)

/-- `credentials().is_some()`. -/
def ProxyUrl.hasCredentials (proxy : ProxyUrl U) : Bool :=
  !(U.username proxy.url == "" && (U.password proxy.url).isNone)

def ProxyUrl.relayAuthCaveat (proxy : ProxyUrl U) : Option String :=
  let raw := U.username proxy.url ++ ":" ++ (U.password proxy.url).getD ""
  let mangled := raw.toList.contains '%' || U.encodeStandard raw != U.encodeUrlSafe raw
  if proxy.hasCredentials && mangled then
    some ("proxy " ++ proxy.display ++ ": credentials contain characters that iroh's relay " ++
      "client encodes incorrectly; the proxy may reject relay connections (407). Prefer " ++
      "credentials made of letters and digits")
  else none

/-! ## The decision -/

variable (U)

inductive ProxySetting where
  | direct
  | proxy (url : ProxyUrl U)

inductive ProxySource where
  | flag
  | portlProxyEnv
  | configFile
  | env (name : String)
  | default
deriving DecidableEq

/-- `All` is an explicit proxy for every destination; `Env` goes by the destination. -/
inductive Route where
  | direct
  | all (url : ProxyUrl U)
  | env (https http : Option (ProxyUrl U)) (noProxy : Option String)

structure ProxyConfig where
  source : ProxySource
  route : Route U
  warnings : List String

variable {U}

def ProxySetting.fromStr (value : String) : Except String (ProxySetting U) :=
  let lower := asciiLowerText (trimString value)
  if lower = "" then .error "proxy setting is empty; use an http:// URL, `direct`, or `none`"
  else if lower = "direct" ∨ lower = "none" then .ok .direct
  else (ProxyUrl.parse value).map .proxy

def ProxySource.isExplicit : ProxySource → Bool
  | .flag | .portlProxyEnv | .configFile => true
  | .env _ | .default => false

def ProxySetting.route : ProxySetting U → Route U
  | .direct => .direct
  | .proxy url => .all url

def Route.proxies : Route U → List (ProxyUrl U)
  | .direct => []
  | .all url => [url]
  | .env https http _ => https.toList ++ http.toList

def portlProxyVar : String := "PORTL_PROXY"

def httpsVars : List String := ["HTTPS_PROXY", "https_proxy", "ALL_PROXY", "all_proxy"]

def httpVars : List String := ["HTTP_PROXY", "http_proxy", "ALL_PROXY", "all_proxy"]

def noProxyVars : List String := ["NO_PROXY", "no_proxy"]

def managedVars : List String :=
  ["HTTPS_PROXY", "https_proxy", "HTTP_PROXY", "http_proxy", "ALL_PROXY", "all_proxy", "NO_PROXY",
    "no_proxy", portlProxyVar]

def nonBlank (value : Option String) : Option String := value.filter fun v => trimString v ≠ ""

def pushWarning (warnings : List String) (warning : String) : List String :=
  if warning ∈ warnings then warnings else warnings ++ [warning]

def firstValidEnv (env : String → Option String) :
    List String → List String → Option (String × ProxyUrl U) × List String
  | [], warnings => (none, warnings)
  | name :: names, warnings =>
    match nonBlank (env name) with
    | none => firstValidEnv env names warnings
    | some value =>
      match ProxyUrl.parse value with
      | .ok url => (some (name, url), warnings)
      | .error err =>
        firstValidEnv env names (pushWarning warnings ("ignoring " ++ name ++ ": " ++ err))

/-- The choice of a flag, of `PORTL_PROXY` or of `portl.toml`. An error is shown with what
it is about in front. -/
def explicitSetting (flag : Option (ProxySetting U)) (file : Option String)
    (env : String → Option String) : Except String (Option (ProxySetting U × ProxySource)) :=
  match flag with
  | some setting => .ok (some (setting, .flag))
  | none =>
    match nonBlank (env portlProxyVar) with
    | some value =>
      ((ProxySetting.fromStr value).mapError ("invalid PORTL_PROXY: " ++ ·)).map
        fun setting => some (setting, .portlProxyEnv)
    | none =>
      match file with
      | some value =>
        ((ProxySetting.fromStr value).mapError
          ("invalid portl.toml [network] proxy: " ++ ·)).map
            fun setting => some (setting, .configFile)
      | none => .ok none

def environRoute (env : String → Option String) : ProxySource × Route U × List String :=
  let https := firstValidEnv env httpsVars []
  let http := firstValidEnv env httpVars https.2
  match https.1.or http.1 with
  | none => (.default, .direct, http.2)
  | some (name, _) =>
    (.env name,
      .env (https.1.map Prod.snd) (http.1.map Prod.snd) (nonBlank (noProxyVars.findSome? env)),
      http.2)

def ProxyConfig.resolve (flag : Option (ProxySetting U)) (file : Option String)
    (env : String → Option String) : Except String (ProxyConfig U) := do
  let explicit ← explicitSetting flag file env
  let (source, route, warnings) :=
    match explicit with
    | some (setting, source) => (source, setting.route, [])
    | none => environRoute env
  return ⟨source, route,
    (route.proxies.filterMap ProxyUrl.relayAuthCaveat).foldl pushWarning warnings⟩

def noProxyMatches (list : String) (target : U.Url) : Bool :=
  match U.hostStr target with
  | none => false
  | some host => U.spares list host

/-- `proxy_for`: the proxy for a request, if it does not go directly. -/
def ProxyConfig.proxyFor (cfg : ProxyConfig U) (target : U.Url) : Option (ProxyUrl U) :=
  match cfg.route with
  | .direct => none
  | .all url => some url
  | .env https http noProxy =>
    if noProxy.any fun list => noProxyMatches list target then none
    else if U.scheme target ∈ ["https", "wss"] then https
    else if U.scheme target ∈ ["http", "ws"] then http
    else none

/-! ## The process -/

variable (U)

/-- What `init_process` changes: the environment, `ORIGINAL_ENV` and `PROCESS`. -/
structure ProxyProcess where
  environ : Environ
  originalEnv : Option (List (String × Option OsString))
  process : Option (ProxyConfig U)

variable {U} {env : String → Option String}

/-- A process before `init_process`. -/
def ProxyProcess.start (env : Environ) : ProxyProcess U := ⟨env, none, none⟩

def snapshot (env : Environ) : List (String × Option OsString) :=
  managedVars.map fun name => (name, env.varOs name)

def Route.explicitText : Route U → Option String
  | .all url => some (U.asStr url.url)
  | .direct => none
  | .env _ _ _ => none

def rewriteVar (proxy : Option String) (env : Environ) (name : String) : Environ :=
  match proxy with
  | some value => if name ∈ noProxyVars then env.removeVar name else env.setVar name value
  | none => env.removeVar name

def rewrittenEnviron (proxy : Option String) (env : Environ) : Environ :=
  ((httpsVars ++ httpVars ++ noProxyVars).foldl (rewriteVar proxy) env).setVar portlProxyVar
    (proxy.getD "direct")

/-- `rewrite_env`. The values of before are kept once. -/
def ProxyProcess.rewriteEnv (p : ProxyProcess U) (route : Route U) : ProxyProcess U :=
  { p with
    originalEnv := some (p.originalEnv.getD (snapshot p.environ))
    environ := rewrittenEnviron route.explicitText p.environ }

def ProxyProcess.initProcess (p : ProxyProcess U) (flag : Option (ProxySetting U))
    (file : Option String) : Except String (ProxyConfig U) × ProxyProcess U :=
  match ProxyConfig.resolve flag file p.environ.var with
  | .error err => (.error err, p)
  | .ok cfg =>
    let p := if cfg.source.isExplicit then p.rewriteEnv cfg.route else p
    (.ok cfg, { p with process := some cfg })

/-- A process that started with `env`, after some calls of `init_process`. -/
def ProxyProcess.afterCalls (env : Environ)
    (calls : List (Option (ProxySetting U) × Option String)) : ProxyProcess U :=
  calls.foldl (fun p call => (p.initProcess call.1 call.2).2) (.start env)

def keptText (entry : String × Option OsString) : Option (String × String) := do
  return (entry.1, ← (← entry.2).toStr)

/-- `child_env_vars`; nothing when it panics. -/
def ProxyProcess.childEnvVars (p : ProxyProcess U) : Option (List (String × String)) :=
  match p.originalEnv with
  | none => p.environ.vars
  | some original =>
    p.environ.vars.map fun vars =>
      (vars.filter fun entry => entry.1 ∉ managedVars) ++
        original.filterMap keptText

/-! ## Reading back what was written -/

theorem ProxyUrl.parse_asStr (proxy : ProxyUrl U) : ProxyUrl.parse (U.asStr proxy.url) = .ok proxy := by
  obtain ⟨rest, hrest⟩ := U.asStr_http proxy.url proxy.http
  have hmark : (Find.splitAt schemeMark (U.asStr proxy.url).toList).isSome = true := by
    rw [Option.isSome_iff_ne_none, Ne, Find.splitAt_eq_none, not_not, hrest]
    refine ⟨"http".toList, rest.toList, ?_⟩
    simp [schemeMark]
  rw [ProxyUrl.parse]
  simp only [U.asStr_trim proxy.url proxy.http, hmark, if_true, U.parse_asStr proxy.url proxy.http,
    dif_pos proxy.http, dif_pos proxy.host]

theorem asciiLowerText_append (s t : String) :
    asciiLowerText (s ++ t) = asciiLowerText s ++ asciiLowerText t := by
  rw [asciiLowerText, String.toList_append, map_append, String.ofList_append]
  rfl

theorem ProxySetting.fromStr_asStr (proxy : ProxyUrl U) :
    ProxySetting.fromStr (U.asStr proxy.url) = .ok (.proxy proxy) := by
  obtain ⟨rest, hrest⟩ := U.asStr_http proxy.url proxy.http
  have hlower : ∀ word, Str.startsWith word "http://" = false →
      asciiLowerText (trimString (U.asStr proxy.url)) ≠ word := by
    intro word hword
    rw [U.asStr_trim proxy.url proxy.http, hrest, asciiLowerText_append]
    exact Str.append_ne _ hword
  rw [ProxySetting.fromStr]
  simp only [hlower "" (by decide), hlower "direct" (by decide), hlower "none" (by decide), if_false,
    or_self, ProxyUrl.parse_asStr]
  rfl

theorem fromStr_explicitText (setting : ProxySetting U) :
    nonBlank (some (setting.route.explicitText.getD "direct")) =
      some (setting.route.explicitText.getD "direct") ∧
    ProxySetting.fromStr (setting.route.explicitText.getD "direct") = .ok setting := by
  cases setting with
  | direct =>
    have hblank : nonBlank (some "direct") = some "direct" := by decide
    have hlower : asciiLowerText (trimString "direct") = "direct" := by decide
    refine ⟨hblank, ?_⟩
    show ProxySetting.fromStr "direct" = .ok .direct
    rw [ProxySetting.fromStr]
    simp [hlower, show "direct" ≠ "" by decide]
  | proxy proxy =>
    refine ⟨?_, ProxySetting.fromStr_asStr proxy⟩
    obtain ⟨rest, hrest⟩ := U.asStr_http proxy.url proxy.http
    have hne : U.asStr proxy.url ≠ "" := by
      rw [hrest]
      exact Str.append_ne _ (by decide)
    show nonBlank (some (U.asStr proxy.url)) = some (U.asStr proxy.url)
    simp [nonBlank, U.asStr_trim proxy.url proxy.http, hne]

theorem resolve_portlProxy {value : String} {setting : ProxySetting U}
    (hvalue : nonBlank (env portlProxyVar) = some value)
    (hsetting : ProxySetting.fromStr value = .ok setting) (file : Option String) :
    ∃ cfg, ProxyConfig.resolve none file env = .ok cfg ∧ cfg.route = setting.route := by
  have hexplicit : explicitSetting none file env = .ok (some (setting, .portlProxyEnv)) := by
    simp only [explicitSetting, hvalue, hsetting]
    rfl
  simp only [ProxyConfig.resolve, bind_eq_ok, hexplicit]
  exact ⟨_, ⟨_, rfl, rfl⟩, rfl⟩

theorem environRoute_not_explicit (env : String → Option String) :
    (environRoute (U := U) env).1.isExplicit = false := by
  simp only [environRoute]
  split
  · rfl
  · rfl

theorem resolve_explicit {flag : Option (ProxySetting U)} {file : Option String}
    {cfg : ProxyConfig U} (h : ProxyConfig.resolve flag file env = .ok cfg)
    (hexplicit : cfg.source.isExplicit = true) :
    ∃ setting : ProxySetting U, cfg.route = setting.route := by
  simp only [ProxyConfig.resolve, bind_eq_ok] at h
  obtain ⟨explicit, -, hcfg⟩ := h
  cases explicit with
  | none =>
    cases hcfg
    rw [environRoute_not_explicit] at hexplicit
    cases hexplicit
  | some choice =>
    cases hcfg
    exact ⟨choice.1, rfl⟩

/-! ## What is left alone -/

section Frame

variable {env : Environ} {proxy : Option String} {key : OsString}

theorem lookup_rewriteVar_ne {name : String} (h : key ≠ .unicode name) :
    (rewriteVar proxy env name).lookup key = env.lookup key := by
  cases proxy with
  | none => exact Environ.lookup_removeVar_ne h
  | some value =>
    simp only [rewriteVar]
    split
    · exact Environ.lookup_removeVar_ne h
    · exact Environ.lookup_setVar_ne h

theorem lookup_foldl_rewriteVar (names : List String) (env : Environ)
    (h : ∀ name ∈ names, key ≠ .unicode name) :
    (names.foldl (rewriteVar proxy) env).lookup key = env.lookup key := by
  induction names generalizing env with
  | nil => rfl
  | cons name names ih =>
    rw [forall_mem_cons] at h
    rw [foldl_cons, ih _ h.2, lookup_rewriteVar_ne h.1]

def Unmanaged (key : OsString) : Prop := ∀ name ∈ managedVars, key ≠ .unicode name

theorem lookup_rewrittenEnviron (h : Unmanaged key) :
    (rewrittenEnviron proxy env).lookup key = env.lookup key := by
  have hmanaged : ∀ name ∈ httpsVars ++ httpVars ++ noProxyVars, name ∈ managedVars := by decide
  rw [rewrittenEnviron, Environ.lookup_setVar_ne (h portlProxyVar (by decide))]
  exact lookup_foldl_rewriteVar _ env fun name hname => h name (hmanaged name hname)

theorem allUnicode_rewrittenEnviron (proxy : Option String) (h : env.AllUnicode) :
    (rewrittenEnviron proxy env).AllUnicode := by
  have hround : ∀ (env : Environ) (name : String), env.AllUnicode →
      (rewriteVar proxy env name).AllUnicode := by
    intro env name henv
    cases proxy with
    | none => exact henv.removeVar name
    | some value =>
      simp only [rewriteVar]
      split
      · exact henv.removeVar name
      · exact henv.setVar name value
  have hloop : ∀ (names : List String) (env : Environ), env.AllUnicode →
      (names.foldl (rewriteVar proxy) env).AllUnicode := by
    intro names
    induction names with
    | nil => exact fun _ henv => henv
    | cons name names ih => exact fun env henv => ih _ (hround env name henv)
  exact (hloop _ env h).setVar _ _

end Frame

/-- A process that started with `env`: before the first explicit choice it has it still;
from then on the managed variables are kept aside, and the others are as they were. -/
structure Remembers (env : Environ) (p : ProxyProcess U) : Prop where
  original : p.originalEnv = none ∧ p.environ = env ∨ p.originalEnv = some (snapshot env)
  others : ∀ key, Unmanaged key → p.environ.lookup key = env.lookup key
  unicode : env.AllUnicode → p.environ.AllUnicode

theorem remembers_start (env : Environ) : Remembers env (.start env : ProxyProcess U) :=
  ⟨.inl ⟨rfl, rfl⟩, fun _ _ => rfl, id⟩

variable {env : Environ} {p : ProxyProcess U}

theorem Remembers.rewriteEnv (h : Remembers env p) (route : Route U) :
    Remembers env (p.rewriteEnv route) := by
  refine ⟨.inr ?_, ?_, ?_⟩
  · rcases h.original with ⟨hnone, rfl⟩ | hsome
    · rw [ProxyProcess.rewriteEnv, hnone]
      rfl
    · rw [ProxyProcess.rewriteEnv, hsome]
      rfl
  · intro key hkey
    rw [← h.others key hkey]
    exact lookup_rewrittenEnviron hkey
  · intro henv
    exact allUnicode_rewrittenEnviron _ (h.unicode henv)

theorem Remembers.initProcess (h : Remembers env p) (flag : Option (ProxySetting U))
    (file : Option String) : Remembers env (p.initProcess flag file).2 := by
  rw [ProxyProcess.initProcess]
  split
  · exact h
  · split
    · have hwritten := h.rewriteEnv
      exact ⟨(hwritten _).original, (hwritten _).others, (hwritten _).unicode⟩
    · exact { h with }

theorem mem_filterMap_keptText {name value : String} :
    (name, value) ∈ (snapshot env).filterMap keptText ↔
      name ∈ managedVars ∧ env.varOs name = some (.unicode value) := by
  rw [mem_filterMap]
  constructor
  · rintro ⟨entry, hmem, hkept⟩
    obtain ⟨name', hname', rfl⟩ := mem_map.mp hmem
    cases hvalue : env.varOs name' with
    | none => simp [keptText, hvalue] at hkept
    | some stored =>
      cases stored with
      | other bytes => simp [keptText, hvalue, OsString.toStr] at hkept
      | unicode text =>
        simp only [keptText, hvalue] at hkept
        cases hkept
        exact ⟨hname', hvalue⟩
  · rintro ⟨hname, hvalue⟩
    refine ⟨(name, env.varOs name), mem_map.mpr ⟨name, hname, rfl⟩, ?_⟩
    rw [hvalue]
    rfl

theorem Remembers.childEnvVars (h : Remembers env p) (henv : env.AllUnicode) :
    ∃ vars, p.childEnvVars = some vars ∧
      ∀ name value, (name, value) ∈ vars ↔ env.varOs name = some (.unicode value) := by
  have hvars : p.environ.vars = some (p.environ.entries.filterMap Environ.asText) :=
    if_pos (h.unicode henv)
  rcases h.original with ⟨hnone, rfl⟩ | hsome
  · refine ⟨_, ?_, fun name value => Environ.mem_filterMap_asText⟩
    rw [ProxyProcess.childEnvVars, hnone]
    exact hvars
  · have hchild : p.childEnvVars = some
        (((p.environ.entries.filterMap Environ.asText).filter fun entry => entry.1 ∉ managedVars) ++
          (snapshot env).filterMap keptText) := by
      rw [ProxyProcess.childEnvVars, hsome, hvars]
      rfl
    refine ⟨_, hchild, fun name value => ?_⟩
    rw [mem_append, mem_filter, Environ.mem_filterMap_asText, mem_filterMap_keptText]
    by_cases hmanaged : name ∈ managedVars
    · simp [hmanaged]
    · have hkey : Unmanaged (.unicode name) := by
        rintro other hother heq
        cases heq
        exact hmanaged hother
      rw [Environ.varOs, h.others _ hkey]
      simp [hmanaged, Environ.varOs]

theorem proxyFor_congr {cfg cfg' : ProxyConfig U} (h : cfg'.route = cfg.route) (target : U.Url) :
    cfg'.proxyFor target = cfg.proxyFor target := by
  rw [ProxyConfig.proxyFor, ProxyConfig.proxyFor, h]

theorem remembers_run (env : Environ) (calls : List (Option (ProxySetting U) × Option String)) :
    Remembers env (.afterCalls env calls) := by
  induction calls using List.reverseRecOn with
  | nil => exact remembers_start env
  | append_singleton calls call ih =>
    rw [ProxyProcess.afterCalls, foldl_append]
    exact ih.initProcess call.1 call.2

/-- **A proxy setting survives in the processes that are started.** After an explicit choice
the environment alone, with any `portl.toml`, gives the decision again for every target. And
when all of the environment is text, the programs of the user are given exactly the
variables that were there at the start, however often a choice was made. -/
theorem proxy_survives_child (env : Environ)
    (calls : List (Option (ProxySetting U) × Option String)) (flag : Option (ProxySetting U))
    (file : Option String) (cfg : ProxyConfig U) (p : ProxyProcess U)
    (hinit : (ProxyProcess.afterCalls env calls).initProcess flag file = (.ok cfg, p))
    (hexplicit : cfg.source.isExplicit = true) :
    (∀ file', ∃ cfg' : ProxyConfig U, ProxyConfig.resolve none file' p.environ.var = .ok cfg' ∧
      ∀ target, cfg'.proxyFor target = cfg.proxyFor target) ∧
    (env.AllUnicode → ∃ vars, p.childEnvVars = some vars ∧
      ∀ name value, (name, value) ∈ vars ↔ env.varOs name = some (.unicode value)) := by
  have hremembers := (remembers_run env calls).initProcess flag file
  rw [hinit] at hremembers
  refine ⟨?_, hremembers.childEnvVars⟩
  intro file'
  rw [ProxyProcess.initProcess] at hinit
  split at hinit
  · cases hinit
  · rename_i cfg₀ hresolve
    obtain ⟨hcfg, hp⟩ := Prod.mk.inj hinit
    cases hcfg
    obtain ⟨setting, hroute⟩ := resolve_explicit hresolve hexplicit
    have hvar : p.environ.var portlProxyVar = some (setting.route.explicitText.getD "direct") := by
      rw [← hp, if_pos hexplicit, ← hroute]
      exact Environ.var_setVar
    obtain ⟨hblank, hread⟩ := fromStr_explicitText setting
    have hvalue : nonBlank (p.environ.var portlProxyVar) =
        some (setting.route.explicitText.getD "direct") := by
      rw [hvar]
      exact hblank
    obtain ⟨cfg', hcfg', hroute'⟩ := resolve_portlProxy hvalue hread file'
    exact ⟨cfg', hcfg', proxyFor_congr (hroute'.trans hroute.symm)⟩

end Proxy

def isAuthority (authority : List Char) : Bool :=
  !authority.isEmpty && authority.all fun c => c.isAlphanum || c ∈ ['.', '-', ':']

def authorityUrl (authority : List Char) : String := "http://" ++ String.ofList (authority ++ ['/'])

theorem parse_authorityUrl {authority : List Char} (h : isAuthority authority = true) :
    (((authorityUrl authority).toList.drop 7).takeWhile (· != '/')) = authority := by
  have hslash : ∀ c ∈ authority, (c != '/') = true := by
    intro c hc
    have hchar := List.all_eq_true.mp (Bool.and_eq_true_iff.mp h).2 c hc
    refine bne_iff_ne.mpr ?_
    rintro rfl
    exact absurd hchar (by decide)
  have htext : (authorityUrl authority).toList.drop 7 = authority ++ ['/'] := by
    simp [authorityUrl]
  rw [htext, List.takeWhile_append_of_pos hslash]
  simp

theorem trim_authorityUrl (authority : List Char) :
    trimString (authorityUrl authority) = authorityUrl authority := by
  have hrecord : Lines.trim (authorityUrl authority).toList = (authorityUrl authority).toList := by
    simp [authorityUrl, Lines.trim, Lines.isWhitespace]
  rw [trimString, hrecord, String.ofList_toList]

/-- The URLs of a host, with a port or without, under the root path, which may be left out. -/
def plainUrls : UrlCrate where
  Url := { authority : List Char // isAuthority authority = true }
  parse text :=
    let authority := (text.toList.drop 7).takeWhile (· != '/')
    if h : isAuthority authority = true ∧
        (text = authorityUrl authority ∨ text ++ "/" = authorityUrl authority) then
      .ok ⟨authority, h.1⟩
    else .error "relative URL without a base"
  asStr url := authorityUrl url
  scheme _ := "http"
  hostStr url := some (String.ofList (url.val.takeWhile (· != ':')))
  username _ := ""
  password _ := none
  encodeStandard := id
  encodeUrlSafe := id
  spares _ _ := false
  parse_asStr url _ := by
    have hauthority := parse_authorityUrl url.property
    simp only [hauthority]
    exact dif_pos ⟨url.property, .inl trivial⟩
  asStr_http url _ := ⟨_, rfl⟩
  asStr_trim url _ := trim_authorityUrl url

def officeEnviron : Environ :=
  (((∅ : Environ).setVar "HOME" "/root").setVar "HTTPS_PROXY" "http://office:3128").setVar
    "NO_PROXY" "10.0.0.0/8"

/-- `portl.toml` says `corp:8080`. A child that is not told so decides the same, and a shell
has `HTTPS_PROXY` and `NO_PROXY` as before. -/
theorem proxy_survives_child_office :
    ∃ cfg p, (ProxyProcess.afterCalls (U := plainUrls) officeEnviron []).initProcess none
        (some "corp:8080") = (.ok cfg, p) ∧ cfg.source = .configFile ∧
      (∀ file', ∃ cfg' : ProxyConfig plainUrls,
        ProxyConfig.resolve none file' p.environ.var = .ok cfg' ∧
        ∀ target, cfg'.proxyFor target = cfg.proxyFor target) ∧
      ∃ vars, p.childEnvVars = some vars ∧ ∀ name value, (name, value) ∈ vars ↔
        officeEnviron.varOs name = some (.unicode value) := by
  have hsource : ((ProxyProcess.afterCalls (U := plainUrls) officeEnviron []).initProcess none
      (some "corp:8080")).1.toOption.map ProxyConfig.source = some .configFile := by decide +kernel
  have htext : officeEnviron.AllUnicode := by decide +kernel
  rcases hrun : (ProxyProcess.afterCalls (U := plainUrls) officeEnviron []).initProcess none
      (some "corp:8080") with ⟨err | cfg, p⟩
  · rw [hrun] at hsource
    cases hsource
  · rw [hrun] at hsource
    have hcfg : cfg.source = .configFile := Option.some.inj hsource
    obtain ⟨hagain, hchild⟩ := proxy_survives_child officeEnviron [] none (some "corp:8080") cfg p
      hrun (by rw [hcfg]; rfl)
    exact ⟨cfg, p, rfl, hcfg, hagain, hchild htext⟩

/-- A `NO_PROXY` that is no text is not given to the programs of the user. -/
theorem child_loses_other_no_proxy :
    ∃ (env : Environ) (vars : List (String × String)),
      env.varOs "NO_PROXY" = some (.other [0xff]) ∧
      ((ProxyProcess.start (U := plainUrls) env).initProcess (some .direct) none).2.childEnvVars =
        some vars ∧
      ∀ value, ("NO_PROXY", value) ∉ vars := by
  refine ⟨(∅ : Environ).insert (.unicode "NO_PROXY") (.other [0xff]), [], ?_, ?_, ?_⟩
  · rfl
  · decide +kernel
  · intro value hmem
    cases hmem

end Portl
