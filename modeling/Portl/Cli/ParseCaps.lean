import Portl.Lib.Numeral
import Portl.Caps.Enforce
import Portl.Ticket.Unique

/-!
# Capability specs

`parse_caps` of `commands/mint_root.rs`: the argument of `portl ticket issue`, a list of
entries between commas, is turned into `Capabilities`. The arms of its `match` are read
in two halves: `parseEntry` is what an arm recognises, `CapSlots.add` what it does to the
slots. An error is its outermost message.
-/

namespace Portl

open Checks Sorted List

/-! ## Rules -/

/-- `s.parse::<u16>()`. -/
def parseU16 (s : String) : Option UInt16 :=
  (Numeral.unsigned UInt16.size s.toList).map UInt16.ofNat

def parsePortRule (spec : String) : Except String PortRule := do
  let (hostGlob, ports) ← okOr (Str.rsplitOnce spec ':') "port rule must look like host:min-max"
  let (portMin, portMax) ← okOr (Str.splitOnce ports '-') "port range must look like min-max"
  let portMin ← okOr (parseU16 portMin) "invalid port_min"
  let portMax ← okOr (parseU16 portMax) "invalid port_max"
  failIf (portMin > portMax) "port_min must be <= port_max"
  .ok { hostGlob, portMin, portMax }

def parseUnixPathRule (spec : String) : Except String UnixPathRule := do
  validateUnixPathRule spec false
  .ok { path := spec }

def sortAndValidate {α : Type} (cmp : α → α → Ordering) (same : α → α → Bool) (message : String)
    (rules : List α) : Except String (List α) := do
  match sortBy cmp rules with
  | [] => .ok []
  | left :: rest => do
    walk (fun left right => failIf (same left right = true) message) left rest
    .ok (left :: rest)

def sortAndValidateRules (rules : List PortRule) : Except String (List PortRule) :=
  sortAndValidate portruleOrd
    (fun left right => decide (left.hostGlob = right.hostGlob) &&
      decide (left.portMin = right.portMin) && decide (left.portMax = right.portMax))
    "duplicate port rule" rules

def sortAndValidateUnixRules (rules : List UnixPathRule) (name : String) :
    Except String (List UnixPathRule) :=
  sortAndValidate (fun left right => compare left.path right.path)
    (fun left right => decide (left.path = right.path)) ("duplicate " ++ name ++ " rule") rules

/-! ## Entries -/

def defaultShellCaps : ShellCaps :=
  { userAllowlist := none, ptyAllowed := true, execAllowed := true, commandAllowlist := none,
    envPolicy := .deny }

def execShellCaps : ShellCaps :=
  { userAllowlist := none, ptyAllowed := false, execAllowed := true, commandAllowlist := none,
    envPolicy := .deny }

def allCaps : Capabilities :=
  { presence := 0b01100111, shell := some defaultShellCaps, tcp := some [⟨"*", 1, 65535⟩],
    udp := some [⟨"*", 1, 65535⟩], fs := none, vpn := none, metaCaps := some ⟨true, true⟩,
    unix := some ⟨[⟨"*"⟩], [⟨"*"⟩]⟩ }

inductive CapEntry where
  | shell
  | exec
  | dev
  | metaPing
  | metaInfo
  | tcp (rule : PortRule)
  | udp (rule : PortRule)
  | unixConnect (rule : UnixPathRule)
  | unixListen (rule : UnixPathRule)
deriving DecidableEq

def unsupportedCap (entry : String) : String :=
  "unsupported cap '" ++ entry ++ "'\n" ++
    "valid caps: shell, exec, session, dev, meta:ping, meta:info, " ++
    "tcp:<host>:<port>[-<port>], udp:<host>:<port>[-<port>], " ++
    "unix:connect:<path>, unix:listen:<path>, all\n" ++
    "run `portl ticket caps` for the full reference"

def parseRuleEntry (entry : String) : Except String CapEntry :=
  match Str.stripPrefix entry "tcp:" with
  | some rest => do .ok (.tcp (← parsePortRule rest))
  | none =>
  match Str.stripPrefix entry "udp:" with
  | some rest => do .ok (.udp (← parsePortRule rest))
  | none =>
  match Str.stripPrefix entry "unix:connect:" with
  | some rest => do .ok (.unixConnect (← parseUnixPathRule rest))
  | none =>
  match Str.stripPrefix entry "unix:listen:" with
  | some rest => do .ok (.unixListen (← parseUnixPathRule rest))
  | none => .error (unsupportedCap entry)

/-- The patterns of the `match`. -/
def parseEntry (entry : String) : Except String CapEntry :=
  if entry = "shell" ∨ entry = "session" then .ok .shell
  else if entry = "exec" then .ok .exec
  else if entry = "dev" then .ok .dev
  else if entry = "meta:ping" then .ok .metaPing
  else if entry = "meta:info" then .ok .metaInfo
  else parseRuleEntry entry

/-! ## Slots -/

/-- The local variables of `parse_caps`. -/
structure CapSlots where
  shell : Option ShellCaps := none
  tcp : List PortRule := []
  udp : List PortRule := []
  unixConnect : List UnixPathRule := []
  unixListen : List UnixPathRule := []
  metaCaps : Option MetaCaps := none
deriving DecidableEq

/-- The bodies of the arms. `dev` has none: it returns. -/
def CapSlots.add (slots : CapSlots) (entry : CapEntry) : CapSlots :=
  match entry with
  | .shell => { slots with shell := some defaultShellCaps }
  | .exec => { slots with shell := some execShellCaps }
  | .dev => slots
  | .metaPing =>
    { slots with metaCaps := some { slots.metaCaps.getD ⟨false, false⟩ with ping := true } }
  | .metaInfo =>
    { slots with metaCaps := some { slots.metaCaps.getD ⟨false, false⟩ with info := true } }
  | .tcp rule => { slots with tcp := slots.tcp ++ [rule] }
  | .udp rule => { slots with udp := slots.udp ++ [rule] }
  | .unixConnect rule => { slots with unixConnect := slots.unixConnect ++ [rule] }
  | .unixListen rule => { slots with unixListen := slots.unixListen ++ [rule] }

/-- The loop over the entries; `none` is the early return of `dev`. -/
def capLoop (slots : CapSlots) : List String → Except String (Option CapSlots)
  | [] => .ok (some slots)
  | entry :: rest => do
    let parsed ← parseEntry entry
    if parsed = .dev then .ok none else capLoop (slots.add parsed) rest

def CapSlots.sorted (slots : CapSlots) : Except String CapSlots := do
  let tcp ← sortAndValidateRules slots.tcp
  let udp ← sortAndValidateRules slots.udp
  let unixConnect ← sortAndValidateUnixRules slots.unixConnect "unix:connect"
  let unixListen ← sortAndValidateUnixRules slots.unixListen "unix:listen"
  .ok { slots with tcp, udp, unixConnect, unixListen }

/-- `(!rules.is_empty()).then_some(rules)`. -/
def someIfNonempty {α : Type} (rules : List α) : Option (List α) :=
  if rules.isEmpty then none else some rules

def presenceBits (shell tcp udp metaCaps unix : Bool) : UInt8 :=
  shell.toUInt8 ||| (tcp.toUInt8 <<< 1) ||| (udp.toUInt8 <<< 2) ||| (metaCaps.toUInt8 <<< 5) |||
    (unix.toUInt8 <<< 6)

def CapSlots.caps (slots : CapSlots) : Capabilities :=
  let tcp := someIfNonempty slots.tcp
  let udp := someIfNonempty slots.udp
  let unix :=
    if !slots.unixConnect.isEmpty || !slots.unixListen.isEmpty then
      some { connect := slots.unixConnect, listen := slots.unixListen : UnixCaps }
    else none
  { presence := presenceBits slots.shell.isSome tcp.isSome udp.isSome slots.metaCaps.isSome unix.isSome,
    shell := slots.shell, tcp, udp, fs := none, vpn := none, metaCaps := slots.metaCaps, unix }

/-- `spec.split(',').filter(|entry| !entry.is_empty())`. -/
def capEntries (spec : String) : List String :=
  (Str.split spec ',').filter fun entry => !entry.isEmpty

/-- `parse_caps` after the test for `all`. -/
def parseCapEntries (entries : List String) : Except String Capabilities := do
  match ← capLoop {} entries with
  | none => .ok allCaps
  | some slots =>
    let slots ← slots.sorted
    failIf (slots.caps.presence = 0) "at least one capability is required"
    .ok slots.caps

def parseCaps (spec : String) : Except String Capabilities :=
  if spec = "all" then .ok allCaps else parseCapEntries (capEntries spec)

example : parseCaps "unix:connect:/run/agent.sock,unix:listen:/tmp/portl-*" = .ok
    { presence := 0b01000000, shell := none, tcp := none, udp := none, fs := none, vpn := none,
      metaCaps := none, unix := some ⟨[⟨"/run/agent.sock"⟩], [⟨"/tmp/portl-*"⟩]⟩ } := by
  decide +kernel

/-! ## Rules that are accepted -/

variable {port : UInt16} {s spec : String}

theorem parseU16_eq_some :
    parseU16 s = some port ↔ Numeral.unsigned UInt16.size s.toList = some port.toNat := by
  unfold parseU16
  rw [Option.map_eq_some_iff]
  constructor
  · rintro ⟨n, hn, rfl⟩
    have hlt := (Numeral.unsigned_eq_some.mp hn).2
    rw [hn, UInt16.toNat_ofNat_of_lt' hlt]
  · intro h
    exact ⟨_, h, UInt16.ofNat_toNat⟩

theorem not_mem_of_parseU16 (h : parseU16 s = some port) {c : Char} (hdigit : c.isDigit = false)
    (hsign : c ≠ '+') : c ∉ s.toList := by
  intro hc
  rcases Numeral.mem_of_unsigned (parseU16_eq_some.mp h) hc with hd | rfl
  · rw [hdigit] at hd
    cases hd
  · exact hsign rfl

/-- A port rule is a host, a colon and a range; colons and dashes before the last colon
belong to the host. -/
theorem parsePortRule_eq_ok {rule : PortRule} :
    parsePortRule spec = .ok rule ↔
      ∃ low high, spec = rule.hostGlob ++ ":" ++ low ++ "-" ++ high ∧
        parseU16 low = some rule.portMin ∧ parseU16 high = some rule.portMax ∧
        rule.portMin ≤ rule.portMax := by
  simp only [parsePortRule, bind_eq_ok, okOr_eq_ok, failIf_eq_ok, exists_const, Prod.exists,
    Str.rsplitOnce_eq_some, Str.splitOnce_eq_some]
  constructor
  · rintro ⟨host, ports, ⟨hspec, -⟩, low, high, ⟨hports, -⟩, min, hlow, max, hhigh, hle, hrule⟩
    cases hrule
    refine ⟨low, high, ?_, hlow, hhigh, UInt16.not_lt.mp hle⟩
    apply String.toList_inj.mp
    rw [hspec, hports]
    simp
  · rintro ⟨low, high, rfl, hlow, hhigh, hle⟩
    have hcolon : ':' ∉ (low ++ "-" ++ high).toList := by
      have hl := not_mem_of_parseU16 hlow (c := ':') (by decide) (by decide)
      have hh := not_mem_of_parseU16 hhigh (c := ':') (by decide) (by decide)
      simp [hl, hh]
    have hdash : '-' ∉ low.toList := not_mem_of_parseU16 hlow (by decide) (by decide)
    refine ⟨rule.hostGlob, low ++ "-" ++ high, ⟨by simp, hcolon⟩, low, high, ⟨by simp, hdash⟩, _, hlow,
      _, hhigh, UInt16.not_lt.mpr hle, rfl⟩

theorem parseUnixPathRule_eq_ok {rule : UnixPathRule} :
    parseUnixPathRule spec = .ok rule ↔
      validateUnixPathRule spec false = .ok () ∧ rule = ⟨spec⟩ := by
  simp only [parseUnixPathRule, bind_eq_ok, exists_unit_ok, Except.ok.injEq]
  rw [@eq_comm _ rule]

/-! ## Sorting -/

theorem sortAndValidate_eq_ok {α : Type} {cmp : α → α → Ordering} [Std.TransCmp cmp]
    {same : α → α → Bool} (hsame : ∀ a b, same a b = true ↔ cmp a b = .eq) {message : String}
    {rules out : List α} :
    sortAndValidate cmp same message rules = .ok out ↔ out.Perm rules ∧ Increasing cmp out := by
  rw [← sortBy_spec]
  unfold sortAndValidate
  cases sortBy cmp rules with
  | nil =>
      constructor
      · rintro ⟨⟩
        exact ⟨rfl, .nil⟩
      · rintro ⟨rfl, -⟩
        rfl
  | cons left rest =>
    simp only [bind_eq_ok, exists_const, walk_eq_ok, failIf_eq_ok, hsame, Except.ok.injEq]
    constructor
    · rintro ⟨hchain, rfl⟩
      exact ⟨rfl, hchain⟩
    · rintro ⟨rfl, hchain⟩
      exact ⟨hchain, rfl⟩

theorem sortAndValidateRules_eq_ok {rules out : List PortRule} :
    sortAndValidateRules rules = .ok out ↔ out.Perm rules ∧ Increasing portruleOrd out := by
  apply sortAndValidate_eq_ok
  intro a b
  simp [portruleOrd, Ordering.then_eq_eq, Std.LawfulEqCmp.compare_eq_iff_eq]

theorem sortAndValidateUnixRules_eq_ok {rules out : List UnixPathRule} {name : String} :
    sortAndValidateUnixRules rules name = .ok out ↔
      out.Perm rules ∧ Increasing (fun a b : UnixPathRule => compare a.path b.path) out := by
  apply sortAndValidate_eq_ok
  intro a b
  rw [decide_eq_true_eq, Std.LawfulEqCmp.compare_eq_iff_eq]

/-- The slots after the sorts: each list in its one increasing order. -/
structure CapSlots.Sorts (slots out : CapSlots) : Prop where
  shell : out.shell = slots.shell
  tcp : out.tcp.Perm slots.tcp ∧ Increasing portruleOrd out.tcp
  udp : out.udp.Perm slots.udp ∧ Increasing portruleOrd out.udp
  unixConnect : out.unixConnect.Perm slots.unixConnect ∧
    Increasing (fun a b : UnixPathRule => compare a.path b.path) out.unixConnect
  unixListen : out.unixListen.Perm slots.unixListen ∧
    Increasing (fun a b : UnixPathRule => compare a.path b.path) out.unixListen
  metaCaps : out.metaCaps = slots.metaCaps

variable {slots out : CapSlots} {entry : String} {parsed : CapEntry} {entries : List String}

theorem CapSlots.sorted_eq_ok : slots.sorted = .ok out ↔ slots.Sorts out := by
  simp only [CapSlots.sorted, bind_eq_ok, sortAndValidateRules_eq_ok, sortAndValidateUnixRules_eq_ok,
    Except.ok.injEq]
  constructor
  · rintro ⟨tcp, htcp, udp, hudp, connect, hconnect, listen, hlisten, rfl⟩
    exact ⟨rfl, htcp, hudp, hconnect, hlisten, rfl⟩
  · intro h
    refine ⟨_, h.tcp, _, h.udp, _, h.unixConnect, _, h.unixListen, ?_⟩
    rw [← h.shell, ← h.metaCaps]

/-! ## Entries -/

inductive Reads : String → CapEntry → Prop
  | shell : Reads "shell" .shell
  | session : Reads "session" .shell
  | exec : Reads "exec" .exec
  | dev : Reads "dev" .dev
  | metaPing : Reads "meta:ping" .metaPing
  | metaInfo : Reads "meta:info" .metaInfo
  | tcp {rest : String} {rule : PortRule} (h : parsePortRule rest = .ok rule) :
      Reads ("tcp:" ++ rest) (.tcp rule)
  | udp {rest : String} {rule : PortRule} (h : parsePortRule rest = .ok rule) :
      Reads ("udp:" ++ rest) (.udp rule)
  | unixConnect {rest : String} {rule : UnixPathRule} (h : parseUnixPathRule rest = .ok rule) :
      Reads ("unix:connect:" ++ rest) (.unixConnect rule)
  | unixListen {rest : String} {rule : UnixPathRule} (h : parseUnixPathRule rest = .ok rule) :
      Reads ("unix:listen:" ++ rest) (.unixListen rule)

theorem reads_of_parseRuleEntry (h : parseRuleEntry entry = .ok parsed) : Reads entry parsed := by
  unfold parseRuleEntry at h
  split at h
  · next rest hstrip =>
      obtain ⟨rule, hrule, hparsed⟩ := bind_eq_ok.mp h
      cases hparsed
      exact Str.stripPrefix_eq_some.mp hstrip ▸ .tcp hrule
  split at h
  · next rest hstrip =>
      obtain ⟨rule, hrule, hparsed⟩ := bind_eq_ok.mp h
      cases hparsed
      exact Str.stripPrefix_eq_some.mp hstrip ▸ .udp hrule
  split at h
  · next rest hstrip =>
      obtain ⟨rule, hrule, hparsed⟩ := bind_eq_ok.mp h
      cases hparsed
      exact Str.stripPrefix_eq_some.mp hstrip ▸ .unixConnect hrule
  split at h
  · next rest hstrip =>
      obtain ⟨rule, hrule, hparsed⟩ := bind_eq_ok.mp h
      cases hparsed
      exact Str.stripPrefix_eq_some.mp hstrip ▸ .unixListen hrule
  · cases h

theorem parseEntry_scheme {scheme rest : String}
    (h : ∀ word ∈ ["shell", "session", "exec", "dev", "meta:ping", "meta:info"],
      Str.startsWith word scheme = false) :
    parseEntry (scheme ++ rest) = parseRuleEntry (scheme ++ rest) := by
  simp only [forall_mem_cons] at h
  obtain ⟨hshell, hsession, hexec, hdev, hping, hinfo, -⟩ := h
  unfold parseEntry
  rw [if_neg (not_or.mpr ⟨Str.append_ne _ hshell, Str.append_ne _ hsession⟩),
    if_neg (Str.append_ne _ hexec), if_neg (Str.append_ne _ hdev), if_neg (Str.append_ne _ hping),
    if_neg (Str.append_ne _ hinfo)]

theorem parseEntry_tcp (rest : String) :
    parseEntry ("tcp:" ++ rest) = (do .ok (.tcp (← parsePortRule rest))) := by
  rw [parseEntry_scheme (by decide), parseRuleEntry, Str.stripPrefix_eq_some.mpr rfl]

theorem parseEntry_udp (rest : String) :
    parseEntry ("udp:" ++ rest) = (do .ok (.udp (← parsePortRule rest))) := by
  have htcp : Str.stripPrefix ("udp:" ++ rest) "tcp:" = none :=
    Str.stripPrefix_append_eq_none rest (by decide) (by decide)
  rw [parseEntry_scheme (by decide), parseRuleEntry, htcp]
  simp [Str.stripPrefix_eq_some.mpr rfl]

theorem parseEntry_unixConnect (rest : String) :
    parseEntry ("unix:connect:" ++ rest) = (do .ok (.unixConnect (← parseUnixPathRule rest))) := by
  have htcp : Str.stripPrefix ("unix:connect:" ++ rest) "tcp:" = none :=
    Str.stripPrefix_append_eq_none rest (by decide) (by decide)
  have hudp : Str.stripPrefix ("unix:connect:" ++ rest) "udp:" = none :=
    Str.stripPrefix_append_eq_none rest (by decide) (by decide)
  rw [parseEntry_scheme (by decide), parseRuleEntry, htcp, hudp]
  simp [Str.stripPrefix_eq_some.mpr rfl]

theorem parseEntry_unixListen (rest : String) :
    parseEntry ("unix:listen:" ++ rest) = (do .ok (.unixListen (← parseUnixPathRule rest))) := by
  have htcp : Str.stripPrefix ("unix:listen:" ++ rest) "tcp:" = none :=
    Str.stripPrefix_append_eq_none rest (by decide) (by decide)
  have hudp : Str.stripPrefix ("unix:listen:" ++ rest) "udp:" = none :=
    Str.stripPrefix_append_eq_none rest (by decide) (by decide)
  have hconnect : Str.stripPrefix ("unix:listen:" ++ rest) "unix:connect:" = none :=
    Str.stripPrefix_append_eq_none rest (by decide) (by decide)
  rw [parseEntry_scheme (by decide), parseRuleEntry, htcp, hudp, hconnect]
  simp [Str.stripPrefix_eq_some.mpr rfl]

theorem parseEntry_eq_ok : parseEntry entry = .ok parsed ↔ Reads entry parsed := by
  constructor
  · intro h
    unfold parseEntry at h
    split_ifs at h with hshell hexec hdev hping hinfo
    · cases h
      rcases hshell with rfl | rfl
      · exact .shell
      · exact .session
    · cases h
      exact hexec ▸ .exec
    · cases h
      exact hdev ▸ .dev
    · cases h
      exact hping ▸ .metaPing
    · cases h
      exact hinfo ▸ .metaInfo
    · exact reads_of_parseRuleEntry h
  · intro h
    cases h with
    | tcp h => rw [parseEntry_tcp, bind_eq_ok]; exact ⟨_, h, rfl⟩
    | udp h => rw [parseEntry_udp, bind_eq_ok]; exact ⟨_, h, rfl⟩
    | unixConnect h => rw [parseEntry_unixConnect, bind_eq_ok]; exact ⟨_, h, rfl⟩
    | unixListen h => rw [parseEntry_unixListen, bind_eq_ok]; exact ⟨_, h, rfl⟩
    | _ => rfl

theorem parseEntry_eq_dev : parseEntry entry = .ok .dev ↔ entry = "dev" := by
  rw [parseEntry_eq_ok]
  constructor
  · rintro ⟨⟩
    rfl
  · rintro rfl
    exact .dev

theorem parseEntry_eq_exec : parseEntry entry = .ok .exec ↔ entry = "exec" := by
  rw [parseEntry_eq_ok]
  constructor
  · rintro ⟨⟩
    rfl
  · rintro rfl
    exact .exec

theorem parseEntry_eq_shell :
    parseEntry entry = .ok .shell ↔ entry = "shell" ∨ entry = "session" := by
  rw [parseEntry_eq_ok]
  constructor
  · rintro ⟨⟩
    · exact .inl rfl
    · exact .inr rfl
  · rintro (rfl | rfl)
    · exact .shell
    · exact .session

theorem parseEntry_all (parsed : CapEntry) : parseEntry "all" ≠ .ok parsed := by
  intro h
  have hrefused : (parseEntry "all").isOk = false := by decide
  rw [h] at hrefused
  cases hrefused

/-! ## The loop -/

theorem capLoop_eq_some :
    capLoop slots entries = .ok (some out) ↔
      ∃ parsed, List.Forall₂ (fun entry p => parseEntry entry = .ok p) entries parsed ∧
        .dev ∉ parsed ∧ out = parsed.foldl CapSlots.add slots := by
  induction entries generalizing slots with
  | nil =>
    simp only [capLoop, Except.ok.injEq, Option.some.injEq, forall₂_nil_left_iff]
    constructor
    · rintro rfl
      exact ⟨[], rfl, not_mem_nil, rfl⟩
    · rintro ⟨parsed, rfl, -, rfl⟩
      rfl
  | cons entry rest ih =>
    simp only [capLoop, bind_eq_ok, forall₂_cons_left_iff]
    constructor
    · rintro ⟨first, hfirst, hrest⟩
      split_ifs at hrest with hdev
      · cases hrest
      · obtain ⟨parsed, hparsed, hmem, rfl⟩ := ih.mp hrest
        refine ⟨first :: parsed, ⟨first, parsed, hfirst, hparsed, rfl⟩, ?_, rfl⟩
        rw [mem_cons, not_or]
        exact ⟨Ne.symm hdev, hmem⟩
    · rintro ⟨_, ⟨first, parsed, hfirst, hparsed, rfl⟩, hmem, rfl⟩
      rw [mem_cons, not_or] at hmem
      refine ⟨first, hfirst, ?_⟩
      rw [if_neg (Ne.symm hmem.1)]
      exact ih.mpr ⟨parsed, hparsed, hmem.2, rfl⟩

theorem capLoop_of_dev (hdev : "dev" ∈ entries)
    (hread : ∀ entry ∈ entries, ∃ parsed, parseEntry entry = .ok parsed) :
    capLoop slots entries = .ok none := by
  induction entries generalizing slots with
  | nil => cases hdev
  | cons entry rest ih =>
    rw [forall_mem_cons] at hread
    obtain ⟨⟨parsed, hparsed⟩, hrest⟩ := hread
    simp only [capLoop, bind_eq_ok]
    refine ⟨parsed, hparsed, ?_⟩
    split_ifs with hp
    · rfl
    · rcases mem_cons.mp hdev with heq | hmem
      · have hparsedDev := parseEntry_eq_dev.mpr heq.symm
        rw [hparsed, Except.ok.injEq] at hparsedDev
        exact absurd hparsedDev hp
      · exact ih hmem hrest

theorem mem_of_capLoop_none (h : capLoop slots entries = .ok none) : "dev" ∈ entries := by
  induction entries generalizing slots with
  | nil => cases h
  | cons entry rest ih =>
    simp only [capLoop, bind_eq_ok] at h
    obtain ⟨parsed, hparsed, hrest⟩ := h
    split_ifs at hrest with hdev
    · rw [hdev] at hparsed
      rw [parseEntry_eq_dev.mp hparsed]
      exact mem_cons_self
    · exact mem_cons_of_mem _ (ih hrest)

/-! ## What is parsed -/

theorem parseCapEntries_eq_ok {caps : Capabilities} :
    parseCapEntries entries = .ok caps ↔
      (capLoop {} entries = .ok none ∧ caps = allCaps) ∨
        ∃ slots out, capLoop {} entries = .ok (some slots) ∧ slots.Sorts out ∧
          out.caps.presence ≠ 0 ∧ caps = out.caps := by
  simp only [parseCapEntries, bind_eq_ok]
  constructor
  · rintro ⟨_ | slots, hloop, hcaps⟩
    · cases hcaps
      exact .inl ⟨hloop, rfl⟩
    · simp only [bind_eq_ok, CapSlots.sorted_eq_ok, failIf_eq_ok, exists_const] at hcaps
      obtain ⟨out, hsorts, hpresence, ⟨⟩⟩ := hcaps
      exact .inr ⟨slots, out, hloop, hsorts, hpresence, rfl⟩
  · rintro (⟨hloop, rfl⟩ | ⟨slots, out, hloop, hsorts, hpresence, rfl⟩)
    · exact ⟨none, hloop, rfl⟩
    · refine ⟨some slots, hloop, ?_⟩
      simp only [bind_eq_ok, CapSlots.sorted_eq_ok, failIf_eq_ok, exists_const]
      exact ⟨out, hsorts, hpresence, rfl⟩

def CapEntry.caps (entry : CapEntry) : Capabilities :=
  if entry = .dev then allCaps else (({} : CapSlots).add entry).caps

theorem CapSlots.sorts_add (entry : CapEntry) :
    (({} : CapSlots).add entry).Sorts (({} : CapSlots).add entry) := by
  have hnil : ∀ {α : Type} {cmp : α → α → Ordering}, ([] : List α).Perm [] ∧ Increasing cmp [] :=
    ⟨.refl _, .nil⟩
  have hone : ∀ {α : Type} {cmp : α → α → Ordering} (a : α), [a].Perm [a] ∧ Increasing cmp [a] :=
    fun a => ⟨.refl _, .singleton a⟩
  cases entry with
  | tcp rule => exact ⟨rfl, hone rule, hnil, hnil, hnil, rfl⟩
  | udp rule => exact ⟨rfl, hnil, hone rule, hnil, hnil, rfl⟩
  | unixConnect rule => exact ⟨rfl, hnil, hnil, hone rule, hnil, rfl⟩
  | unixListen rule => exact ⟨rfl, hnil, hnil, hnil, hone rule, rfl⟩
  | _ => exact ⟨rfl, hnil, hnil, hnil, hnil, rfl⟩

theorem CapSlots.presence_add {entry : CapEntry} (h : entry ≠ .dev) :
    (({} : CapSlots).add entry).caps.presence ≠ 0 := by
  have hbits : ∀ shell tcp udp metaCaps unix : Bool,
      (shell || tcp || udp || metaCaps || unix) = true →
        presenceBits shell tcp udp metaCaps unix ≠ 0 := by
    decide
  cases entry with
  | dev => exact absurd rfl h
  | _ => exact hbits _ _ _ _ _ rfl

theorem isEmpty_eq_false (h : entry ≠ "") : entry.isEmpty = false :=
  Bool.eq_false_iff.mpr fun hempty => h (String.isEmpty_iff.mp hempty)

theorem capEntries_of_entry (hcomma : ',' ∉ entry.toList) (hne : entry ≠ "") :
    capEntries entry = [entry] := by
  have hsplit : Str.split entry ',' = [entry] := by
    rw [Str.split, List.splitOn_eq_singleton hcomma, map_singleton, String.ofList_toList]
  rw [capEntries, hsplit, filter_singleton, isEmpty_eq_false hne]
  rfl

theorem parseCapEntries_single (h : parseEntry entry = .ok parsed) :
    parseCapEntries [entry] = .ok parsed.caps := by
  have hloop : capLoop {} [entry] =
      if parsed = .dev then .ok none else .ok (some (({} : CapSlots).add parsed)) := by
    rw [capLoop, h]
    rfl
  apply parseCapEntries_eq_ok.mpr
  unfold CapEntry.caps
  split_ifs at hloop ⊢ with hdev
  · exact .inl ⟨hloop, rfl⟩
  · exact .inr ⟨_, _, hloop, CapSlots.sorts_add parsed, CapSlots.presence_add hdev, rfl⟩

/-- **One entry.** A spec without a comma is `all` or a single entry. -/
theorem parseCaps_entry (hcomma : ',' ∉ entry.toList) (hne : entry ≠ "") {caps : Capabilities} :
    parseCaps entry = .ok caps ↔
      (entry = "all" ∧ caps = allCaps) ∨ ∃ parsed, parseEntry entry = .ok parsed ∧ caps = parsed.caps := by
  unfold parseCaps
  split_ifs with hall
  · subst hall
    constructor
    · rintro ⟨⟩
      exact .inl ⟨rfl, rfl⟩
    · rintro (⟨-, rfl⟩ | ⟨parsed, hparsed, -⟩)
      · rfl
      · exact absurd hparsed (parseEntry_all parsed)
  · rw [capEntries_of_entry hcomma hne]
    simp only [hall, false_and, false_or]
    constructor
    · intro hcaps
      cases hparsed : parseEntry entry with
      | error message =>
        have hloop : parseCapEntries [entry] = .error message := by
          rw [parseCapEntries, capLoop, hparsed]
          rfl
        rw [hloop] at hcaps
        cases hcaps
      | ok parsed =>
        rw [parseCapEntries_single hparsed, Except.ok.injEq] at hcaps
        exact ⟨parsed, rfl, hcaps.symm⟩
    · rintro ⟨parsed, hparsed, rfl⟩
      exact parseCapEntries_single hparsed

end Portl
