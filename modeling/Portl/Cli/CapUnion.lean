import Portl.Cli.ParseCaps

/-!
# A spec and its entries

"Caps are comma-separated. Any combination can be granted in one ticket": read that way, a
spec means the union of its entries, in any order. `parse_caps` has two exceptions. The
entries for a shell share one slot, and the last one written wins; and `dev` returns, so
that what stands after it is not even read.
-/

namespace Portl

open Checks Cover Sorted List

/-! ## Permission -/

inductive CapRequest where
  | shell (req : ShellReq)
  | tcp (req : TcpReq)
  | udp (bind : UdpBind)
  | unix (req : UnixReq)

def Permits (caps : Capabilities) : CapRequest → Prop
  | .shell req => shellPermits caps req = .ok ()
  | .tcp req => tcpPermits caps req = .ok ()
  | .udp bind => udpPermits caps bind = .ok ()
  | .unix req => unixPermits caps req = .ok ()

def ShellAdmits (shellCaps : ShellCaps) (req : ShellReq) : Prop :=
  modePermits shellCaps req.mode = .ok () ∧ (req.pty.isSome = true → shellCaps.ptyAllowed = true) ∧
    userPermits shellCaps req.user = .ok () ∧ commandPermits shellCaps req = .ok ()

def CapSlots.Permits (slots : CapSlots) : CapRequest → Prop
  | .shell req => ∃ shellCaps, slots.shell = some shellCaps ∧ ShellAdmits shellCaps req
  | .tcp req => ∃ rule ∈ slots.tcp, ruleAdmits hostMatches rule (req.host, req.port, req.port) = true
  | .udp bind => ∃ rule ∈ slots.udp, ruleAdmits hostMatches rule
      (bind.targetHost, bind.targetPortRange.1, bind.targetPortRange.2) = true
  | .unix ⟨_, .connect path⟩ => ∃ rule ∈ slots.unixConnect, rule.matchesPath path = true
  | .unix ⟨_, .listen path _ _⟩ => ∃ rule ∈ slots.unixListen, rule.matchesPath path = true

theorem exists_someIfNonempty {α : Type} {rules : List α} {P : α → Prop} :
    (∃ some', someIfNonempty rules = some some' ∧ ∃ rule ∈ some', P rule) ↔ ∃ rule ∈ rules, P rule := by
  unfold someIfNonempty
  cases rules with
  | nil | cons => simp

theorem CapSlots.permits_caps (slots : CapSlots) (request : CapRequest) :
    Portl.Permits slots.caps request ↔ slots.Permits request := by
  cases request with
  | shell req => exact shellPermits_eq_ok
  | tcp req =>
    simp only [Portl.Permits, tcpPermits_eq_ok, allows_iff]
    exact exists_someIfNonempty
  | udp bind =>
    simp only [Portl.Permits, udpPermits_eq_ok, allows_iff]
    exact exists_someIfNonempty
  | unix req =>
    obtain ⟨preamble, op⟩ := req
    have hsome : ∀ rule : UnixPathRule, rule ∈ slots.unixConnect ∨ rule ∈ slots.unixListen →
        slots.caps.unix = some ⟨slots.unixConnect, slots.unixListen⟩ := by
      intro rule hrule
      refine if_pos ?_
      rcases hrule with hconnect | hlisten
      · simp [ne_nil_of_mem hconnect]
      · simp [ne_nil_of_mem hlisten]
    have hunix : ∀ unixCaps, slots.caps.unix = some unixCaps →
        unixCaps = ⟨slots.unixConnect, slots.unixListen⟩ := by
      intro unixCaps h
      simp only [CapSlots.caps, Option.ite_none_right_eq_some] at h
      exact (Option.some.inj h.2).symm
    simp only [Portl.Permits, unixPermits_eq_ok, allows_iff]
    constructor
    · rintro ⟨unixCaps, hcaps, hrule⟩
      rw [hunix unixCaps hcaps] at hrule
      cases op <;> exact hrule
    · intro hrule
      cases op with
      | connect path =>
        obtain ⟨rule, hmem, hmatch⟩ := hrule
        exact ⟨_, hsome rule (.inl hmem), rule, hmem, hmatch⟩
      | listen path cleanup sshAgent =>
        obtain ⟨rule, hmem, hmatch⟩ := hrule
        exact ⟨_, hsome rule (.inr hmem), rule, hmem, hmatch⟩

/-! ## What the slots collect -/

def CapEntry.shellCaps : CapEntry → Option ShellCaps
  | .shell => some defaultShellCaps
  | .exec => some execShellCaps
  | _ => none

def CapEntry.tcpRule : CapEntry → Option PortRule
  | .tcp rule => some rule
  | _ => none

def CapEntry.udpRule : CapEntry → Option PortRule
  | .udp rule => some rule
  | _ => none

def CapEntry.connectRule : CapEntry → Option UnixPathRule
  | .unixConnect rule => some rule
  | _ => none

def CapEntry.listenRule : CapEntry → Option UnixPathRule
  | .unixListen rule => some rule
  | _ => none

def slotsOf (parsed : List CapEntry) : CapSlots := parsed.foldl CapSlots.add {}

variable {β : Type} {slots : CapSlots} {request : CapRequest}

theorem foldl_collects (slot : CapSlots → List β) (part : CapEntry → Option β)
    (h : ∀ slots entry, slot (slots.add entry) = slot slots ++ (part entry).toList)
    (parsed : List CapEntry) (slots : CapSlots) :
    slot (parsed.foldl CapSlots.add slots) = slot slots ++ parsed.filterMap part := by
  induction parsed generalizing slots with
  | nil => simp
  | cons entry parsed ih =>
    rw [foldl_cons, ih, h, append_assoc]
    cases hpart : part entry <;> simp [hpart]

variable (parsed : List CapEntry)
include parsed

theorem slotsOf_tcp : (slotsOf parsed).tcp = parsed.filterMap CapEntry.tcpRule := by
  apply foldl_collects CapSlots.tcp CapEntry.tcpRule
  intro slots entry
  cases entry <;> simp [CapSlots.add, CapEntry.tcpRule]

theorem slotsOf_udp : (slotsOf parsed).udp = parsed.filterMap CapEntry.udpRule := by
  apply foldl_collects CapSlots.udp CapEntry.udpRule
  intro slots entry
  cases entry <;> simp [CapSlots.add, CapEntry.udpRule]

theorem slotsOf_unixConnect :
    (slotsOf parsed).unixConnect = parsed.filterMap CapEntry.connectRule := by
  apply foldl_collects CapSlots.unixConnect CapEntry.connectRule
  intro slots entry
  cases entry <;> simp [CapSlots.add, CapEntry.connectRule]

theorem slotsOf_unixListen :
    (slotsOf parsed).unixListen = parsed.filterMap CapEntry.listenRule := by
  apply foldl_collects CapSlots.unixListen CapEntry.listenRule
  intro slots entry
  cases entry <;> simp [CapSlots.add, CapEntry.listenRule]

theorem slotsOf_append_shell (entry : CapEntry) :
    (slotsOf (parsed ++ [entry])).shell = entry.shellCaps.or (slotsOf parsed).shell := by
  unfold slotsOf
  rw [foldl_append]
  cases entry <;> rfl

omit parsed

variable {parsed : List CapEntry} {out : CapSlots} {rule : UnixPathRule} {entry spec : String}
  {entries : List String} {caps : Capabilities} {shellCaps : ShellCaps}

theorem mem_of_slotsOf_shell (h : (slotsOf parsed).shell = some shellCaps) :
    ∃ entry ∈ parsed, entry.shellCaps = some shellCaps := by
  induction parsed using List.reverseRecOn with
  | nil => cases h
  | append_singleton parsed entry ih =>
    rw [slotsOf_append_shell] at h
    rcases Option.or_eq_some_iff.mp h with hentry | ⟨-, hrest⟩
    · exact ⟨entry, mem_append_right _ (mem_singleton_self _), hentry⟩
    · obtain ⟨before, hmem, hbefore⟩ := ih hrest
      exact ⟨before, mem_append_left _ hmem, hbefore⟩

def ShellAgrees (parsed : List CapEntry) : Prop := ¬ (.shell ∈ parsed ∧ .exec ∈ parsed)

theorem ShellAgrees.eq (h : ShellAgrees parsed) {a b : CapEntry} (ha : a ∈ parsed) (hb : b ∈ parsed)
    {x y : ShellCaps} (hx : a.shellCaps = some x) (hy : b.shellCaps = some y) : x = y := by
  cases a <;> cases hx <;> cases b <;> cases hy
  · rfl
  · exact absurd ⟨ha, hb⟩ h
  · exact absurd ⟨hb, ha⟩ h
  · rfl

theorem slotsOf_shell (h : ShellAgrees parsed) :
    (slotsOf parsed).shell = some shellCaps ↔ ∃ entry ∈ parsed, entry.shellCaps = some shellCaps := by
  refine ⟨mem_of_slotsOf_shell, ?_⟩
  rintro ⟨entry, hmem, hentry⟩
  have hsome : (slotsOf parsed).shell ≠ none := by
    clear h
    induction parsed using List.reverseRecOn with
    | nil => cases hmem
    | append_singleton parsed last ih =>
      rw [slotsOf_append_shell]
      rcases mem_append.mp hmem with hbefore | hlast
      · cases hshell : last.shellCaps with
        | none => exact ih hbefore
        | some shellCaps => exact Option.some_ne_none _
      · rw [mem_singleton.mp hlast] at hentry
        rw [hentry]
        exact Option.some_ne_none _
  obtain ⟨found, hfound⟩ := Option.ne_none_iff_exists'.mp hsome
  obtain ⟨other, hother, hshell⟩ := mem_of_slotsOf_shell hfound
  rw [hfound, h.eq hother hmem hshell hentry]

def metaOf (ping info : Bool) : Option MetaCaps := if ping || info then some ⟨ping, info⟩ else none

theorem slotsOf_metaCaps (parsed : List CapEntry) :
    (slotsOf parsed).metaCaps =
      metaOf (decide (.metaPing ∈ parsed)) (decide (.metaInfo ∈ parsed)) := by
  induction parsed using List.reverseRecOn with
  | nil => rfl
  | append_singleton parsed entry ih =>
    have hstep : (slotsOf (parsed ++ [entry])).metaCaps = ((slotsOf parsed).add entry).metaCaps := by
      rw [slotsOf, foldl_append]
      rfl
    rw [hstep]
    cases entry <;> simp only [CapSlots.add, ih, mem_append, mem_singleton, reduceCtorEq, or_false, or_true, decide_true]
    all_goals
      cases decide (CapEntry.metaPing ∈ parsed) <;> cases decide (CapEntry.metaInfo ∈ parsed) <;> rfl

/-! ## Order -/

theorem CapSlots.Sorts.of_perm {other : CapSlots} (h : slots.Sorts out)
    (hshell : other.shell = slots.shell) (htcp : slots.tcp.Perm other.tcp)
    (hudp : slots.udp.Perm other.udp) (hconnect : slots.unixConnect.Perm other.unixConnect)
    (hlisten : slots.unixListen.Perm other.unixListen) (hmeta : other.metaCaps = slots.metaCaps) :
    other.Sorts out where
  shell := h.shell.trans hshell.symm
  tcp := ⟨h.tcp.1.trans htcp, h.tcp.2⟩
  udp := ⟨h.udp.1.trans hudp, h.udp.2⟩
  unixConnect := ⟨h.unixConnect.1.trans hconnect, h.unixConnect.2⟩
  unixListen := ⟨h.unixListen.1.trans hlisten, h.unixListen.2⟩
  metaCaps := h.metaCaps.trans hmeta.symm

theorem slotsOf_sorts_perm {other : List CapEntry} (hagrees : ShellAgrees parsed)
    (hperm : parsed.Perm other) (h : (slotsOf parsed).Sorts out) : (slotsOf other).Sorts out := by
  have hother : ShellAgrees other := by
    rintro ⟨hshell, hexec⟩
    exact hagrees ⟨hperm.mem_iff.mpr hshell, hperm.mem_iff.mpr hexec⟩
  apply h.of_perm
  · ext shellCaps
    simp [slotsOf_shell hother, slotsOf_shell hagrees, hperm.mem_iff]
  · rw [slotsOf_tcp, slotsOf_tcp]
    exact hperm.filterMap _
  · rw [slotsOf_udp, slotsOf_udp]
    exact hperm.filterMap _
  · rw [slotsOf_unixConnect, slotsOf_unixConnect]
    exact hperm.filterMap _
  · rw [slotsOf_unixListen, slotsOf_unixListen]
    exact hperm.filterMap _
  · rw [slotsOf_metaCaps, slotsOf_metaCaps]
    simp [hperm.mem_iff]

/-! ## Union -/

theorem exists_mem_filterMap {part : CapEntry → Option β} {P : β → Prop} :
    (∃ rule ∈ parsed.filterMap part, P rule) ↔
      ∃ entry ∈ parsed, ∃ rule ∈ [entry].filterMap part, P rule := by
  simp only [mem_filterMap, mem_singleton]
  constructor
  · rintro ⟨rule, ⟨entry, hmem, hrule⟩, hP⟩
    exact ⟨entry, hmem, rule, ⟨entry, rfl, hrule⟩, hP⟩
  · rintro ⟨entry, hmem, rule, ⟨_, rfl, hrule⟩, hP⟩
    exact ⟨rule, ⟨_, hmem, hrule⟩, hP⟩

theorem slotsOf_permits (h : ShellAgrees parsed) (request : CapRequest) :
    (slotsOf parsed).Permits request ↔ ∃ entry ∈ parsed, (slotsOf [entry]).Permits request := by
  have hsingle : ∀ entry : CapEntry, ShellAgrees [entry] := by
    rintro entry ⟨hshell, hexec⟩
    rw [mem_singleton] at hshell hexec
    rw [← hshell] at hexec
    cases hexec
  cases request with
  | shell req =>
    simp only [CapSlots.Permits, slotsOf_shell h, slotsOf_shell (hsingle _), mem_singleton]
    constructor
    · rintro ⟨shellCaps, ⟨entry, hmem, hentry⟩, hadmits⟩
      exact ⟨entry, hmem, shellCaps, ⟨entry, rfl, hentry⟩, hadmits⟩
    · rintro ⟨entry, hmem, shellCaps, ⟨_, rfl, hentry⟩, hadmits⟩
      exact ⟨shellCaps, ⟨_, hmem, hentry⟩, hadmits⟩
  | tcp req =>
    simp only [CapSlots.Permits, slotsOf_tcp]
    exact exists_mem_filterMap
  | udp bind =>
    simp only [CapSlots.Permits, slotsOf_udp]
    exact exists_mem_filterMap
  | unix req =>
    obtain ⟨preamble, path | ⟨path, cleanup, sshAgent⟩⟩ := req
    · simp only [CapSlots.Permits, slotsOf_unixConnect]
      exact exists_mem_filterMap
    · simp only [CapSlots.Permits, slotsOf_unixListen]
      exact exists_mem_filterMap

theorem CapSlots.Sorts.permits (h : slots.Sorts out) (request : CapRequest) :
    out.Permits request ↔ slots.Permits request := by
  cases request with
  | shell req => simp [CapSlots.Permits, h.shell]
  | tcp req => simp [CapSlots.Permits, h.tcp.1.mem_iff]
  | udp bind => simp [CapSlots.Permits, h.udp.1.mem_iff]
  | unix req =>
    obtain ⟨preamble, path | ⟨path, cleanup, sshAgent⟩⟩ := req
    · simp [CapSlots.Permits, h.unixConnect.1.mem_iff]
    · simp [CapSlots.Permits, h.unixListen.1.mem_iff]

/-! ## Canonical form -/

theorem presenceBits_expected : ∀ shell tcp udp metaCaps unix : Bool,
    presenceBits shell tcp udp metaCaps unix =
      (shell.toUInt8 ||| (tcp.toUInt8 <<< 1) ||| (udp.toUInt8 <<< 2) |||
        ((none : Option FsCaps).isSome.toUInt8 <<< 3) |||
        ((none : Option VpnCaps).isSome.toUInt8 <<< 4) ||| (metaCaps.toUInt8 <<< 5) |||
        (unix.toUInt8 <<< 6) |||
        (presenceBits shell tcp udp metaCaps unix &&& tcpListenCapBit)) ∧
      presenceBits shell tcp udp metaCaps unix &&& tcpListenCapBit = 0 := by
  decide

theorem isValidRule_of_parse {rest : String} (h : parseUnixPathRule rest = .ok rule) :
    rule.isValidRule true = true := by
  obtain ⟨hvalid, rfl⟩ := parseUnixPathRule_eq_ok.mp h
  have hbroad : validateUnixPathRule rest true = .ok () := by
    by_cases hstar : rest = "*"
    · subst hstar
      rfl
    · simp only [validateUnixPathRule, hstar, if_false] at hvalid ⊢
      exact hvalid
  rw [UnixPathRule.isValidRule, hbroad]
  rfl

theorem valid_of_reads {parsed : CapEntry} (h : Reads entry parsed)
    (hrule : parsed.connectRule = some rule ∨ parsed.listenRule = some rule) :
    rule.isValidRule true = true := by
  cases h with
  | unixConnect hparse | unixListen hparse =>
    rcases hrule with ⟨⟨⟩⟩ | ⟨⟨⟩⟩
    exact isValidRule_of_parse hparse
  | _ => rcases hrule with ⟨⟨⟩⟩ | ⟨⟨⟩⟩

theorem checkShellCapsSorted_entry {entry : CapEntry} (h : entry.shellCaps = some shellCaps) :
    checkShellCapsSorted shellCaps = .ok () := by
  cases entry <;> cases h <;> rfl

theorem canonicalCaps_of_sorts (hread : ∀ p ∈ parsed, ∃ entry, Reads entry p)
    (h : (slotsOf parsed).Sorts out) : CanonicalCaps out.caps := by
  have hbits := presenceBits_expected out.caps.shell.isSome out.caps.tcp.isSome out.caps.udp.isSome
    out.caps.metaCaps.isSome out.caps.unix.isSome
  have hlist : ∀ {α : Type} {rules some' : List α}, someIfNonempty rules = some some' → some' = rules := by
    intro α rules some' hsome
    unfold someIfNonempty at hsome
    split_ifs at hsome
    exact (Option.some.inj hsome).symm
  refine ⟨hbits.1, fun hlisten => hlisten.1 hbits.2, ?_, ?_, nofun, ?_, ?_⟩
  · intro rules hrules
    rw [hlist hrules]
    exact checkSortedUnique_eq_ok.mpr h.tcp.2
  · intro rules hrules
    rw [hlist hrules]
    exact checkSortedUnique_eq_ok.mpr h.udp.2
  · intro shellCaps hshell
    rw [show out.caps.shell = out.shell from rfl, h.shell] at hshell
    obtain ⟨entry, -, hentry⟩ := mem_of_slotsOf_shell hshell
    exact checkShellCapsSorted_entry hentry
  · intro unixCaps hunix
    simp only [CapSlots.caps, Option.ite_none_right_eq_some] at hunix
    obtain rfl := Option.some.inj hunix.2
    refine ⟨checkSortedUniqueUnixPathRules_eq_ok.mpr ⟨?_, h.unixConnect.2⟩,
      checkSortedUniqueUnixPathRules_eq_ok.mpr ⟨?_, h.unixListen.2⟩⟩
    · intro rule hrule
      rw [h.unixConnect.1.mem_iff, slotsOf_unixConnect, mem_filterMap] at hrule
      obtain ⟨p, hp, hpart⟩ := hrule
      obtain ⟨entry, hentry⟩ := hread p hp
      exact valid_of_reads hentry (.inl hpart)
    · intro rule hrule
      rw [h.unixListen.1.mem_iff, slotsOf_unixListen, mem_filterMap] at hrule
      obtain ⟨p, hp, hpart⟩ := hrule
      obtain ⟨entry, hentry⟩ := hread p hp
      exact valid_of_reads hentry (.inr hpart)

/-! ## The wildcard -/

/-- The slots that `all` would fill. -/
def allSlots : CapSlots :=
  { shell := some defaultShellCaps, tcp := [⟨"*", 1, 65535⟩], udp := [⟨"*", 1, 65535⟩],
    unixConnect := [⟨"*"⟩], unixListen := [⟨"*"⟩], metaCaps := some ⟨true, true⟩ }

theorem allSlots_caps : allSlots.caps = allCaps := by decide

theorem canonicalCaps_allCaps : CanonicalCaps allCaps := by
  refine ⟨by decide, by decide, ?_, ?_, nofun, ?_, ?_⟩
  · rintro rules ⟨⟩
    rfl
  · rintro rules ⟨⟩
    rfl
  · rintro shellCaps ⟨⟩
    rfl
  · rintro unixCaps ⟨⟩
    exact ⟨by decide, by decide⟩

def CapEntry.FromZero : CapEntry → Prop
  | .tcp rule => rule.portMin = 0
  | .udp rule => rule.portMin = 0
  | _ => False

instance (entry : CapEntry) : Decidable entry.FromZero := by
  cases entry <;> unfold CapEntry.FromZero <;> infer_instance

theorem shellAdmits_default (req : ShellReq) : ShellAdmits defaultShellCaps req := by
  refine ⟨?_, fun _ => rfl, rfl, ?_⟩
  · cases req.mode <;> rfl
  · unfold commandPermits
    cases req.mode <;> rfl

theorem matchesPath_wildcard {path : String} (h : rule.matchesPath path = true) :
    (⟨"*"⟩ : UnixPathRule).matchesPath path = true := by
  unfold UnixPathRule.matchesPath at h ⊢
  split at h
  · cases h
  · next hsafe => rw [if_neg hsafe, if_pos rfl]

theorem ruleAdmits_wildcard {rule : PortRule} {dest : String × UInt16 × UInt16}
    (hmin : rule.portMin ≠ 0) (h : ruleAdmits hostMatches rule dest = true) :
    ruleAdmits hostMatches ⟨"*", 1, 65535⟩ dest = true := by
  simp only [ruleAdmits, Bool.and_eq_true, decide_eq_true_eq] at h ⊢
  refine ⟨⟨hostMatches_wildcard _, ?_⟩, ?_⟩
  · have hpos : rule.portMin.toNat ≠ 0 := fun hzero => hmin (UInt16.toNat_inj.mp hzero)
    have hlow := UInt16.le_iff_toNat_le.mp h.1.2
    rw [UInt16.le_iff_toNat_le, show (1 : UInt16).toNat = 1 from rfl]
    omega
  · have hlt := dest.2.2.toNat_lt
    rw [UInt16.le_iff_toNat_le, show (65535 : UInt16).toNat = 65535 from rfl]
    omega

theorem allSlots_permits {entry : CapEntry} (hzero : ¬ entry.FromZero)
    (h : (slotsOf [entry]).Permits request) : allSlots.Permits request := by
  cases request with
  | shell req => exact ⟨_, rfl, shellAdmits_default req⟩
  | tcp | udp =>
    simp only [CapSlots.Permits, slotsOf_tcp, slotsOf_udp, mem_filterMap, mem_singleton] at h
    obtain ⟨rule, ⟨found, rfl, hpart⟩, hadmits⟩ := h
    have hmin : rule.portMin ≠ 0 := by
      cases found <;> cases hpart
      exact hzero
    exact ⟨_, mem_singleton_self _, ruleAdmits_wildcard hmin hadmits⟩
  | unix req =>
    obtain ⟨preamble, path | ⟨path, cleanup, sshAgent⟩⟩ := req
    · obtain ⟨rule, -, hmatch⟩ := h
      exact ⟨_, mem_singleton_self _, matchesPath_wildcard hmatch⟩
    · obtain ⟨rule, -, hmatch⟩ := h
      exact ⟨_, mem_singleton_self _, matchesPath_wildcard hmatch⟩

theorem exists_host (pattern : String) : ∃ host, hostMatches pattern host = true := by
  unfold hostMatches
  by_cases hstar : pattern = "*"
  · exact ⟨"", by rw [if_pos hstar]⟩
  · simp only [if_neg hstar]
    cases hsuffix : Str.stripPrefix pattern "*." with
    | some suffix => exact ⟨suffix, by simp⟩
    | none =>
      cases hpre : Str.stripSuffix pattern ".*" with
      | some pre => exact ⟨pre ++ ".", Str.startsWith_iff.mpr ⟨"", by simp⟩⟩
      | none => exact ⟨pattern, by simp⟩

theorem exists_beyond_wildcard {entry : CapEntry} (h : entry.FromZero) :
    ∃ request, (slotsOf [entry]).Permits request ∧ ¬ allSlots.Permits request := by
  have hbeyond : ∀ host, ruleAdmits hostMatches ⟨"*", 1, 65535⟩ (host, 0, 0) = false := by
    intro host
    have hport : ¬ (1 : UInt16) ≤ 0 := by decide
    simp [ruleAdmits, hport]
  have hadmits : ∀ rule : PortRule, rule.portMin = 0 →
      ∃ host, ruleAdmits hostMatches rule (host, 0, 0) = true := by
    intro rule hmin
    obtain ⟨host, hhost⟩ := exists_host rule.hostGlob
    refine ⟨host, ?_⟩
    simp only [ruleAdmits, hhost, hmin, Bool.and_eq_true, decide_eq_true_eq]
    exact ⟨⟨trivial, UInt16.le_refl 0⟩, UInt16.zero_le⟩
  cases entry with
  | tcp rule =>
    obtain ⟨host, hhost⟩ := hadmits rule h
    refine ⟨.tcp ⟨⟨Vector.replicate 16 0, ""⟩, host, 0⟩, ⟨rule, mem_singleton_self _, hhost⟩, ?_⟩
    rintro ⟨_, hmem, hwild⟩
    rw [mem_singleton.mp hmem, hbeyond] at hwild
    cases hwild
  | udp rule =>
    obtain ⟨host, hhost⟩ := hadmits rule h
    refine ⟨.udp ⟨(0, 0), host, (0, 0)⟩, ⟨rule, mem_singleton_self _, hhost⟩, ?_⟩
    rintro ⟨_, hmem, hwild⟩
    rw [mem_singleton.mp hmem, hbeyond] at hwild
    cases hwild
  | _ => cases h

/-! ## Specs -/

theorem entry_of_mem (h : entry ∈ capEntries spec) : ',' ∉ entry.toList ∧ entry ≠ "" := by
  obtain ⟨hsplit, hne⟩ := mem_filter.mp h
  refine ⟨Str.not_mem_of_mem_split hsplit, ?_⟩
  rintro rfl
  cases hne

theorem capEntries_join (h : ∀ entry ∈ entries, ',' ∉ entry.toList ∧ entry ≠ "")
    (hne : entries ≠ []) : capEntries (Str.join ',' entries) = entries := by
  rw [capEntries, Str.split_join (fun entry hentry => (h entry hentry).1) hne, filter_eq_self]
  intro entry hentry
  rw [isEmpty_eq_false (h entry hentry).2]
  rfl

theorem parseCaps_of_parsed (hentry : entry ∈ capEntries spec) {parsed : CapEntry}
    (h : parseEntry entry = .ok parsed) : parseCaps entry = .ok parsed.caps := by
  obtain ⟨hcomma, hne⟩ := entry_of_mem hentry
  exact (parseCaps_entry hcomma hne).mpr (.inr ⟨parsed, h, rfl⟩)

theorem caps_permits (parsed : CapEntry) (request : CapRequest) :
    Permits parsed.caps request ↔
      if parsed = .dev then allSlots.Permits request else (slotsOf [parsed]).Permits request := by
  unfold CapEntry.caps
  split_ifs with hdev
  · rw [← allSlots_caps, CapSlots.permits_caps]
  · exact CapSlots.permits_caps _ request

structure MeansUnion (spec : String) (caps : Capabilities) : Prop where
  permuted : ∀ entries, entries.Perm (capEntries spec) → parseCaps (Str.join ',' entries) = .ok caps
  canonical : ∀ body, CanonicalTerms body → canonicalCheck { body with caps := caps } = .ok ()
  permits : ∀ request, Permits caps request ↔
    ∃ entry ∈ capEntries spec, ∃ single, parseCaps entry = .ok single ∧ Permits single request

/-- Beside `dev` every entry can be read, and no rule begins at port 0; without it, there is
no `exec` beside `shell` or `session`. -/
def Independent (spec : String) : Prop :=
  spec = "all" ∨
    if "dev" ∈ capEntries spec then
      ∀ entry ∈ capEntries spec, ∃ parsed, parseEntry entry = .ok parsed ∧ ¬ parsed.FromZero
    else
      ¬ (("shell" ∈ capEntries spec ∨ "session" ∈ capEntries spec) ∧ "exec" ∈ capEntries spec)

/-! ### Entries in another order -/

theorem mem_parsed_iff (h : List.Forall₂ (fun entry p => parseEntry entry = .ok p) entries parsed)
    {p : CapEntry} : p ∈ parsed ↔ ∃ entry ∈ entries, parseEntry entry = .ok p := by
  constructor
  · intro hp
    exact exists_of_forall₂ h.flip hp
  · rintro ⟨entry, hentry, hparse⟩
    obtain ⟨q, hq, hparse'⟩ := exists_of_forall₂ h hentry
    rw [hparse, Except.ok.injEq] at hparse'
    rw [hparse']
    exact hq

theorem parseCapEntries_plain (hdev : "dev" ∉ entries) :
    parseCapEntries entries = .ok caps ↔
      ∃ parsed out, List.Forall₂ (fun entry p => parseEntry entry = .ok p) entries parsed ∧
        (slotsOf parsed).Sorts out ∧ out.caps.presence ≠ 0 ∧ caps = out.caps := by
  rw [parseCapEntries_eq_ok]
  constructor
  · rintro (⟨hloop, -⟩ | ⟨slots, out, hloop, hsorts, hpresence, rfl⟩)
    · exact absurd (mem_of_capLoop_none hloop) hdev
    · obtain ⟨parsed, hparsed, -, rfl⟩ := capLoop_eq_some.mp hloop
      exact ⟨parsed, out, hparsed, hsorts, hpresence, rfl⟩
  · rintro ⟨parsed, out, hparsed, hsorts, hpresence, rfl⟩
    refine .inr ⟨_, out, capLoop_eq_some.mpr ⟨parsed, hparsed, ?_, rfl⟩, hsorts, hpresence, rfl⟩
    intro hmem
    obtain ⟨entry, hentry, hparse⟩ := (mem_parsed_iff hparsed).mp hmem
    rw [parseEntry_eq_dev.mp hparse] at hentry
    exact hdev hentry

theorem eq_allCaps_of_dev (hdev : "dev" ∈ entries) (h : parseCapEntries entries = .ok caps) :
    caps = allCaps := by
  rcases parseCapEntries_eq_ok.mp h with ⟨-, rfl⟩ | ⟨slots, out, hloop, -⟩
  · rfl
  · obtain ⟨parsed, hparsed, hmem, -⟩ := capLoop_eq_some.mp hloop
    exact absurd ((mem_parsed_iff hparsed).mpr ⟨"dev", hdev, parseEntry_eq_dev.mpr rfl⟩) hmem

theorem parseEntry_of_head {rest : List String} (h : parseCapEntries (entry :: rest) = .ok caps) :
    ∃ parsed, parseEntry entry = .ok parsed := by
  cases hparse : parseEntry entry with
  | ok parsed => exact ⟨parsed, rfl⟩
  | error message =>
    have herror : parseCapEntries (entry :: rest) = .error message := by
      rw [parseCapEntries, capLoop, hparse]
      rfl
    rw [herror] at h
    cases h

theorem shell_of_last (hdev : "dev" ∉ entries ++ [entry]) {parsed : CapEntry}
    (hparse : parseEntry entry = .ok parsed) (hshell : parsed.shellCaps = some shellCaps)
    (h : parseCapEntries (entries ++ [entry]) = .ok caps) : caps.shell = some shellCaps := by
  obtain ⟨all, out, hall, hsorts, -, rfl⟩ := (parseCapEntries_plain hdev).mp h
  have hreverse := forall₂_reverse_iff.mpr hall
  rw [reverse_append, reverse_singleton, singleton_append,
    forall₂_cons_left_iff] at hreverse
  obtain ⟨last, before, hlast, -, hlists⟩ := hreverse
  rw [hparse, Except.ok.injEq] at hlast
  rw [reverse_eq_iff, reverse_cons, ← hlast] at hlists
  have hslot : (slotsOf all).shell = some shellCaps := by
    rw [hlists, slotsOf_append_shell, hshell]
    rfl
  exact hsorts.shell.trans hslot

theorem parseCaps_join (hall : spec ≠ "all") (h : parseCaps spec = .ok caps)
    (hperm : entries.Perm (capEntries spec)) :
    parseCaps (Str.join ',' entries) = parseCapEntries entries := by
  rw [parseCaps, if_neg hall] at h
  have hentries : ∀ entry ∈ entries, ',' ∉ entry.toList ∧ entry ≠ "" :=
    fun entry hentry => entry_of_mem (hperm.mem_iff.mp hentry)
  have hne : entries ≠ [] := by
    rintro rfl
    rw [nil_perm.mp hperm] at h
    have hrefused : (parseCapEntries []).isOk = false := by decide
    rw [h] at hrefused
    cases hrefused
  have hjoin := capEntries_join hentries hne
  have htext : Str.join ',' entries ≠ "all" := by
    intro htext
    have hsingle : capEntries "all" = ["all"] := by decide
    rw [htext, hsingle] at hjoin
    rw [← hjoin, singleton_perm] at hperm
    rw [← hperm] at h
    obtain ⟨parsed, hparsed⟩ := parseEntry_of_head h
    exact parseEntry_all parsed hparsed
  rw [parseCaps, if_neg htext, hjoin]

/-! ### Specs that mean the union of their entries -/

theorem shellAgrees_iff
    (h : List.Forall₂ (fun entry p => parseEntry entry = .ok p) entries parsed) :
    ShellAgrees parsed ↔ ¬ (("shell" ∈ entries ∨ "session" ∈ entries) ∧ "exec" ∈ entries) := by
  have hshell : .shell ∈ parsed ↔ "shell" ∈ entries ∨ "session" ∈ entries := by
    simp only [mem_parsed_iff h, parseEntry_eq_shell]
    constructor
    · rintro ⟨entry, hentry, rfl | rfl⟩
      · exact .inl hentry
      · exact .inr hentry
    · rintro (hentry | hentry)
      · exact ⟨_, hentry, .inl rfl⟩
      · exact ⟨_, hentry, .inr rfl⟩
  have hexec : .exec ∈ parsed ↔ "exec" ∈ entries := by
    simp [mem_parsed_iff h, parseEntry_eq_exec]
  rw [ShellAgrees, hshell, hexec]

theorem canonicalCaps_of_parseCaps (h : parseCaps spec = .ok caps) : CanonicalCaps caps := by
  unfold parseCaps at h
  split_ifs at h
  · cases h
    exact canonicalCaps_allCaps
  · by_cases hdev : "dev" ∈ capEntries spec
    · rw [eq_allCaps_of_dev hdev h]
      exact canonicalCaps_allCaps
    · obtain ⟨parsed, out, hparsed, hsorts, -, rfl⟩ := (parseCapEntries_plain hdev).mp h
      refine canonicalCaps_of_sorts ?_ hsorts
      intro p hp
      obtain ⟨entry, -, hparse⟩ := (mem_parsed_iff hparsed).mp hp
      exact ⟨entry, parseEntry_eq_ok.mp hparse⟩

theorem canonicalCheck_of_parseCaps (h : parseCaps spec = .ok caps) {body : PortlBody}
    (hbody : CanonicalTerms body) : canonicalCheck { body with caps := caps } = .ok () := by
  refine canonicalCheck_eq_ok.mpr ⟨canonicalCaps_of_parseCaps h, ?_⟩
  exact ⟨hbody.alpnsExtra, hbody.window, hbody.ttl, hbody.nonce, hbody.bearer⟩

theorem exists_single_iff (hall : "all" ∉ capEntries spec) :
    (∃ entry ∈ capEntries spec, ∃ single, parseCaps entry = .ok single ∧ Permits single request) ↔
      ∃ entry ∈ capEntries spec, ∃ parsed, parseEntry entry = .ok parsed ∧ Permits parsed.caps request := by
  constructor
  · rintro ⟨entry, hentry, single, hsingle, hpermits⟩
    obtain ⟨hcomma, hne⟩ := entry_of_mem hentry
    rcases (parseCaps_entry hcomma hne).mp hsingle with ⟨rfl, -⟩ | ⟨parsed, hparsed, rfl⟩
    · exact absurd hentry hall
    · exact ⟨entry, hentry, parsed, hparsed, hpermits⟩
  · rintro ⟨entry, hentry, parsed, hparsed, hpermits⟩
    exact ⟨entry, hentry, parsed.caps, parseCaps_of_parsed hentry hparsed, hpermits⟩

theorem meansUnion_all : MeansUnion "all" allCaps := by
  have hentries : capEntries "all" = ["all"] := by decide
  have hparse : parseCaps "all" = .ok allCaps := rfl
  refine ⟨?_, fun _ hbody => canonicalCheck_of_parseCaps hparse hbody, ?_⟩
  · intro entries hperm
    rw [hentries, perm_singleton] at hperm
    rw [hperm]
    decide
  · intro request
    rw [hentries]
    simp [hparse, exists_eq_left']

theorem meansUnion_plain (hall : spec ≠ "all") (h : parseCaps spec = .ok caps)
    (hdev : "dev" ∉ capEntries spec)
    (hshell : ¬ (("shell" ∈ capEntries spec ∨ "session" ∈ capEntries spec) ∧
      "exec" ∈ capEntries spec)) : MeansUnion spec caps := by
  have hcaps : parseCapEntries (capEntries spec) = .ok caps := by
    rw [parseCaps, if_neg hall] at h
    exact h
  obtain ⟨parsed, out, hparsed, hsorts, hpresence, hout⟩ := (parseCapEntries_plain hdev).mp hcaps
  have hagrees : ShellAgrees parsed := (shellAgrees_iff hparsed).mpr hshell
  have hread : ∀ entry ∈ capEntries spec, ∃ p ∈ parsed, parseEntry entry = .ok p :=
    fun entry hentry => exists_of_forall₂ hparsed hentry
  refine ⟨?_, fun _ hbody => canonicalCheck_of_parseCaps h hbody, ?_⟩
  · intro entries hperm
    rw [parseCaps_join hall h hperm]
    obtain ⟨other, hother, hparsedPerm⟩ := perm_comp_forall₂ hperm hparsed
    have hdev' : "dev" ∉ entries := fun hmem => hdev (hperm.mem_iff.mp hmem)
    exact (parseCapEntries_plain hdev').mpr
      ⟨other, out, hother, slotsOf_sorts_perm hagrees hparsedPerm.symm hsorts, hpresence, hout⟩
  · intro request
    have hnotAll : "all" ∉ capEntries spec := by
      intro hmem
      obtain ⟨p, -, hp⟩ := hread _ hmem
      exact parseEntry_all p hp
    rw [exists_single_iff hnotAll, hout, CapSlots.permits_caps, hsorts.permits, slotsOf_permits hagrees]
    have hcapsOf : ∀ p ∈ parsed, (Permits p.caps request ↔ (slotsOf [p]).Permits request) := by
      intro p hp
      rw [caps_permits, if_neg]
      rintro rfl
      obtain ⟨entry, hentry, hparse⟩ := (mem_parsed_iff hparsed).mp hp
      rw [parseEntry_eq_dev.mp hparse] at hentry
      exact hdev hentry
    constructor
    · rintro ⟨p, hp, hpermits⟩
      obtain ⟨entry, hentry, hparse⟩ := (mem_parsed_iff hparsed).mp hp
      exact ⟨entry, hentry, p, hparse, (hcapsOf p hp).mpr hpermits⟩
    · rintro ⟨entry, hentry, p, hparse, hpermits⟩
      have hp : p ∈ parsed := (mem_parsed_iff hparsed).mpr ⟨entry, hentry, hparse⟩
      exact ⟨p, hp, (hcapsOf p hp).mp hpermits⟩

theorem meansUnion_dev (hall : spec ≠ "all") (h : parseCaps spec = .ok caps)
    (hdev : "dev" ∈ capEntries spec)
    (hread : ∀ entry ∈ capEntries spec,
      ∃ parsed, parseEntry entry = .ok parsed ∧ ¬ parsed.FromZero) : MeansUnion spec caps := by
  have hcaps : caps = allCaps := by
    rw [parseCaps, if_neg hall] at h
    exact eq_allCaps_of_dev hdev h
  refine ⟨?_, fun _ hbody => canonicalCheck_of_parseCaps h hbody, ?_⟩
  · intro entries hperm
    rw [parseCaps_join hall h hperm, parseCapEntries_eq_ok]
    refine .inl ⟨capLoop_of_dev (hperm.mem_iff.mpr hdev) ?_, hcaps⟩
    intro entry hentry
    obtain ⟨parsed, hparsed, -⟩ := hread entry (hperm.mem_iff.mp hentry)
    exact ⟨parsed, hparsed⟩
  · intro request
    have hnotAll : "all" ∉ capEntries spec := by
      intro hmem
      obtain ⟨p, hp, -⟩ := hread _ hmem
      exact parseEntry_all p hp
    rw [exists_single_iff hnotAll, hcaps, ← allSlots_caps, CapSlots.permits_caps]
    constructor
    · intro hpermits
      refine ⟨"dev", hdev, .dev, parseEntry_eq_dev.mpr rfl, ?_⟩
      rw [caps_permits, if_pos rfl]
      exact hpermits
    · rintro ⟨entry, hentry, parsed, hparsed, hpermits⟩
      obtain ⟨p, hp, hzero⟩ := hread entry hentry
      rw [hparsed, Except.ok.injEq] at hp
      rw [caps_permits] at hpermits
      split_ifs at hpermits with hpdev
      · exact hpermits
      · exact allSlots_permits (hp ▸ hzero) hpermits

theorem MeansUnion.read (hall : spec ≠ "all") (h : parseCaps spec = .ok caps)
    (hdev : "dev" ∈ capEntries spec) (hunion : MeansUnion spec caps)
    (hentry : entry ∈ capEntries spec) :
    ∃ parsed, parseEntry entry = .ok parsed ∧ ¬ parsed.FromZero := by
  have hperm : (entry :: (capEntries spec).erase entry).Perm (capEntries spec) :=
    (perm_cons_erase hentry).symm
  have hfirst := hunion.permuted _ hperm
  rw [parseCaps_join hall h hperm] at hfirst
  obtain ⟨parsed, hparsed⟩ := parseEntry_of_head hfirst
  refine ⟨parsed, hparsed, ?_⟩
  intro hzero
  obtain ⟨request, hpermits, hbeyond⟩ := exists_beyond_wildcard hzero
  have hcaps : caps = allCaps := by
    rw [parseCaps, if_neg hall] at h
    exact eq_allCaps_of_dev hdev h
  have hnotDev : parsed ≠ .dev := by
    rintro rfl
    cases hzero
  apply hbeyond
  rw [← CapSlots.permits_caps, allSlots_caps, ← hcaps, hunion.permits]
  refine ⟨entry, hentry, parsed.caps, parseCaps_of_parsed hentry hparsed, ?_⟩
  rw [caps_permits, if_neg hnotDev]
  exact hpermits

theorem MeansUnion.agrees (hall : spec ≠ "all") (h : parseCaps spec = .ok caps)
    (hdev : "dev" ∉ capEntries spec) (hunion : MeansUnion spec caps) :
    ¬ (("shell" ∈ capEntries spec ∨ "session" ∈ capEntries spec) ∧ "exec" ∈ capEntries spec) := by
  have hlast : ∀ entry ∈ capEntries spec, ∀ parsed shellCaps, parseEntry entry = .ok parsed →
      parsed.shellCaps = some shellCaps → caps.shell = some shellCaps := by
    intro entry hentry parsed shellCaps hparsed hshell
    have hperm : ((capEntries spec).erase entry ++ [entry]).Perm (capEntries spec) :=
      perm_append_comm.trans (perm_cons_erase hentry).symm
    have hcaps := hunion.permuted _ hperm
    rw [parseCaps_join hall h hperm] at hcaps
    exact shell_of_last (fun hmem => hdev (hperm.mem_iff.mp hmem)) hparsed hshell hcaps
  rintro ⟨hshell, hexec⟩
  have hfull : caps.shell = some defaultShellCaps := by
    rcases hshell with hmem | hmem
    · exact hlast _ hmem .shell _ (parseEntry_eq_shell.mpr (.inl rfl)) rfl
    · exact hlast _ hmem .shell _ (parseEntry_eq_shell.mpr (.inr rfl)) rfl
  rw [hlast _ hexec .exec _ (parseEntry_eq_exec.mpr rfl) rfl] at hfull
  exact absurd hfull (by decide)

/-- Which accepted specs mean the union of their entries, in every order. -/
theorem parse_caps_union {spec : String} {caps : Capabilities} (h : parseCaps spec = .ok caps) :
    MeansUnion spec caps ↔ Independent spec := by
  unfold Independent
  by_cases hall : spec = "all"
  · subst hall
    obtain rfl : allCaps = caps := by
      have hparse : parseCaps "all" = .ok allCaps := rfl
      rw [hparse, Except.ok.injEq] at h
      exact h
    exact ⟨fun _ => .inl rfl, fun _ => meansUnion_all⟩
  · rw [or_iff_right hall]
    split_ifs with hdev
    · exact ⟨fun hunion entry hentry => hunion.read hall h hdev hentry, meansUnion_dev hall h hdev⟩
    · exact ⟨fun hunion => hunion.agrees hall h hdev, meansUnion_plain hall h hdev⟩

theorem parse_caps_union_forward :
    ∃ caps, parseCaps "shell,tcp:*:80-90" = .ok caps ∧ MeansUnion "shell,tcp:*:80-90" caps ∧
      parseCaps "tcp:*:80-90,shell" = .ok caps := by
  let caps : Capabilities :=
    { presence := 0b00000011, shell := some defaultShellCaps, tcp := some [⟨"*", 80, 90⟩],
      udp := none, fs := none, vpn := none, metaCaps := none, unix := none }
  have hcaps : parseCaps "shell,tcp:*:80-90" = .ok caps := by decide +kernel
  have hentries : capEntries "shell,tcp:*:80-90" = ["shell", "tcp:*:80-90"] := by decide
  have hindependent : Independent "shell,tcp:*:80-90" := by
    unfold Independent
    rw [hentries, if_neg (by decide)]
    exact .inr (by decide)
  have hunion : MeansUnion "shell,tcp:*:80-90" caps := (parse_caps_union hcaps).mpr hindependent
  have hjoin : Str.join ',' ["tcp:*:80-90", "shell"] = "tcp:*:80-90,shell" := by decide
  refine ⟨caps, hcaps, hunion, ?_⟩
  rw [← hjoin]
  apply hunion.permuted
  rw [hentries]
  exact .swap _ _ _

/-- `exec` takes the terminal away that `shell` gave, and the other way round; and nothing
after `dev` is read. -/
theorem parse_caps_last_shell_wins :
    parseCaps "shell,exec" = .ok CapEntry.exec.caps ∧ parseCaps "exec,shell" = .ok CapEntry.shell.caps ∧
      CapEntry.exec.caps ≠ CapEntry.shell.caps ∧
      parseCaps "dev,bogus" = .ok allCaps ∧ (parseCaps "bogus,dev").isOk = false := by
  refine ⟨?_, ?_, ?_, ?_, ?_⟩ <;> decide

end Portl
