import Mathlib.Tactic.ByContra
import Portl.Lib.Cover
import Portl.Ticket.Schema

/-!
# Capability narrowing

`caps.rs`: the decision, made once per delegation hop, that a child capability
set asks for no more than its parent. It is purely syntactic: nothing here
knows what a shell or a socket request is. What the decision is worth at
enforcement time is settled in `Caps/Enforce.lean`.
-/

namespace Portl

open Cover

/-! ## Shell -/

def allowlistNarrows (parent child : Option (List String)) : Bool :=
  match parent, child with
  | parent, none => parent.isNone
  | none, some _ => true
  | some parent, some child => child.all fun entry => parent.contains entry

def boolNarrows (parent child : Bool) : Bool := !child || parent

def envPolicyNarrows (parent child : EnvPolicy) : Bool :=
  match parent, child with
  | _, .deny => true
  | .merge none, .merge _ => true
  | .deny, _ => false
  | .merge (some parent), .merge (some child) =>
    child.all fun entry => parent.contains entry
  | .replace parent, .replace child => decide (parent = child)
  | _, _ => false

def shellNarrows (parent child : ShellCaps) : Bool :=
  allowlistNarrows parent.userAllowlist child.userAllowlist &&
    allowlistNarrows parent.commandAllowlist child.commandAllowlist &&
    boolNarrows parent.ptyAllowed child.ptyAllowed &&
    boolNarrows parent.execAllowed child.execAllowed &&
    envPolicyNarrows parent.envPolicy child.envPolicy

/-! ## Ports, files, vpn, meta, unix -/

def hostGlobCovers (parent child : String) : Bool :=
  decide (parent = "*") || decide (parent = child)

def portRuleCovers (parent child : PortRule) : Bool :=
  hostGlobCovers parent.hostGlob child.hostGlob &&
    decide (parent.portMin ≤ child.portMin) && decide (child.portMax ≤ parent.portMax)

def portRulesNarrow (parent child : List PortRule) : Bool :=
  narrows portRuleCovers parent child

def pathRootCovers (parent child : String) : Bool :=
  decide (child = parent) || decide (parent = "/") ||
    (match Str.stripPrefix child parent with
      | some suffix => Str.startsWith suffix "/"
      | none => false)

def fsNarrows (parent child : FsCaps) : Bool :=
  narrows pathRootCovers parent.roots child.roots &&
    (!parent.readonly || child.readonly) &&
    (match parent.maxSize, child.maxSize with
      | maxSize, none => maxSize.isNone
      | none, some _ => true
      | some parent, some child => decide (child ≤ parent))

def vpnNarrows (parent child : VpnCaps) : Bool :=
  decide (parent.myUla = child.myUla) && decide (parent.peerUla = child.peerUla) &&
    decide (child.mtu ≤ parent.mtu)

def metaNarrows (parent child : MetaCaps) : Bool :=
  boolNarrows parent.ping child.ping && boolNarrows parent.info child.info

def unixRulesNarrow (parent child : List UnixPathRule) : Bool :=
  narrows UnixPathRule.covers parent child

def unixNarrows (parent child : UnixCaps) : Bool :=
  unixRulesNarrow parent.connect child.connect &&
    unixRulesNarrow parent.listen child.listen

/-- `is_narrowing`: the presence bitmap first, then every family. -/
def isNarrowing (parent child : Capabilities) : Bool :=
  if child.presence &&& ~~~parent.presence ≠ 0 then false
  else
    optionNarrows shellNarrows parent.shell child.shell &&
      optionNarrows portRulesNarrow parent.tcp child.tcp &&
      optionNarrows portRulesNarrow parent.udp child.udp &&
      optionNarrows fsNarrows parent.fs child.fs &&
      optionNarrows vpnNarrows parent.vpn child.vpn &&
      optionNarrows metaNarrows parent.metaCaps child.metaCaps &&
      optionNarrows unixNarrows parent.unix child.unix

/-! ## What a positive decision says, family by family -/

structure Narrows (parent child : Capabilities) : Prop where
  presence : child.presence &&& ~~~parent.presence = 0
  shell : optionNarrows shellNarrows parent.shell child.shell = true
  tcp : optionNarrows portRulesNarrow parent.tcp child.tcp = true
  udp : optionNarrows portRulesNarrow parent.udp child.udp = true
  fs : optionNarrows fsNarrows parent.fs child.fs = true
  vpn : optionNarrows vpnNarrows parent.vpn child.vpn = true
  metaCaps : optionNarrows metaNarrows parent.metaCaps child.metaCaps = true
  unix : optionNarrows unixNarrows parent.unix child.unix = true

variable {child parent : Capabilities}

theorem isNarrowing_iff : isNarrowing parent child = true ↔ Narrows parent child := by
  unfold isNarrowing
  constructor
  · intro h
    split at h
    · cases h
    · rename_i hp
      simp only [Bool.and_eq_true] at h
      obtain ⟨⟨⟨⟨⟨⟨hshell, htcp⟩, hudp⟩, hfs⟩, hvpn⟩, hmeta⟩, hunix⟩ := h
      exact ⟨not_not.mp hp, hshell, htcp, hudp, hfs, hvpn, hmeta, hunix⟩
  · intro h
    rw [if_neg (not_not.mpr h.presence)]
    simp only [Bool.and_eq_true]
    exact ⟨⟨⟨⟨⟨⟨h.shell, h.tcp⟩, h.udp⟩, h.fs⟩, h.vpn⟩, h.metaCaps⟩, h.unix⟩

def ListAllows (allowlist : Option (List String)) (entry : String) : Prop :=
  ∀ l, allowlist = some l → entry ∈ l

theorem listAllows_of_narrows {parent child : Option (List String)} {entry : String}
    (hn : allowlistNarrows parent child = true) (h : ListAllows child entry) :
    ListAllows parent entry := by
  intro l hl
  subst hl
  cases child with
  | none => cases hn
  | some c =>
    simp only [allowlistNarrows, List.all_eq_true, List.contains_iff_mem] at hn
    exact hn entry (h c rfl)

theorem of_boolNarrows {parent child : Bool} (hn : boolNarrows parent child = true)
    (h : child = true) : parent = true := by
  subst h
  simpa [boolNarrows] using hn

/-- The listen bit cannot be introduced by a child: it is part of the bitmap
the presence test compares. -/
theorem listenBit_of_narrows (h : Narrows parent child)
    (hc : child.presence &&& tcpListenCapBit ≠ 0) : parent.presence &&& tcpListenCapBit ≠ 0 := by
  intro hp
  apply hc
  have hpres := h.presence
  rw [← UInt8.toBitVec_inj] at hp hpres ⊢
  ext i hi
  have hpi := congrArg (fun b : BitVec 8 => b.getLsbD i) hp
  have hci := congrArg (fun b : BitVec 8 => b.getLsbD i) hpres
  simp [hi] at hpi hci ⊢
  intro hbit
  by_contra hlisten
  simp_all

end Portl
