import Portl.Lib.Sorted
import Portl.Ticket.Verify

/-!
# One spelling for every grant

Canonical form leaves no choice: the rules, names, roots and variables of a
capability are lists in strictly increasing order, and every bit of `presence`
but the listen bit is fixed by the fields. Two canonical bodies that grant the
same things grant them in the same words, and sign the same bytes.
-/

namespace Portl

open Checks Sorted

/-! ## The orders -/

instance : Std.TransCmp portruleOrd :=
  inferInstanceAs (Std.TransCmp (compareLex
    (compareLex (compareOn PortRule.hostGlob) (compareOn PortRule.portMin))
    (compareOn PortRule.portMax)))

/-- `env.replace` is ordered by key alone. -/
instance transCmpFst : Std.TransCmp fun a b : String × String => compare a.1 b.1 :=
  inferInstanceAs (Std.TransCmp (compareOn Prod.fst))

instance : Std.TransCmp fun a b : UnixPathRule => compare a.path b.path :=
  inferInstanceAs (Std.TransCmp (compareOn UnixPathRule.path))

variable {α : Type} {a b : Capabilities}

theorem eq_of_checkSortedUnique {cmp : α → α → Ordering} [Std.TransCmp cmp]
    {duplicate unsorted : String} {v w : List α}
    (hv : checkSortedUnique cmp duplicate unsorted v = .ok ())
    (hw : checkSortedUnique cmp duplicate unsorted w = .ok ()) (h : SameSet v w) : v = w := by
  have hincreasing : Increasing cmp v := checkSortedUnique_eq_ok.mp hv
  exact hincreasing.eq_of_sameSet (checkSortedUnique_eq_ok.mp hw) h

/-! ## The same grants -/

inductive SameEnv : EnvPolicy → EnvPolicy → Prop
  | deny : SameEnv .deny .deny
  | merge {v w : Option (List String)} (allow : Option.Rel SameSet v w) :
      SameEnv (.merge v) (.merge w)
  | replace {v w : List (String × String)} (base : SameSet v w) : SameEnv (.replace v) (.replace w)

structure SameShell (a b : ShellCaps) : Prop where
  userAllowlist : Option.Rel SameSet a.userAllowlist b.userAllowlist
  ptyAllowed : a.ptyAllowed = b.ptyAllowed
  execAllowed : a.execAllowed = b.execAllowed
  commandAllowlist : Option.Rel SameSet a.commandAllowlist b.commandAllowlist
  envPolicy : SameEnv a.envPolicy b.envPolicy

structure SameFs (a b : FsCaps) : Prop where
  roots : SameSet a.roots b.roots
  readonly : a.readonly = b.readonly
  maxSize : a.maxSize = b.maxSize

structure SameUnix (a b : UnixCaps) : Prop where
  connect : SameSet a.connect b.connect
  listen : SameSet a.listen b.listen

/-- Field by field the same, with every list read as a set. Of `presence` only the
listen bit is compared. -/
structure SameGrants (a b : Capabilities) : Prop where
  listen : a.presence &&& tcpListenCapBit = b.presence &&& tcpListenCapBit
  shell : Option.Rel SameShell a.shell b.shell
  tcp : Option.Rel SameSet a.tcp b.tcp
  udp : Option.Rel SameSet a.udp b.udp
  fs : Option.Rel SameFs a.fs b.fs
  vpn : a.vpn = b.vpn
  metaCaps : a.metaCaps = b.metaCaps
  unix : Option.Rel SameUnix a.unix b.unix

theorem eq_of_optionRel {R : α → α → Prop} {a b : Option α} (h : Option.Rel R a b)
    (heq : ∀ x y, a = some x → b = some y → R x y → x = y) : a = b := by
  cases h with
  | none => rfl
  | some hxy => rw [heq _ _ rfl rfl hxy]

/-! ## Field by field -/

theorem envPolicy_eq {a b : EnvPolicy} (ha : checkEnvPolicySorted a = .ok ())
    (hb : checkEnvPolicySorted b = .ok ()) (h : SameEnv a b) : a = b := by
  cases h with
  | deny => rfl
  | merge allow =>
    congr 1
    apply eq_of_optionRel allow
    rintro v w rfl rfl hvw
    exact eq_of_checkSortedUnique ha hb hvw
  | replace base =>
    congr 1
    exact eq_of_checkSortedUnique ha hb base

theorem shellCaps_eq {a b : ShellCaps} (ha : checkShellCapsSorted a = .ok ())
    (hb : checkShellCapsSorted b = .ok ()) (h : SameShell a b) : a = b := by
  simp only [checkShellCapsSorted, bind_eq_ok, exists_const, whenSome_eq_ok] at ha hb
  obtain ⟨hauser, hacommand, haenv⟩ := ha
  obtain ⟨hbuser, hbcommand, hbenv⟩ := hb
  have huser : a.userAllowlist = b.userAllowlist := by
    apply eq_of_optionRel h.userAllowlist
    intro v w hv hw hvw
    exact eq_of_checkSortedUnique (hauser v hv) (hbuser w hw) hvw
  have hcommand : a.commandAllowlist = b.commandAllowlist := by
    apply eq_of_optionRel h.commandAllowlist
    intro v w hv hw hvw
    exact eq_of_checkSortedUnique (hacommand v hv) (hbcommand w hw) hvw
  have henv : a.envPolicy = b.envPolicy := envPolicy_eq haenv hbenv h.envPolicy
  cases a
  cases b
  rw [ShellCaps.mk.injEq]
  exact ⟨huser, h.ptyAllowed, h.execAllowed, hcommand, henv⟩

theorem fsCaps_eq {a b : FsCaps} (ha : checkSortedUniqueStrings a.roots "fs.roots" = .ok ())
    (hb : checkSortedUniqueStrings b.roots "fs.roots" = .ok ()) (h : SameFs a b) : a = b := by
  have hroots : a.roots = b.roots := eq_of_checkSortedUnique ha hb h.roots
  cases a
  cases b
  rw [FsCaps.mk.injEq]
  exact ⟨hroots, h.readonly, h.maxSize⟩

theorem unixPathRules_eq {v w : List UnixPathRule} {tag : String}
    (hv : checkSortedUniqueUnixPathRules v tag = .ok ())
    (hw : checkSortedUniqueUnixPathRules w tag = .ok ()) (h : SameSet v w) : v = w := by
  have hsortedv := (checkSortedUniqueUnixPathRules_eq_ok.mp hv).2
  have hsortedw := (checkSortedUniqueUnixPathRules_eq_ok.mp hw).2
  exact Increasing.eq_of_sameSet hsortedv hsortedw h

theorem expectedPresence_congr
    (hlisten : a.presence &&& tcpListenCapBit = b.presence &&& tcpListenCapBit)
    (hshell : a.shell = b.shell) (htcp : a.tcp = b.tcp) (hudp : a.udp = b.udp) (hfs : a.fs = b.fs)
    (hvpn : a.vpn = b.vpn) (hmeta : a.metaCaps = b.metaCaps) (hunix : a.unix = b.unix) :
    expectedPresence a = expectedPresence b := by
  simp [expectedPresence, hlisten, hshell, htcp, hudp, hfs, hvpn, hmeta, hunix]

theorem CanonicalCaps.eq_of_sameGrants (ha : CanonicalCaps a) (hb : CanonicalCaps b)
    (h : SameGrants a b) : a = b := by
  have hshell : a.shell = b.shell :=
    eq_of_optionRel h.shell fun x y hx hy => shellCaps_eq (ha.shell x hx) (hb.shell y hy)
  have htcp : a.tcp = b.tcp :=
    eq_of_optionRel h.tcp fun x y hx hy => eq_of_checkSortedUnique (ha.tcp x hx) (hb.tcp y hy)
  have hudp : a.udp = b.udp :=
    eq_of_optionRel h.udp fun x y hx hy => eq_of_checkSortedUnique (ha.udp x hx) (hb.udp y hy)
  have hfs : a.fs = b.fs :=
    eq_of_optionRel h.fs fun x y hx hy => fsCaps_eq (ha.fs x hx) (hb.fs y hy)
  have hunix : a.unix = b.unix := by
    apply eq_of_optionRel h.unix
    rintro ⟨connect, listen⟩ ⟨connect', listen'⟩ hx hy ⟨hconnect, hlisten⟩
    obtain ⟨hxconnect, hxlisten⟩ := ha.unix _ hx
    obtain ⟨hyconnect, hylisten⟩ := hb.unix _ hy
    rw [UnixCaps.mk.injEq]
    exact ⟨unixPathRules_eq hxconnect hyconnect hconnect, unixPathRules_eq hxlisten hylisten hlisten⟩
  have hpresence : a.presence = b.presence := by
    rw [ha.presence, hb.presence]
    exact expectedPresence_congr h.listen hshell htcp hudp hfs h.vpn h.metaCaps hunix
  cases a
  cases b
  rw [Capabilities.mk.injEq]
  exact ⟨hpresence, hshell, htcp, hudp, hfs, h.vpn, h.metaCaps, hunix⟩

/-! ## Bodies -/

/-- Canonical capabilities that grant the same sets are the same value, whatever the
bodies they stand in; so bodies that differ nowhere else sign the same bytes. -/
theorem canonical_form_unique {a b : PortlBody} (ha : canonicalCheck a = .ok ())
    (hb : canonicalCheck b = .ok ()) (h : SameGrants a.caps b.caps) :
    a.caps = b.caps ∧
      ({ a with caps := b.caps } = b → ∀ P, bodySigningBytes P a = bodySigningBytes P b) := by
  have hcaps : a.caps = b.caps :=
    (canonicalCheck_eq_ok.mp ha).1.eq_of_sameGrants (canonicalCheck_eq_ok.mp hb).1 h
  refine ⟨hcaps, ?_⟩
  intro hrest P
  rw [← hcaps] at hrest
  rw [← hrest]

def variedCaps : Capabilities where
  presence := 0b01001011
  shell := some ⟨some ["ops", "root"], true, true, some ["ls", "ps"],
    .replace [("LANG", "C"), ("TERM", "dumb")]⟩
  tcp := some [⟨"a.example", 22, 22⟩, ⟨"b.example", 80, 90⟩]
  udp := none
  fs := some ⟨["/etc", "/srv"], true, none⟩
  vpn := none
  metaCaps := none
  unix := some ⟨[⟨"/run/a.sock"⟩, ⟨"/run/b.sock"⟩], []⟩

/-- The same two users, commands, variables, rules, roots and sockets, in two tickets. -/
theorem canonical_form_unique_varied :
    let root := { sampleRoot.body with caps := variedCaps }
    let child := { (sampleChild none).body with caps := variedCaps }
    SameGrants root.caps child.caps ∧ root.caps = child.caps ∧
      bodySigningBytes (.transparent []) root = bodySigningBytes (.transparent []) root := by
  intro root child
  have hroot : canonicalCheck root = .ok () := by decide +kernel
  have hchild : canonicalCheck child = .ok () := by decide +kernel
  have hsame : SameGrants variedCaps variedCaps :=
    ⟨rfl, .some ⟨.some (SameSet.refl _), rfl, rfl, .some (SameSet.refl _), .replace (SameSet.refl _)⟩,
      .some (SameSet.refl _), .none, .some ⟨SameSet.refl _, rfl, rfl⟩, rfl, rfl,
      .some ⟨SameSet.refl _, SameSet.refl _⟩⟩
  exact ⟨hsame, (canonical_form_unique hroot hchild hsame).1,
    (canonical_form_unique hroot hroot hsame).2 rfl _⟩

end Portl
