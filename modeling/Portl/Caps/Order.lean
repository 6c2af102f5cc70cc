import Mathlib.Data.Set.Finite.Basic
import Mathlib.Tactic.IntervalCases
import Portl.Ticket.Verify

/-!
# Narrowing as an order

`is_narrowing` is asked of two neighbours of a chain. That the terminal narrows the
root as well needs the decision to be transitive, and it is transitive family by
family, with one exception. `path_root_covers` lets the root `/` cover every string,
also one that is not an absolute path, and lets the empty root cover `/`: between
the empty root and a relative one, `/` is a stepping stone.
-/

namespace Portl

open Cover Checks List

/-! ## Families -/

variable {first last middle : List String} {parent : String}

theorem allowlistNarrows_eq : allowlistNarrows =
    limitNarrows fun parent child => child.all fun entry => parent.contains entry := by
  funext parent child
  cases parent <;> cases child <;> rfl

theorem allowlistNarrows_refl (list : Option (List String)) :
    allowlistNarrows list list = true := by
  rw [allowlistNarrows_eq]
  refine limitNarrows_refl fun entries => all_eq_true.mpr fun entry hentry => ?_
  exact contains_iff_mem.mpr hentry

theorem allowlistNarrows_trans : Composes allowlistNarrows := by
  rw [allowlistNarrows_eq]
  refine Composes.limitNarrows fun first middle last hfirst hlast => all_eq_true.mpr ?_
  intro entry hentry
  have hmiddle := contains_iff_mem.mp (all_eq_true.mp hlast entry hentry)
  exact all_eq_true.mp hfirst entry hmiddle

theorem boolNarrows_refl (flag : Bool) : boolNarrows flag flag = true := by
  cases flag <;> rfl

theorem boolNarrows_trans : Composes boolNarrows := by
  unfold Composes
  decide

theorem envPolicyNarrows_iff {parent child : EnvPolicy} :
    envPolicyNarrows parent child = true ↔ child = .deny ∨
      (∃ allow allow', parent = .merge allow ∧ child = .merge allow' ∧
        allowlistNarrows allow allow' = true) ∨
      ∃ base, parent = .replace base ∧ child = .replace base := by
  rcases parent with _ | (_ | allow) | base <;> rcases child with _ | (_ | allow') | base'
  all_goals grind [envPolicyNarrows, allowlistNarrows]

theorem envPolicyNarrows_refl (policy : EnvPolicy) : envPolicyNarrows policy policy = true := by
  rw [envPolicyNarrows_iff]
  cases policy with
  | deny => exact .inl rfl
  | merge allow => exact .inr (.inl ⟨allow, allow, rfl, rfl, allowlistNarrows_refl allow⟩)
  | replace base => exact .inr (.inr ⟨base, rfl, rfl⟩)

theorem envPolicyNarrows_trans : Composes envPolicyNarrows := by
  intro first middle last hfirst hlast
  rw [envPolicyNarrows_iff] at hfirst hlast ⊢
  rcases hlast with hdeny | ⟨allow, allow', rfl, rfl, hallow⟩ | ⟨base, rfl, rfl⟩
  · exact .inl hdeny
  · rcases hfirst with hmerge | ⟨above, below, rfl, hmerge, habove⟩ | ⟨base, -, hmerge⟩
    · cases hmerge
    · obtain rfl := EnvPolicy.merge.inj hmerge
      exact .inr (.inl ⟨above, allow', rfl, rfl, allowlistNarrows_trans habove hallow⟩)
    · cases hmerge
  · exact hfirst

theorem shellNarrows_refl (caps : ShellCaps) : shellNarrows caps caps = true := by
  simp [shellNarrows, allowlistNarrows_refl, boolNarrows_refl, envPolicyNarrows_refl]

theorem shellNarrows_trans : Composes shellNarrows := by
  intro first middle last hfirst hlast
  simp only [shellNarrows, Bool.and_eq_true] at hfirst hlast ⊢
  obtain ⟨⟨⟨⟨husers, hcommands⟩, hpty⟩, hexec⟩, henv⟩ := hfirst
  obtain ⟨⟨⟨⟨husers', hcommands'⟩, hpty'⟩, hexec'⟩, henv'⟩ := hlast
  exact ⟨⟨⟨⟨allowlistNarrows_trans husers husers', allowlistNarrows_trans hcommands hcommands'⟩,
    boolNarrows_trans hpty hpty'⟩, boolNarrows_trans hexec hexec'⟩,
    envPolicyNarrows_trans henv henv'⟩

theorem portRulesNarrow_refl (rules : List PortRule) : portRulesNarrow rules rules = true :=
  narrows_refl fun rule _ => by simp [portRuleCovers, hostGlobCovers]

theorem portRulesNarrow_trans : Composes portRulesNarrow := by
  refine Composes.narrows fun first middle last hfirst hlast => ?_
  simp only [portRuleCovers, hostGlobCovers, Bool.and_eq_true, Bool.or_eq_true,
    decide_eq_true_eq] at hfirst hlast ⊢
  obtain ⟨⟨hhost, hmin⟩, hmax⟩ := hfirst
  obtain ⟨⟨hhost', hmin'⟩, hmax'⟩ := hlast
  refine ⟨⟨?_, UInt16.le_trans hmin hmin'⟩, UInt16.le_trans hmax' hmax⟩
  rcases hhost with hstar | heq
  · exact .inl hstar
  · rw [heq]
    exact hhost'

/-! ## Unix rules -/

namespace UnixPathRule

theorem Below.mono {pre pre' : String} {rule : UnixPathRule} (h : Below pre rule)
    (hpre : Str.startsWith pre pre' = true) : Below pre' rule := by
  unfold Below at h ⊢
  split at h
  · exact Str.startsWith_trans h hpre
  · exact ⟨h.1, Str.startsWith_trans h.2 hpre⟩

theorem covers_trans : Composes covers := by
  intro first middle last hfirst hlast
  obtain ⟨⟨hvalid, -⟩, hfirst⟩ := covers_iff.mp hfirst
  obtain ⟨⟨-, hvalid'⟩, hlast⟩ := covers_iff.mp hlast
  refine covers_iff.mpr ⟨⟨hvalid, hvalid'⟩, ?_⟩
  rcases hfirst with hstar | hsame | ⟨pre, hpath, hnarrow, hbelow⟩
  · exact .inl hstar
  · rw [hsame]
    exact hlast
  · right
    right
    refine ⟨pre, hpath, hnarrow, ?_⟩
    unfold Below at hbelow
    rcases hlast with hstar | hsame | ⟨pre', hpath', -, hbelow'⟩
    · -- nothing but everything covers everything
      have hbare : Str.stripSuffix "*" "*" = some "" := by decide
      rw [hstar, hbare] at hbelow
      exact absurd hbelow (Bool.eq_false_iff.mp (startsWith_empty_of_narrow hnarrow))
    · unfold Below
      rw [← hsame]
      exact hbelow
    · rw [Str.stripSuffix_eq_some.mpr hpath'] at hbelow
      exact hbelow'.mono hbelow

end UnixPathRule

/-! ## Roots -/

theorem pathRootCovers_iff {child : String} :
    pathRootCovers parent child = true ↔
      child = parent ∨ parent = "/" ∨ ∃ rest, child = parent ++ "/" ++ rest := by
  unfold pathRootCovers
  simp only [Bool.or_eq_true, decide_eq_true_eq, or_assoc]
  refine or_congr_right (or_congr_right ?_)
  cases hstrip : Str.stripPrefix child parent with
  | none =>
    refine iff_of_false Bool.false_ne_true ?_
    rintro ⟨rest, hchild⟩
    rw [String.append_assoc] at hchild
    rw [Str.stripPrefix_eq_some.mpr hchild] at hstrip
    cases hstrip
  | some suffix =>
    have hchild := Str.stripPrefix_eq_some.mp hstrip
    rw [Str.startsWith_iff]
    constructor
    · rintro ⟨rest, rfl⟩
      refine ⟨rest, ?_⟩
      rw [hchild, String.append_assoc]
    · rintro ⟨rest, hrest⟩
      refine ⟨rest, ?_⟩
      rw [String.append_assoc] at hrest
      rw [Str.stripPrefix_eq_some.mpr hrest] at hstrip
      exact (Option.some.inj hstrip).symm

theorem eq_slash_of_covers_slash (h : pathRootCovers parent "/" = true) (hne : parent ≠ "") :
    parent = "/" := by
  rcases pathRootCovers_iff.mp h with heq | hslash | ⟨rest, hrest⟩
  · exact heq.symm
  · exact hslash
  · have hlength := congrArg (fun s : String => s.toList.length) hrest
    simp only [String.toList_append, length_append] at hlength
    have hzero : parent.toList.length = 0 := by
      have hone : "/".toList.length = 1 := rfl
      omega
    rw [length_eq_zero_iff, String.toList_eq_nil_iff] at hzero
    exact absurd hzero hne

theorem pathRootCovers_trans {first middle last : String} (hslash : middle = "/" → first = "/")
    (hfirst : pathRootCovers first middle = true) (hlast : pathRootCovers middle last = true) :
    pathRootCovers first last = true := by
  refine pathRootCovers_iff.mpr ?_
  rcases pathRootCovers_iff.mp hlast with rfl | hmiddle | ⟨rest, rfl⟩
  · exact pathRootCovers_iff.mp hfirst
  · exact .inr (.inl (hslash hmiddle))
  · rcases pathRootCovers_iff.mp hfirst with rfl | hroot | ⟨rest', rfl⟩
    · exact .inr (.inr ⟨rest, rfl⟩)
    · exact .inr (.inl hroot)
    · right
      right
      refine ⟨rest' ++ "/" ++ rest, ?_⟩
      simp only [String.append_assoc]

/-- The roots with which narrowing is transitive: the empty one comes with `/`. -/
def SlashBesideEmpty (caps : Capabilities) : Prop :=
  ∀ fs, caps.fs = some fs → "" ∈ fs.roots → "/" ∈ fs.roots

theorem rootsNarrow_trans (h : "" ∈ first → "/" ∈ first)
    (hfirst : narrows pathRootCovers first middle = true)
    (hlast : narrows pathRootCovers middle last = true) :
    narrows pathRootCovers first last = true := by
  refine narrows_trans (fun p hp m c hpm hmc => ?_) hfirst hlast
  by_cases hslash : m = "/" ∧ p = ""
  · exact ⟨"/", h (hslash.2 ▸ hp), pathRootCovers_iff.mpr (.inr (.inl rfl))⟩
  · refine ⟨p, hp, pathRootCovers_trans (fun hm => ?_) hpm hmc⟩
    rw [hm] at hpm
    exact eq_slash_of_covers_slash hpm fun hempty => hslash ⟨hm, hempty⟩

theorem fsNarrows_eq (parent child : FsCaps) : fsNarrows parent child =
    (narrows pathRootCovers parent.roots child.roots && boolNarrows child.readonly parent.readonly &&
      limitNarrows (fun parent child => decide (child ≤ parent)) parent.maxSize child.maxSize) := by
  unfold fsNarrows
  cases parent.maxSize <;> cases child.maxSize <;> rfl

theorem fsNarrows_refl (fs : FsCaps) : fsNarrows fs fs = true := by
  have hroots := @narrows_refl _ fs.roots _ fun root _ => pathRootCovers_iff.mpr (.inl rfl)
  rw [fsNarrows_eq, hroots, boolNarrows_refl]
  exact limitNarrows_refl fun size => by simp

theorem fsNarrows_trans {first middle last : FsCaps} (h : "" ∈ first.roots → "/" ∈ first.roots)
    (hfirst : fsNarrows first middle = true) (hlast : fsNarrows middle last = true) :
    fsNarrows first last = true := by
  have hle : Composes fun parent child : UInt64 => decide (child ≤ parent) := fun x y z hxy hyz =>
    decide_eq_true (UInt64.le_trans (of_decide_eq_true hyz) (of_decide_eq_true hxy))
  simp only [fsNarrows_eq, Bool.and_eq_true] at hfirst hlast ⊢
  obtain ⟨⟨hroots, hreadonly⟩, hsize⟩ := hfirst
  obtain ⟨⟨hroots', hreadonly'⟩, hsize'⟩ := hlast
  exact ⟨⟨rootsNarrow_trans h hroots hroots', boolNarrows_trans hreadonly' hreadonly⟩,
    hle.limitNarrows hsize hsize'⟩

theorem vpnNarrows_trans : Composes vpnNarrows := by
  intro first middle last hfirst hlast
  simp only [vpnNarrows, Bool.and_eq_true, decide_eq_true_eq] at hfirst hlast ⊢
  obtain ⟨⟨hmine, hpeer⟩, hmtu⟩ := hfirst
  obtain ⟨⟨hmine', hpeer'⟩, hmtu'⟩ := hlast
  exact ⟨⟨hmine.trans hmine', hpeer.trans hpeer'⟩, UInt16.le_trans hmtu' hmtu⟩

theorem metaNarrows_trans : Composes metaNarrows := by
  intro first middle last hfirst hlast
  simp only [metaNarrows, Bool.and_eq_true] at hfirst hlast ⊢
  exact ⟨boolNarrows_trans hfirst.1 hlast.1, boolNarrows_trans hfirst.2 hlast.2⟩

theorem unixNarrows_trans : Composes unixNarrows := by
  intro first middle last hfirst hlast
  have hrules : Composes unixRulesNarrow := UnixPathRule.covers_trans.narrows
  simp only [unixNarrows, Bool.and_eq_true] at hfirst hlast ⊢
  exact ⟨hrules hfirst.1 hlast.1, hrules hfirst.2 hlast.2⟩

/-! ## The whole record -/

theorem presence_trans {first middle last : UInt8} (hfirst : middle &&& ~~~first = 0)
    (hlast : last &&& ~~~middle = 0) : last &&& ~~~first = 0 := by
  rw [← UInt8.toBitVec_inj] at hfirst hlast ⊢
  ext i hi
  have hfirsti := congrArg (fun b : BitVec 8 => b.getLsbD i) hfirst
  have hlasti := congrArg (fun b : BitVec 8 => b.getLsbD i) hlast
  simp [hi] at hfirsti hlasti ⊢
  intro hbit
  exact hfirsti (hlasti hbit)

variable {caps : Capabilities}

theorem isNarrowing_refl (h : CanonicalCaps caps) : isNarrowing caps caps = true := by
  refine isNarrowing_iff.mpr ⟨?_, optionNarrows_refl fun shell _ => shellNarrows_refl shell,
    optionNarrows_refl fun rules _ => portRulesNarrow_refl rules,
    optionNarrows_refl fun rules _ => portRulesNarrow_refl rules,
    optionNarrows_refl fun fs _ => fsNarrows_refl fs, optionNarrows_refl fun vpn _ => ?_,
    optionNarrows_refl fun caps _ => ?_, optionNarrows_refl fun unix hunix => ?_⟩
  · rw [UInt8.and_not_self]
  · simp [vpnNarrows]
  · simp [metaNarrows, boolNarrows_refl]
  · obtain ⟨hconnect, hlisten⟩ := h.unix unix hunix
    rw [checkSortedUniqueUnixPathRules_eq_ok] at hconnect hlisten
    simp only [unixNarrows, unixRulesNarrow, Bool.and_eq_true]
    have hcovers : ∀ rule : UnixPathRule, rule.isValidRule true = true → rule.covers rule = true :=
      fun rule hvalid => UnixPathRule.covers_iff.mpr ⟨⟨hvalid, hvalid⟩, .inr (.inl rfl)⟩
    exact ⟨narrows_refl fun rule hrule => hcovers rule (hconnect.1 rule hrule),
      narrows_refl fun rule hrule => hcovers rule (hlisten.1 rule hrule)⟩

theorem isNarrowing_trans {first middle last : Capabilities} (h : SlashBesideEmpty first)
    (hfirst : isNarrowing first middle = true) (hlast : isNarrowing middle last = true) :
    isNarrowing first last = true := by
  have hf := isNarrowing_iff.mp hfirst
  have hl := isNarrowing_iff.mp hlast
  refine isNarrowing_iff.mpr ⟨presence_trans hf.presence hl.presence,
    shellNarrows_trans.optionNarrows hf.shell hl.shell,
    portRulesNarrow_trans.optionNarrows hf.tcp hl.tcp,
    portRulesNarrow_trans.optionNarrows hf.udp hl.udp,
    optionNarrows_trans (fun fs hfs _ _ => fsNarrows_trans (h fs hfs)) hf.fs hl.fs,
    vpnNarrows_trans.optionNarrows hf.vpn hl.vpn,
    metaNarrows_trans.optionNarrows hf.metaCaps hl.metaCaps,
    unixNarrows_trans.optionNarrows hf.unix hl.unix⟩

theorem terminal_narrows_root {P : Primitives} {roots : TrustRoots} {root : PortlTicket}
    {rest : List PortlTicket} (h : ChainShape P roots root rest)
    (hroot : SlashBesideEmpty root.body.caps) :
    ∀ ticket ∈ root :: rest, isNarrowing root.body.caps ticket.body.caps = true := by
  have hcanonical := (canonicalCheckTicket_eq_ok.mp (h.tickets root mem_cons_self).canonical).1
  have hall : ∀ i (hi : i < (root :: rest).length),
      isNarrowing root.body.caps (root :: rest)[i].body.caps = true :=
    chain_induction h.hops (isNarrowing_refl (canonicalCheck_eq_ok.mp hcanonical).1)
      fun _ _ _ hop hparent => isNarrowing_trans hroot hparent hop.caps
  intro ticket hmem
  obtain ⟨i, hi, rfl⟩ := mem_iff_getElem.mp hmem
  exact hall i hi

/-! ## Where it is not transitive -/

def rootBody (root : String) (fs : FsCaps) : PortlBody :=
  { caps :=
      { presence := 0b00001000, shell := none, tcp := none, udp := none,
        fs := some { fs with roots := [root] }, vpn := none, metaCaps := none, unix := none },
    target := sampleKey 1, alpnsExtra := [], notBefore := 100, notAfter := 200, issuer := none,
    parent := none, nonce := Vector.replicate 8 1, bearer := none, holder := none }

theorem canonicalCheck_rootBody (root : String) (fs : FsCaps) :
    canonicalCheck (rootBody root fs) = .ok () := by
  refine canonicalCheck_eq_ok.mpr ⟨⟨?_, ?_, nofun, nofun, ?_, nofun, nofun⟩, ?_⟩
  · simp only [rootBody, expectedPresence, Option.isSome_none, Option.isSome_some]
    decide
  · rintro ⟨hlisten, -⟩
    have hnone : (0b00001000 : UInt8) &&& tcpListenCapBit = 0 := by decide
    exact hlisten hnone
  · rintro fs' ⟨⟩
    rfl
  · refine ⟨rfl, ?_, ?_, ?_, nofun⟩
    all_goals
      simp only [rootBody]
      decide

theorem exists_uncovered {roots : List String} (h : "/" ∉ roots) :
    ∃ name, ∀ root ∈ roots, pathRootCovers root name = false := by
  let name (n : ℕ) : String := String.ofList (List.replicate n 'a')
  have hinj : Function.Injective name := by
    intro m n hmn
    have hlists := String.ofList_injective hmn
    simpa using congrArg List.length hlists
  obtain ⟨n, hn⟩ : ∃ n, name n ∉ roots := by
    by_contra hall
    push Not at hall
    exact Set.infinite_univ.mono (fun n _ => hall n) (Set.Finite.preimage hinj.injOn roots.finite_toSet)
  refine ⟨name n, fun root hroot => ?_⟩
  rw [Bool.eq_false_iff]
  intro hcovers
  rcases pathRootCovers_iff.mp hcovers with rfl | rfl | ⟨rest, hrest⟩
  · exact hn hroot
  · exact h hroot
  · have hslash : '/' ∈ (name n).toList := by
      rw [hrest]
      simp
    rw [String.toList_ofList] at hslash
    cases eq_of_mem_replicate hslash

theorem fs_presence (h : caps.presence = expectedPresence caps) (hfs : caps.fs.isSome = true) :
    (0b00001000 : UInt8) &&& ~~~caps.presence = 0 := by
  rw [h, expectedPresence, hfs]
  generalize caps.presence &&& tcpListenCapBit = listen
  rw [← UInt8.toBitVec_inj]
  ext i hi
  interval_cases i <;> simp

theorem isNarrowing_rootBody {fs : FsCaps} (hfs : caps.fs = some fs)
    (hpresence : (0b00001000 : UInt8) &&& ~~~caps.presence = 0) (root : String) :
    isNarrowing caps (rootBody root fs).caps = true ↔ ∃ p ∈ fs.roots, pathRootCovers p root = true := by
  have hsize : fsNarrows fs { fs with roots := [root] } =
      fs.roots.any fun p => pathRootCovers p root := by
    have hsame := fsNarrows_refl fs
    simp only [fsNarrows, Bool.and_eq_true] at hsame
    simp [fsNarrows, narrows, hsame.1.2, hsame.2]
  rw [← any_eq_true, ← hsize]
  constructor
  · intro h
    have hnarrows := (isNarrowing_iff.mp h).fs
    rw [hfs] at hnarrows
    exact hnarrows
  · intro h
    refine isNarrowing_iff.mpr ⟨hpresence, ?_, ?_, ?_, ?_, ?_, ?_, ?_⟩
    · cases caps.shell <;> rfl
    · cases caps.tcp <;> rfl
    · cases caps.udp <;> rfl
    · rw [hfs]
      exact h
    · cases caps.vpn <;> rfl
    · cases caps.metaCaps <;> rfl
    · cases caps.unix <;> rfl

theorem slashBesideEmpty_of_trans {body : PortlBody} (hcanonical : canonicalCheck body = .ok ())
    (htrans : ∀ middle last : PortlBody, canonicalCheck middle = .ok () →
      canonicalCheck last = .ok () → isNarrowing body.caps middle.caps = true →
      isNarrowing middle.caps last.caps = true → isNarrowing body.caps last.caps = true) :
    SlashBesideEmpty body.caps := by
  intro fs hfs hempty
  by_contra hslash
  obtain ⟨name, hname⟩ := exists_uncovered hslash
  have hpresence := fs_presence (canonicalCheck_eq_ok.mp hcanonical).1.presence
    (Option.isSome_iff_exists.mpr ⟨fs, hfs⟩)
  have hfirst : isNarrowing body.caps (rootBody "/" fs).caps = true :=
    (isNarrowing_rootBody hfs hpresence "/").mpr ⟨"", hempty, rfl⟩
  have hlast : isNarrowing (rootBody "/" fs).caps (rootBody name fs).caps = true := by
    have hmiddle : (rootBody "/" fs).caps.fs = some { fs with roots := ["/"] } := rfl
    have hbit : (0b00001000 : UInt8) &&& ~~~(0b00001000 : UInt8) = 0 := by decide
    exact (isNarrowing_rootBody hmiddle hbit name).mpr
      ⟨"/", mem_singleton_self _, pathRootCovers_iff.mpr (.inr (.inl rfl))⟩
  have hboth := htrans (rootBody "/" fs) (rootBody name fs) (canonicalCheck_rootBody _ _)
    (canonicalCheck_rootBody _ _) hfirst hlast
  obtain ⟨root, hroot, hcovers⟩ := (isNarrowing_rootBody hfs hpresence name).mp hboth
  rw [hname root hroot] at hcovers
  cases hcovers

/-- **Narrowing as an order.** It is reflexive on canonical capabilities, and
transitive below given ones exactly when these do not hold the empty root without
`/`; then the terminal of every verified chain on them narrows them directly. -/
theorem narrowing_preorder {body : PortlBody} (hcanonical : canonicalCheck body = .ok ()) :
    isNarrowing body.caps body.caps = true ∧
      ((∀ middle last : PortlBody, canonicalCheck middle = .ok () →
          canonicalCheck last = .ok () → isNarrowing body.caps middle.caps = true →
          isNarrowing middle.caps last.caps = true → isNarrowing body.caps last.caps = true) ↔
        SlashBesideEmpty body.caps) ∧
      (SlashBesideEmpty body.caps → ∀ (P : Primitives) (root terminal : PortlTicket)
        (chain : List PortlTicket) (roots : TrustRoots) (now : UInt64) (caps : Capabilities),
        verifyChain P terminal chain roots now = .ok caps →
        (chain ++ [terminal]).head? = some root → root.body = body →
        isNarrowing body.caps caps = true) := by
  refine ⟨isNarrowing_refl (canonicalCheck_eq_ok.mp hcanonical).1,
    ⟨slashBesideEmpty_of_trans hcanonical, fun h _ _ _ _ => isNarrowing_trans h⟩, ?_⟩
  intro h P root terminal chain roots now caps hverify hhead hbody
  obtain ⟨root', rest, hall, hshape, -, -, rfl⟩ := verifyChain_eq_ok.mp hverify
  rw [hall] at hhead
  obtain rfl := Option.some.inj hhead
  subst hbody
  apply terminal_narrows_root hshape h
  rw [← hall]
  exact mem_append_right _ (mem_singleton_self _)

theorem narrowing_preorder_sample :
    isNarrowing sampleCaps sampleCaps = true ∧
      isNarrowing (rootBody "/" ⟨[], true, none⟩).caps (rootBody "/srv/www" ⟨[], true, none⟩).caps = true ∧
      isNarrowing sampleRoot.body.caps (sampleChild none).body.caps = true := by
  have hcanonical : canonicalCheck sampleRoot.body = .ok () := by decide +kernel
  have hchain : verifyChain (.transparent []) (sampleChild none) [sampleRoot] {sampleKey 1} 150 =
      .ok sampleCaps := by decide +kernel
  have hroot := narrowing_preorder (canonicalCheck_rootBody "/" ⟨[], true, none⟩)
  refine ⟨(narrowing_preorder hcanonical).1, ?_, ?_⟩
  · refine hroot.2.1.mpr ?_ (rootBody "/srv" ⟨[], true, none⟩) (rootBody "/srv/www" ⟨[], true, none⟩)
      (canonicalCheck_rootBody _ _) (canonicalCheck_rootBody _ _) (by decide) (by decide)
    rintro fs ⟨⟩ -
    exact mem_singleton_self _
  · exact (narrowing_preorder hcanonical).2.2 nofun _ sampleRoot (sampleChild none) [sampleRoot] _ _ _
      hchain rfl rfl

/-- The empty root covers `/` and `/` covers `etc`, which the empty root does not. -/
theorem narrowing_not_transitive :
    (canonicalCheck (rootBody "" ⟨[], true, none⟩) = .ok () ∧
      canonicalCheck (rootBody "/" ⟨[], true, none⟩) = .ok () ∧
      canonicalCheck (rootBody "etc" ⟨[], true, none⟩) = .ok ()) ∧
    isNarrowing (rootBody "" ⟨[], true, none⟩).caps (rootBody "/" ⟨[], true, none⟩).caps = true ∧
    isNarrowing (rootBody "/" ⟨[], true, none⟩).caps (rootBody "etc" ⟨[], true, none⟩).caps = true ∧
    isNarrowing (rootBody "" ⟨[], true, none⟩).caps (rootBody "etc" ⟨[], true, none⟩).caps =
      false := by
  decide +kernel

end Portl
