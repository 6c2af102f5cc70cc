import Mathlib.Data.Finset.Insert
import Mathlib.Data.List.Chain
import Portl.Caps.Narrowing
import Portl.Ticket.Crypto

/-!
# Delegation chains

`ticket/verify.rs`. `verify_chain` looks at one ticket or at two neighbours at
a time. The facts an operator relies on are about the whole chain — one key, one
target, a depth that counts down from the root, nested windows, one bearer — and
they come out by chain induction from what a hop preserves (`HopLinked`).

`HopLinked` and `ChainShape` leave the bearer and the clock out, so that the
agent's own copy of the loop (`Agent/Pipeline.lean`) is read against them too.
-/

namespace Portl

open Checks List

variable (P : Primitives)

def maxDelegationDepth : UInt8 := 8

abbrev TrustRoots : Type := Finset Bytes32

def checkTimeWindow (ticket : PortlTicket) (now : UInt64) : Except PortlError Unit := do
  failIf (Word.saturatingAdd now 60 < ticket.body.notBefore) (.clock "ticket not yet valid")
  failIf (now ≥ ticket.body.notAfter) (.clock "ticket expired")

/-- The body of the first loop of `verify_chain`. -/
def checkChainTicket (target : Bytes32) (now : UInt64) (ticket : PortlTicket) :
    Except PortlError Unit := do
  canonicalCheckTicket ticket
  failIf (ticket.v ≠ 1) (.ticket "unsupported ticket version")
  failIf (ticket.addr.id ≠ target) (.chain "mismatched endpoint_id in chain")
  checkTimeWindow ticket now

/-- The depth a child of this ticket must carry; `none` when the parent's is
used up. -/
def expectedDepth (parent : PortlTicket) : Option UInt8 :=
  match parent.body.parent with
  | some delegation => Word.checkedSub delegation.depthRemaining 1
  | none => some (maxDelegationDepth - 1)

/-- The body of the second loop of `verify_chain`, on the running parent and
the next child. -/
def verifyHop (parent child : PortlTicket) : Except PortlError Unit := do
  let parentRef ← okOr child.body.parent (.chain "delegated ticket missing parent")
  let parentKey := resolvedIssuer parent
  verifyBody P parentKey child.body child.sig
  failIf (resolvedIssuer child ≠ parentKey)
    (.chain "child issuer does not match parent authority")
  failIf (parentRef.parentTicketId ≠ parentTicketId P parent.sig)
    (.chain "parent ticket id mismatch")
  failIf (isNarrowing parent.body.caps child.body.caps = false)
    (.chain "child caps widen parent")
  failIf (child.body.notBefore < parent.body.notBefore ∨
      child.body.notAfter > parent.body.notAfter)
    (.chain "child validity window escapes parent")
  failIf (parent.body.bearer.isSome = true ∧ child.body.bearer ≠ parent.body.bearer)
    (.chain "child bearer differs from parent")
  failIf (parent.body.bearer.isNone = true ∧ child.body.bearer.isSome = true)
    (.chain "child introduces bearer not present in parent")
  let expected ← okOr (expectedDepth parent) (.chain "parent depth exhausted")
  failIf (parentRef.depthRemaining ≠ expected) (.chain "depth_remaining mismatch")

def verifyChain (terminal : PortlTicket) (chain : List PortlTicket) (roots : TrustRoots)
    (now : UInt64) : Except PortlError Capabilities :=
  match chain ++ [terminal] with
  | [] => .error (.chain "empty chain")
  | root :: rest => do
    failIf ((root :: rest).length > maxDelegationDepth.toNat + 1)
      (.chain "delegation depth exceeded")
    forEach (checkChainTicket root.addr.id now) (root :: rest)
    failIf (root.body.parent.isSome = true) (.chain "root ticket must not have parent")
    failIf (resolvedIssuer root ∉ roots) (.chain "unknown root")
    verifyBody P (resolvedIssuer root) root.body root.sig
    walk (verifyHop P) root rest
    .ok terminal.body.caps

/-! ## What one check says -/

/-- `now` lies in the ticket's window, with sixty seconds of slack before it
opens and none after it closes. -/
def InWindow (now : UInt64) (ticket : PortlTicket) : Prop :=
  ticket.body.notBefore.toNat ≤ now.toNat + 60 ∧ now < ticket.body.notAfter

structure TicketShape (target : Bytes32) (ticket : PortlTicket) : Prop where
  canonical : canonicalCheckTicket ticket = .ok ()
  version : ticket.v = 1
  endpoint : ticket.addr.id = target

structure HopLinked (parent child : PortlTicket) : Prop where
  link : ∃ d, child.body.parent = some d ∧
    d.parentTicketId = parentTicketId P parent.sig ∧
    expectedDepth parent = some d.depthRemaining
  signed : SignatureValid P (resolvedIssuer parent) child.body child.sig
  issuer : resolvedIssuer child = resolvedIssuer parent
  caps : isNarrowing parent.body.caps child.body.caps = true
  window : parent.body.notBefore ≤ child.body.notBefore ∧
    child.body.notAfter ≤ parent.body.notAfter

structure ChainShape (roots : TrustRoots) (root : PortlTicket) (rest : List PortlTicket) :
    Prop where
  length_le : (root :: rest).length ≤ 9
  tickets : ∀ t ∈ root :: rest, TicketShape root.addr.id t
  root_parent : root.body.parent = none
  root_trusted : resolvedIssuer root ∈ roots
  root_signed : SignatureValid P (resolvedIssuer root) root.body root.sig
  hops : List.IsChain (HopLinked P) (root :: rest)

def BearerInherited (ts : List PortlTicket) : Prop :=
  List.IsChain (fun parent child => child.body.bearer = parent.body.bearer) ts

variable {P} {now : UInt64} {roots : TrustRoots} {ticket child parent : PortlTicket}
  {caps : Capabilities} {chain : List PortlTicket}

theorem checkTimeWindow_eq_ok : checkTimeWindow ticket now = .ok () ↔ InWindow now ticket := by
  simp only [checkTimeWindow, InWindow, bind_eq_ok, failIf_eq_ok, exists_const,
    Word.saturatingAdd_lt_iff, ge_iff_le, UInt64.not_le, Nat.not_lt]
  rfl

theorem checkChainTicket_eq_ok {target : Bytes32} :
    checkChainTicket target now ticket = .ok () ↔
      TicketShape target ticket ∧ InWindow now ticket := by
  simp only [checkChainTicket, bind_eq_ok, exists_unit_ok, failIf_eq_ok, exists_const,
    checkTimeWindow_eq_ok, ne_eq, not_not]
  constructor
  · rintro ⟨hcan, hv, hid, hwin⟩
    exact ⟨⟨hcan, hv, hid⟩, hwin⟩
  · rintro ⟨⟨hcan, hv, hid⟩, hwin⟩
    exact ⟨hcan, hv, hid, hwin⟩

theorem bearer_guards {parent child : Option Bytes} :
    (¬ (parent.isSome = true ∧ child ≠ parent) ∧
      ¬ (parent.isNone = true ∧ child.isSome = true)) ↔ child = parent := by
  cases parent <;> cases child <;> simp

theorem verifyHop_eq_ok :
    verifyHop P parent child = .ok () ↔
      HopLinked P parent child ∧ child.body.bearer = parent.body.bearer := by
  simp only [verifyHop, bind_eq_ok, okOr_eq_ok, exists_unit_ok, failIf_eq_ok, exists_const,
    verifyBody_eq_ok, ne_eq, not_not, Bool.not_eq_false]
  constructor
  · rintro ⟨d, hd, hsig, hiss, hpid, hcaps, hwin, hb₁, hb₂, depth, hdepth, heq⟩
    push Not at hwin
    refine ⟨⟨⟨d, hd, hpid, by rw [hdepth, heq]⟩, hsig, hiss, hcaps, ?_⟩,
      bearer_guards.mp ⟨hb₁, hb₂⟩⟩
    exact ⟨UInt64.not_lt.mp hwin.1, UInt64.not_lt.mp hwin.2⟩
  · rintro ⟨⟨⟨d, hd, hpid, hdepth⟩, hsig, hiss, hcaps, hwin⟩, hb⟩
    obtain ⟨hb₁, hb₂⟩ := bearer_guards.mpr hb
    refine ⟨d, hd, hsig, hiss, hpid, hcaps, ?_, hb₁, hb₂, d.depthRemaining, hdepth, rfl⟩
    rintro (hlt | hgt)
    · exact UInt64.not_le.mpr hlt hwin.1
    · exact UInt64.not_le.mpr hgt hwin.2

/-- **`verify_chain`, taken apart once.** Success is the shape of the chain,
every window, and an inherited bearer; the answer is the terminal's caps. -/
theorem verifyChain_eq_ok {terminal : PortlTicket} :
    verifyChain P terminal chain roots now = .ok caps ↔
      ∃ root rest, chain ++ [terminal] = root :: rest ∧ ChainShape P roots root rest ∧
        (∀ t ∈ root :: rest, InWindow now t) ∧ BearerInherited (root :: rest) ∧
        caps = terminal.body.caps := by
  unfold verifyChain
  split
  · rename_i hnil
    simp at hnil
  rename_i root rest hcons
  simp only [bind_eq_ok, exists_unit_ok, failIf_eq_ok, exists_const, forEach_eq_ok,
    checkChainTicket_eq_ok, verifyBody_eq_ok, walk_eq_ok, verifyHop_eq_ok, not_not,
    Bool.not_eq_true, Option.isSome_eq_false_iff, Option.isNone_iff_eq_none]
  constructor
  · rintro ⟨hlen, htickets, hparent, htrust, hsig, hhops, hcaps⟩
    refine ⟨root, rest, hcons, ⟨?_, ?_, hparent, htrust, hsig, ?_⟩, ?_, ?_, ?_⟩
    · exact Nat.not_lt.mp hlen
    · exact fun t ht => (htickets t ht).1
    · exact hhops.imp fun _ _ h => h.1
    · exact fun t ht => (htickets t ht).2
    · exact hhops.imp fun _ _ h => h.2
    · exact (Except.ok.inj hcaps).symm
  · rintro ⟨root', rest', heq, hshape, hwin, hbearer, rfl⟩
    obtain ⟨rfl, rfl⟩ := List.cons.inj (hcons.symm.trans heq)
    refine ⟨Nat.not_lt.mpr hshape.length_le, fun t ht => ⟨hshape.tickets t ht, hwin t ht⟩,
      hshape.root_parent, hshape.root_trusted, hshape.root_signed, ?_, rfl⟩
    -- one walk checks links and bearers, so the two chains are zipped again
    rw [isChain_iff_getElem]
    intro i hi
    exact ⟨isChain_iff_getElem.mp hshape.hops i hi,
      isChain_iff_getElem.mp hbearer i hi⟩

/-! ## Global facts, by chain induction -/

section Global

variable {roots : TrustRoots} {root : PortlTicket} {rest : List PortlTicket}

/-- The position of a ticket, as its delegation link states it: no link at the
root, and `8 - i` left at position `i` below it. -/
def DepthAt (i : ℕ) (ticket : PortlTicket) : Prop :=
  match i with
  | 0 => ticket.body.parent = none
  | i + 1 => ∃ d, ticket.body.parent = some d ∧ d.depthRemaining.toNat + (i + 1) = 8

variable {child parent : PortlTicket}

theorem depthAt_succ {i : ℕ} (hhop : HopLinked P parent child) (hparent : DepthAt i parent) :
    DepthAt (i + 1) child := by
  obtain ⟨d, hd, -, hdepth⟩ := hhop.link
  refine ⟨d, hd, ?_⟩
  unfold expectedDepth at hdepth
  cases i with
  | zero =>
    -- the root states no depth of its own; its child starts one below the maximum
    rw [show parent.body.parent = none from hparent, Option.some.injEq] at hdepth
    rw [← hdepth]
    rfl
  | succ i =>
    obtain ⟨dp, hdp, hsum⟩ := hparent
    rw [hdp] at hdepth
    have hsub := Word.checkedSub_eq_some.mp hdepth
    have hone : (1 : UInt8).toNat = 1 := rfl
    omega

variable (h : ChainShape P roots root rest)
include h

theorem ChainShape.depthAt : ∀ i (hi : i < (root :: rest).length), DepthAt i (root :: rest)[i] :=
  chain_induction h.hops h.root_parent fun _ _ _ => depthAt_succ

theorem ChainShape.issuer_eq : ∀ t ∈ root :: rest, resolvedIssuer t = resolvedIssuer root :=
  chain_const (fun _ _ hop => HopLinked.issuer hop) h.hops

/-- Every ticket carries a signature of the one key of its chain: the root's
own, and for a child the key of its parent, which is that key too. -/
theorem ChainShape.signed :
    ∀ i (hi : i < (root :: rest).length),
      SignatureValid P (resolvedIssuer root) (root :: rest)[i].body (root :: rest)[i].sig := by
  intro i hi
  cases i with
  | zero => exact h.root_signed
  | succ i =>
    have hhop := isChain_iff_getElem.mp h.hops i hi
    rw [← h.issuer_eq _ (getElem_mem (Nat.lt_of_succ_lt hi))]
    exact hhop.signed

theorem ChainShape.target_eq : ∀ t ∈ root :: rest, t.body.target = root.addr.id := by
  intro t ht
  have hshape := h.tickets t ht
  rw [(canonicalCheckTicket_eq_ok.mp hshape.canonical).2.1, hshape.endpoint]

theorem ChainShape.window_nested :
    ∀ i j (_ : i < j) (hj : j < (root :: rest).length),
      (root :: rest)[i].body.notBefore ≤ (root :: rest)[j].body.notBefore ∧
      (root :: rest)[j].body.notAfter ≤ (root :: rest)[i].body.notAfter := by
  refine chain_le ?_ (h.hops.imp fun _ _ hop => hop.window)
  rintro a b c ⟨hab, hab'⟩ ⟨hbc, hbc'⟩
  exact ⟨UInt64.le_trans hab hbc, UInt64.le_trans hbc' hab'⟩

omit h

theorem bearer_eq_root (h : BearerInherited (root :: rest)) :
    ∀ t ∈ root :: rest, t.body.bearer = root.body.bearer :=
  chain_const (fun _ _ hop => hop) h

/-- A linked child can always be put at the end. The length bound comes from
the depth counter: a child's link at position 9 could not be written down. -/
theorem ChainShape.snoc (h : ChainShape P roots root rest)
    (hlast : (root :: rest).getLast? = some parent) (hhop : HopLinked P parent child)
    (hshape : TicketShape root.addr.id child) : ChainShape P roots root (rest ++ [child]) := by
  have hlen : rest.length < (root :: rest).length := Nat.lt_succ_self _
  have hparent : (root :: rest)[rest.length] = parent := by
    rw [List.getLast?_eq_some_getLast (cons_ne_nil _ _),
      getLast_eq_getElem] at hlast
    exact Option.some.inj hlast
  -- the child's own counter is what keeps the longer chain within nine tickets
  have hdepth := h.depthAt rest.length hlen
  rw [hparent] at hdepth
  obtain ⟨d, -, hsum⟩ := depthAt_succ hhop hdepth
  refine ⟨?_, ?_, h.root_parent, h.root_trusted, h.root_signed, ?_⟩
  · rw [length_cons, length_append, length_singleton]
    omega
  · intro t ht
    rw [← cons_append, mem_append, mem_singleton] at ht
    rcases ht with ht | rfl
    · exact h.tickets t ht
    · exact hshape
  · rw [← cons_append, isChain_append]
    refine ⟨h.hops, isChain_singleton _, ?_⟩
    rintro x hx y ⟨⟩
    rw [hlast] at hx
    obtain rfl := Option.some.inj hx
    exact hhop

theorem bearerInherited_snoc (hlast : (root :: rest).getLast? = some parent) :
    BearerInherited (root :: (rest ++ [child])) ↔
      BearerInherited (root :: rest) ∧ child.body.bearer = parent.body.bearer := by
  unfold BearerInherited
  rw [← cons_append, isChain_append, hlast]
  simp

end Global

/-- Putting a linked, in-window child below a verified ticket: the bearer is
the one thing left to compare. -/
theorem verifyChain_extend {parentCaps : Capabilities}
    (h : verifyChain P parent chain roots now = .ok parentCaps) (hhop : HopLinked P parent child)
    (hshape : TicketShape parent.addr.id child) (hwin : InWindow now child) :
    verifyChain P child (chain ++ [parent]) roots now = .ok caps ↔
      child.body.bearer = parent.body.bearer ∧ caps = child.body.caps := by
  obtain ⟨root, rest, heq, hchain, hwins, hbearer, -⟩ := verifyChain_eq_ok.mp h
  have hlast : (root :: rest).getLast? = some parent := by
    rw [← heq, List.getLast?_concat]
  have hmem : parent ∈ root :: rest := mem_of_getLast? hlast
  rw [(hchain.tickets parent hmem).endpoint] at hshape
  rw [verifyChain_eq_ok]
  constructor
  · rintro ⟨root', rest', heq', -, -, hbearer', hcaps⟩
    rw [heq, cons_append] at heq'
    obtain ⟨rfl, rfl⟩ := List.cons.inj heq'
    exact ⟨((bearerInherited_snoc hlast).mp hbearer').2, hcaps⟩
  · rintro ⟨hb, hcaps⟩
    refine ⟨root, rest ++ [child], by rw [heq, cons_append],
      hchain.snoc hlast hhop hshape, ?_, (bearerInherited_snoc hlast).mpr ⟨hbearer, hb⟩, hcaps⟩
    intro t ht
    rw [← cons_append, mem_append, mem_singleton] at ht
    rcases ht with ht | rfl
    · exact hwins t ht
    · exact hwin

/-- What an accepted chain `t_0 .. t_n` guarantees, position by position. -/
structure ChainSound (P : Primitives) (roots : TrustRoots) (now : UInt64)
    (ts : List PortlTicket) : Prop where
  length_le : ts.length ≤ 8 + 1
  root_trusted : ∀ t₀, ts.head? = some t₀ → resolvedIssuer t₀ ∈ roots
  one_key : ∀ t₀, ts.head? = some t₀ → ∀ i (hi : i < ts.length),
    resolvedIssuer ts[i] = resolvedIssuer t₀ ∧
      SignatureValid P (resolvedIssuer t₀) ts[i].body ts[i].sig
  one_target : ∀ i j (hi : i < ts.length) (hj : j < ts.length),
    ts[i].body.target = ts[j].body.target ∧ ts[i].addr.id = ts[i].body.target
  root_parent : ∀ t₀, ts.head? = some t₀ → t₀.body.parent = none
  linked : ∀ i (hi : i + 1 < ts.length), ∃ d, ts[i + 1].body.parent = some d ∧
    d.parentTicketId = parentTicketId P ts[i].sig ∧ d.depthRemaining.toNat = 8 - (i + 1)
  nested : ∀ i j (_ : i < j) (hj : j < ts.length),
    ts[i].body.notBefore ≤ ts[j].body.notBefore ∧ ts[j].body.notAfter ≤ ts[i].body.notAfter
  in_window : ∀ i (hi : i < ts.length),
    ts[i].body.notBefore.toNat ≤ now.toNat + 60 ∧ now < ts[i].body.notAfter
  one_bearer : ∀ i j (hi : i < ts.length) (hj : j < ts.length),
    ts[i].body.bearer = ts[j].body.bearer

theorem chainSound_of_shape {root : PortlTicket} {rest : List PortlTicket}
    (h : ChainShape P roots root rest) (hwin : ∀ t ∈ root :: rest, InWindow now t)
    (hbearer : BearerInherited (root :: rest)) : ChainSound P roots now (root :: rest) where
  length_le := h.length_le
  root_trusted := by
    rintro t₀ ⟨⟩
    exact h.root_trusted
  one_key := by
    rintro t₀ ⟨⟩ i hi
    exact ⟨h.issuer_eq _ (getElem_mem hi), h.signed i hi⟩
  one_target := by
    intro i j hi hj
    have hti := h.target_eq _ (getElem_mem hi)
    refine ⟨by rw [hti, h.target_eq _ (getElem_mem hj)], ?_⟩
    rw [hti, (h.tickets _ (getElem_mem hi)).endpoint]
  root_parent := by
    rintro t₀ ⟨⟩
    exact h.root_parent
  linked := by
    intro i hi
    obtain ⟨d, hd, hpid, -⟩ := (isChain_iff_getElem.mp h.hops i hi).link
    obtain ⟨d', hd', hdepth⟩ := h.depthAt (i + 1) hi
    rw [hd] at hd'
    obtain rfl := Option.some.inj hd'
    exact ⟨d, hd, hpid, by omega⟩
  nested := h.window_nested
  in_window := fun i hi => hwin _ (getElem_mem hi)
  one_bearer := by
    intro i j hi hj
    rw [bearer_eq_root hbearer _ (getElem_mem hi),
      bearer_eq_root hbearer _ (getElem_mem hj)]

/-- **`verify_chain` is sound for chains of any length.** The loop compares
neighbours only; the conclusion is about the whole chain. -/
theorem verifyChain_sound {terminal : PortlTicket} {chain : List PortlTicket}
    {roots : TrustRoots} {now : UInt64} {caps : Capabilities}
    (h : verifyChain P terminal chain roots now = .ok caps) :
    ChainSound P roots now (chain ++ [terminal]) ∧ caps = terminal.body.caps := by
  obtain ⟨root, rest, heq, hshape, hwin, hbearer, hcaps⟩ := verifyChain_eq_ok.mp h
  rw [heq]
  exact ⟨chainSound_of_shape hshape hwin hbearer, hcaps⟩

/-! ### A two-ticket chain -/

def sampleKey (b : UInt8) : Bytes32 := Vector.replicate 32 b

def sampleCaps : Capabilities :=
  { presence := 0b00000010, shell := none, tcp := some [⟨"*", 0, 65535⟩], udp := none,
    fs := none, vpn := none, metaCaps := none, unix := none }

/-- A ticket `key` issues for itself, valid from 100 to 200. -/
def sampleTicket (key : Bytes32) (nonce : UInt8) (parent : Option Delegation)
    (bearer : Option Bytes) : PortlTicket :=
  { v := 1, addr := ⟨key, []⟩,
    body :=
      { caps := sampleCaps, target := key, alpnsExtra := [], notBefore := 100,
        notAfter := 200, issuer := none, parent := parent,
        nonce := Vector.replicate 8 nonce, bearer := bearer, holder := none },
    sig := transparentSign key (List.replicate 8 nonce) }

def sampleRoot : PortlTicket := sampleTicket (sampleKey 1) 1 none none

def sampleChild (bearer : Option Bytes) : PortlTicket :=
  sampleTicket (sampleKey 1) 2
    (some ⟨parentTicketId (.transparent []) sampleRoot.sig, 7⟩) bearer

theorem verifyChain_sound_two :
    verifyChain (.transparent []) (sampleChild none) [sampleRoot] {sampleKey 1} 150 =
      .ok sampleCaps ∧
    ChainSound (.transparent []) {sampleKey 1} 150 [sampleRoot, sampleChild none] := by
  have h : verifyChain (.transparent []) (sampleChild none) [sampleRoot] {sampleKey 1} 150 =
      .ok sampleCaps := by decide +kernel
  exact ⟨h, (verifyChain_sound h).1⟩

end Portl
