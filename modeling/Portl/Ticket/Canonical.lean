import Portl.Lib.Checks
import Portl.Lib.Word
import Portl.Ticket.Schema

/-!
# Canonical form

`ticket/canonical.rs`: the rules a body and a ticket must meet before any
signature work. The `windows(2)` loops are `walk`s: two neighbours at a time,
in order, first offence reported.
-/

namespace Portl

open Checks

/-- `PortlError`, restricted to the variants the ticket code raises. -/
inductive PortlError where
  | postcard
  | canonical (reason : String)
  | signature (reason : String)
  | ticket (reason : String)
  | chain (reason : String)
  | clock (reason : String)
deriving DecidableEq

def maxTtlSeconds : UInt64 := 365 * 86400

/-! ## Sorted and unique -/

/-- The comparison inside every `windows(2)` loop. -/
def checkOrder {α : Type} (cmp : α → α → Ordering) (duplicate unsorted : String)
    (a b : α) : Except PortlError Unit :=
  match cmp a b with
  | .lt => .ok ()
  | .eq => .error (.canonical duplicate)
  | .gt => .error (.canonical unsorted)

def checkSortedUnique {α : Type} (cmp : α → α → Ordering) (duplicate unsorted : String)
    (v : List α) : Except PortlError Unit :=
  match v with
  | [] => .ok ()
  | a :: as => walk (checkOrder cmp duplicate unsorted) a as

def portruleOrd (a b : PortRule) : Ordering :=
  ((compare a.hostGlob b.hostGlob).then (compare a.portMin b.portMin)).then
    (compare a.portMax b.portMax)

def checkSortedUniquePortRules (rules : List PortRule) : Except PortlError Unit :=
  checkSortedUnique portruleOrd "duplicate port rule" "port rules not sorted" rules

def duplicateStringReason (tag : String) : String :=
  match tag with
  | "fs.roots" => "duplicate fs.roots entry"
  | "shell.user_allowlist" => "duplicate shell.user_allowlist entry"
  | "shell.command_allowlist" => "duplicate shell.command_allowlist entry"
  | "env.allow" => "duplicate env.allow entry"
  | _ => "duplicate string entry"

def unsortedStringReason (tag : String) : String :=
  match tag with
  | "fs.roots" => "fs.roots not sorted"
  | "shell.user_allowlist" => "shell.user_allowlist not sorted"
  | "shell.command_allowlist" => "shell.command_allowlist not sorted"
  | "env.allow" => "env.allow not sorted"
  | _ => "string vec not sorted"

def checkSortedUniqueStrings (v : List String) (tag : String) : Except PortlError Unit :=
  checkSortedUnique compare (duplicateStringReason tag) (unsortedStringReason tag) v

def invalidUnixReason (tag : String) : String :=
  match tag with
  | "unix.connect" => "invalid unix.connect path rule"
  | "unix.listen" => "invalid unix.listen path rule"
  | _ => "invalid unix path rule"

def duplicateUnixReason (tag : String) : String :=
  match tag with
  | "unix.connect" => "duplicate unix.connect path rule"
  | "unix.listen" => "duplicate unix.listen path rule"
  | _ => "duplicate unix path rule"

def unsortedUnixReason (tag : String) : String :=
  match tag with
  | "unix.connect" => "unix.connect path rules not sorted"
  | "unix.listen" => "unix.listen path rules not sorted"
  | _ => "unix path rules not sorted"

def checkSortedUniqueUnixPathRules (rules : List UnixPathRule) (tag : String) :
    Except PortlError Unit := do
  forEach (fun rule =>
    failIf (rule.isValidRule true = false) (.canonical (invalidUnixReason tag))) rules
  checkSortedUnique (fun a b : UnixPathRule => compare a.path b.path)
    (duplicateUnixReason tag) (unsortedUnixReason tag) rules

def checkEnvPolicySorted (envPolicy : EnvPolicy) : Except PortlError Unit :=
  match envPolicy with
  | .deny => .ok ()
  | .merge none => .ok ()
  | .merge (some v) => checkSortedUniqueStrings v "env.allow"
  | .replace base =>
    checkSortedUnique (fun a b : String × String => compare a.1 b.1)
      "duplicate env.replace key" "env.replace not sorted by key" base

def checkShellCapsSorted (s : ShellCaps) : Except PortlError Unit := do
  whenSome s.userAllowlist fun v => checkSortedUniqueStrings v "shell.user_allowlist"
  whenSome s.commandAllowlist fun v => checkSortedUniqueStrings v "shell.command_allowlist"
  checkEnvPolicySorted s.envPolicy

/-! ## Presence bitmap -/

/-- The bitmap the `Some` fields call for, with the listen bit taken as given. -/
def expectedPresence (caps : Capabilities) : UInt8 :=
  caps.shell.isSome.toUInt8 ||| (caps.tcp.isSome.toUInt8 <<< 1) |||
    (caps.udp.isSome.toUInt8 <<< 2) ||| (caps.fs.isSome.toUInt8 <<< 3) |||
    (caps.vpn.isSome.toUInt8 <<< 4) ||| (caps.metaCaps.isSome.toUInt8 <<< 5) |||
    (caps.unix.isSome.toUInt8 <<< 6) ||| (caps.presence &&& tcpListenCapBit)

def checkPresenceBitmap (caps : Capabilities) : Except PortlError Unit := do
  failIf (caps.presence ≠ expectedPresence caps)
    (.canonical "presence bitmap does not match Some-set")
  failIf (caps.presence &&& tcpListenCapBit ≠ 0 ∧ caps.tcp.isNone = true)
    (.canonical "tcp listen flag requires tcp caps")

/-! ## Bodies and tickets -/

def canonicalCheck (body : PortlBody) : Except PortlError Unit := do
  checkPresenceBitmap body.caps
  whenSome body.caps.tcp checkSortedUniquePortRules
  whenSome body.caps.udp checkSortedUniquePortRules
  whenSome body.caps.fs fun fs => checkSortedUniqueStrings fs.roots "fs.roots"
  whenSome body.caps.shell checkShellCapsSorted
  whenSome body.caps.unix fun unix => do
    checkSortedUniqueUnixPathRules unix.connect "unix.connect"
    checkSortedUniqueUnixPathRules unix.listen "unix.listen"
  failIf (body.alpnsExtra ≠ []) (.canonical "alpns_extra must be empty in v0.1")
  failIf (body.notAfter ≤ body.notBefore) (.canonical "not_after must be > not_before")
  failIf (Word.saturatingSub body.notAfter body.notBefore > maxTtlSeconds)
    (.canonical "ttl exceeds 365 days")
  failIf (body.nonce = Vector.replicate 8 0) (.canonical "nonce must be non-zero")
  failIf (body.bearer = some []) (.canonical "bearer must be Some(non-empty) or None")

def canonicalCheckTicket (ticket : PortlTicket) : Except PortlError Unit := do
  canonicalCheck ticket.body
  failIf (ticket.body.target ≠ ticket.addr.id)
    (.canonical "body.target does not match addr.endpoint_id")
  failIf (ticket.body.issuer = some ticket.addr.id)
    (.canonical "issuer equals addr.endpoint_id; MUST use None (rule 1)")

/-- The effective signing key: an elided issuer stands for the endpoint
itself. -/
def resolvedIssuer (ticket : PortlTicket) : Bytes32 :=
  ticket.body.issuer.getD ticket.addr.id

theorem canonicalCheckTicket_eq_ok {ticket : PortlTicket} :
    canonicalCheckTicket ticket = .ok () ↔
      canonicalCheck ticket.body = .ok () ∧ ticket.body.target = ticket.addr.id ∧
        ticket.body.issuer ≠ some ticket.addr.id := by
  simp only [canonicalCheckTicket, bind_eq_ok, exists_unit_ok, failIf_eq_ok, exists_const,
    ne_eq, not_not]

/-! ## What canonical form says -/

theorem checkSortedUnique_eq_ok {α : Type} {cmp : α → α → Ordering} {duplicate unsorted : String}
    {v : List α} :
    checkSortedUnique cmp duplicate unsorted v = .ok () ↔ v.IsChain fun a b => cmp a b = .lt := by
  have horder : ∀ a b, checkOrder cmp duplicate unsorted a b = .ok () ↔ cmp a b = .lt := by
    intro a b
    unfold checkOrder
    cases cmp a b <;> simp
  cases v with
  | nil => simp [checkSortedUnique]
  | cons a as => simp [checkSortedUnique, walk_eq_ok, horder]

structure CanonicalCaps (caps : Capabilities) : Prop where
  presence : caps.presence = expectedPresence caps
  listen : ¬ (caps.presence &&& tcpListenCapBit ≠ 0 ∧ caps.tcp.isNone = true)
  tcp : ∀ rules, caps.tcp = some rules → checkSortedUniquePortRules rules = .ok ()
  udp : ∀ rules, caps.udp = some rules → checkSortedUniquePortRules rules = .ok ()
  fs : ∀ fs, caps.fs = some fs → checkSortedUniqueStrings fs.roots "fs.roots" = .ok ()
  shell : ∀ shell, caps.shell = some shell → checkShellCapsSorted shell = .ok ()
  unix : ∀ unix, caps.unix = some unix →
    checkSortedUniqueUnixPathRules unix.connect "unix.connect" = .ok () ∧
      checkSortedUniqueUnixPathRules unix.listen "unix.listen" = .ok ()

structure CanonicalTerms (body : PortlBody) : Prop where
  alpnsExtra : body.alpnsExtra = []
  window : ¬ body.notAfter ≤ body.notBefore
  ttl : ¬ Word.saturatingSub body.notAfter body.notBefore > maxTtlSeconds
  nonce : body.nonce ≠ Vector.replicate 8 0
  bearer : body.bearer ≠ some []

theorem canonicalCheck_eq_ok {body : PortlBody} :
    canonicalCheck body = .ok () ↔ CanonicalCaps body.caps ∧ CanonicalTerms body := by
  simp only [canonicalCheck, checkPresenceBitmap, bind_eq_ok, exists_unit_ok, failIf_eq_ok,
    exists_const, whenSome_eq_ok, ne_eq, not_not]
  constructor
  · rintro ⟨⟨hpresence, hlisten⟩, htcp, hudp, hfs, hshell, hunix, halpns, hwindow, httl, hnonce,
      hbearer⟩
    exact ⟨⟨hpresence, hlisten, htcp, hudp, hfs, hshell, hunix⟩,
      ⟨halpns, hwindow, httl, hnonce, hbearer⟩⟩
  · rintro ⟨hcaps, hterms⟩
    exact ⟨⟨hcaps.presence, hcaps.listen⟩, hcaps.tcp, hcaps.udp, hcaps.fs, hcaps.shell, hcaps.unix,
      hterms.alpnsExtra, hterms.window, hterms.ttl, hterms.nonce, hterms.bearer⟩

theorem checkSortedUniqueUnixPathRules_eq_ok {rules : List UnixPathRule} {tag : String} :
    checkSortedUniqueUnixPathRules rules tag = .ok () ↔
      (∀ rule ∈ rules, rule.isValidRule true = true) ∧
        rules.IsChain fun a b => compare a.path b.path = .lt := by
  simp [checkSortedUniqueUnixPathRules, bind_eq_ok, forEach_eq_ok, failIf_eq_ok, checkSortedUnique_eq_ok]

end Portl
