import Portl.Lib.Str

/-!
# Ticket schema v1

`PortlTicket`, `PortlBody`, `Capabilities` and their parts
(`ticket/schema.rs`), field for field. Byte arrays are fixed-length vectors;
`u8`, `u16` and `u64` are Lean's own words; a `HashSet` of keys is a `Finset`.

The dialing part of an `EndpointAddr` is carried but never read. Two fields are
renamed because their source names are Lean keywords: `meta` is `metaCaps`,
and `to` (the key a ticket is bound to) is `holder`.
-/

namespace Portl

abbrev Bytes : Type := List UInt8
abbrev Bytes8 : Type := Vector UInt8 8
abbrev Bytes16 : Type := Vector UInt8 16
abbrev Bytes32 : Type := Vector UInt8 32
abbrev Bytes64 : Type := Vector UInt8 64

/-! ## Capabilities -/

structure PortRule where
  hostGlob : String
  portMin : UInt16
  portMax : UInt16
deriving DecidableEq

inductive EnvPolicy where
  | deny
  | merge (allow : Option (List String))
  | replace (base : List (String × String))
deriving DecidableEq

structure ShellCaps where
  userAllowlist : Option (List String)
  ptyAllowed : Bool
  execAllowed : Bool
  commandAllowlist : Option (List String)
  envPolicy : EnvPolicy
deriving DecidableEq

structure FsCaps where
  roots : List String
  readonly : Bool
  maxSize : Option UInt64
deriving DecidableEq

structure VpnCaps where
  myUla : Bytes16
  peerUla : Bytes16
  mtu : UInt16
deriving DecidableEq

structure MetaCaps where
  ping : Bool
  info : Bool
deriving DecidableEq

structure UnixPathRule where
  path : String
deriving DecidableEq

structure UnixCaps where
  connect : List UnixPathRule
  listen : List UnixPathRule
deriving DecidableEq

/-- The capability record. `presence` is stored beside the options it
summarises; that the two agree is a rule of canonical form, not of the type. -/
structure Capabilities where
  presence : UInt8
  shell : Option ShellCaps
  tcp : Option (List PortRule)
  udp : Option (List PortRule)
  fs : Option FsCaps
  vpn : Option VpnCaps
  metaCaps : Option MetaCaps
  unix : Option UnixCaps
deriving DecidableEq

/-- `TCP_LISTEN_CAP_BIT`: bit 7 of `presence` turns the `tcp` rules into
listen rules as well. -/
def tcpListenCapBit : UInt8 := 0b10000000

/-! ## Tickets -/

inductive TransportAddr where
  | relay (url : String)
  | ip (addr : String)
deriving DecidableEq

structure EndpointAddr where
  id : Bytes32
  addrs : List TransportAddr
deriving DecidableEq

structure Delegation where
  parentTicketId : Bytes16
  depthRemaining : UInt8
deriving DecidableEq

structure PortlBody where
  caps : Capabilities
  target : Bytes32
  alpnsExtra : List String
  notBefore : UInt64
  notAfter : UInt64
  issuer : Option Bytes32
  parent : Option Delegation
  nonce : Bytes8
  bearer : Option Bytes
  holder : Option Bytes32
deriving DecidableEq

structure PortlTicket where
  v : UInt8
  addr : EndpointAddr
  body : PortlBody
  sig : Bytes64
deriving DecidableEq

/-! ## Unix path rules -/

/-- `std::path::Component` on a unix path. -/
inductive Component where
  | rootDir
  | curDir
  | parentDir
  | normal (name : List Char)
deriving DecidableEq

/-- One `/`-separated piece of a path. Empty pieces and `.` are normalised
away by the iterator, wherever they stand. -/
def componentOf (piece : List Char) : Option Component :=
  if piece = [] ∨ piece = ['.'] then none
  else if piece = ['.', '.'] then some .parentDir
  else some (.normal piece)

/-- `Path::new(path).components()`. A leading `.` survives only on a relative
path. -/
def components (path : String) : List Component :=
  let pieces := path.toList.splitOn '/'
  let lead :=
    if Str.startsWith path "/" then [Component.rootDir]
    else if pieces.head? = some ['.'] then [Component.curDir]
    else []
  lead ++ pieces.filterMap componentOf

def unixSocketPathIsSafe (path : String) : Bool :=
  if path.isEmpty || path.toList.contains (Char.ofNat 0) || !Str.startsWith path "/" then
    false
  else
    (components path).all fun component =>
      match component with
      | .rootDir => true
      | .normal _ => true
      | _ => false

/-- `len` counts bytes, as `str::len` does. -/
def isNarrowUnixGlob (pre : String) : Bool :=
  Str.startsWith pre "/" && decide (6 ≤ pre.utf8ByteSize) &&
    decide (pre ≠ "/tmp/") && decide (pre ≠ "/var/")

def validateUnixPathRule (spec : String) (allowBroadWildcard : Bool) :
    Except String Unit :=
  if spec.isEmpty then
    .error "unix path rule must not be empty"
  else if spec = "*" then
    if allowBroadWildcard then .ok ()
    else .error "broad unix wildcard is only available through the dev/all shortcut"
  else
    match Str.stripSuffix spec "*" with
    | some pre =>
      if unixSocketPathIsSafe pre && isNarrowUnixGlob pre then .ok ()
      else .error "unix path glob must have a narrow absolute prefix"
    | none =>
      if unixSocketPathIsSafe spec then .ok ()
      else .error
        "unix path rule must be absolute and must not contain . or .. components"

namespace UnixPathRule

def isValidRule (rule : UnixPathRule) (allowBroadWildcard : Bool) : Bool :=
  (validateUnixPathRule rule.path allowBroadWildcard).isOk

def matchesPath (rule : UnixPathRule) (path : String) : Bool :=
  if !unixSocketPathIsSafe path then false
  else if rule.path = "*" then true
  else
    match Str.stripSuffix rule.path "*" with
    | some pre => isNarrowUnixGlob pre && Str.startsWith path pre
    | none => decide (rule.path = path)

def covers (rule child : UnixPathRule) : Bool :=
  if !rule.isValidRule true || !child.isValidRule true then false
  else if rule.path = "*" ∨ rule.path = child.path then true
  else
    match Str.stripSuffix rule.path "*" with
    | none => false
    | some parentPrefix =>
      match Str.stripSuffix child.path "*" with
      | some childPrefix =>
        isNarrowUnixGlob parentPrefix && Str.startsWith childPrefix parentPrefix
      | none => rule.matchesPath child.path

/-- A narrow glob is at least six bytes long, so the empty prefix of the bare
`*` is never one of its extensions. -/
theorem startsWith_empty_of_narrow {pre : String} (h : isNarrowUnixGlob pre = true) :
    Str.startsWith "" pre = false := by
  rw [Bool.eq_false_iff]
  intro hpre
  obtain ⟨t, ht⟩ := Str.startsWith_iff.mp hpre
  have hsize := congrArg String.utf8ByteSize ht
  rw [String.utf8ByteSize_append] at hsize
  simp only [isNarrowUnixGlob, Bool.and_eq_true, decide_eq_true_eq] at h
  simp at hsize
  omega

/-- A rule below the glob on `pre`: a narrower glob, or a path. -/
def Below (pre : String) (child : UnixPathRule) : Prop :=
  match Str.stripSuffix child.path "*" with
  | some childPrefix => Str.startsWith childPrefix pre = true
  | none => unixSocketPathIsSafe child.path = true ∧ Str.startsWith child.path pre = true

variable {parent child : UnixPathRule} {path : String}

theorem covers_iff :
    parent.covers child = true ↔
      (parent.isValidRule true = true ∧ child.isValidRule true = true) ∧
        (parent.path = "*" ∨ parent.path = child.path ∨
          ∃ pre, parent.path = pre ++ "*" ∧ isNarrowUnixGlob pre = true ∧ Below pre child) := by
  simp only [← Str.stripSuffix_eq_some]
  unfold covers Below matchesPath
  cases hpre : Str.stripSuffix parent.path "*" with
  | none => grind
  | some pre =>
    cases hchild : Str.stripSuffix child.path "*" with
    | none | some => grind

/-- **Covering is sound for matching.** If one unix rule covers another, every
path the covered rule matches is matched by the covering one. -/
theorem matchesPath_of_covers (hcov : parent.covers child = true)
    (hm : child.matchesPath path = true) : parent.matchesPath path = true := by
  obtain ⟨-, hstar | hsame | ⟨pre, hpath, hnarrow, hbelow⟩⟩ := covers_iff.mp hcov
  · unfold matchesPath at hm ⊢
    grind
  · rw [show parent = child from by cases parent; cases child; simp_all]
    exact hm
  · have hpre := Str.stripSuffix_eq_some.mpr hpath
    -- the bare `*` is below no glob
    have hbare : Str.stripSuffix "*" "*" = some "" := by decide
    have hempty := startsWith_empty_of_narrow hnarrow
    unfold Below at hbelow
    unfold matchesPath at hm ⊢
    grind [Str.startsWith_trans]

end UnixPathRule

end Portl
