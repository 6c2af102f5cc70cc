import Portl.Store.Home
import Portl.Ticket.Mint

/-!
# Resolving a target

`target_resolve.rs`. A target is an inline ticket, a label or an endpoint id; a
label is looked up among the peers first and among the saved tickets after. What
comes out is a ticket to dial with.

A peer that is not held and accepts connections is dialled; one that is held
stops the search. One that is only accepted from falls through to the saved
tickets, and there nothing compares the two endpoints. Where labels are global
the question does not come up.
-/

namespace Portl

open Checks

inductive TargetSource where
  | inlineTicket
  | peerStore
  | ticketStore
  | rawEndpointId
deriving DecidableEq

structure ResolvedTarget where
  ticket : PortlTicket
  ticketString : String
  source : TargetSource
  expiresAt : UInt64
deriving DecidableEq

structure ResolveTargetOptions (P : Primitives) where
  identity : P.SigningKey
  caps : Capabilities
  nowUnix : UInt64
  ephemeralTtlSecs : UInt64

/-- What the transport library does: tickets as text, which bytes are an endpoint
id, and how a relay's address reads. -/
structure Transport where
  decodeString : String → Except String PortlTicket
  encodeString : PortlTicket → String
  isEndpointId : Bytes32 → Bool
  parseRelayUrl : String → Option String

/-! ## The cascade -/

section Resolve

variable (P : Primitives) (T : Transport) (getByLabel : PeerStore → String → Option PeerEntry)

def resolvedTicket (ticket : PortlTicket) (ticketString : String) (source : TargetSource) :
    ResolvedTarget :=
  ⟨ticket, ticketString, source, ticket.body.notAfter⟩

def rejectExpired (label : String) (expiresAt nowUnix : UInt64) : Except String Unit :=
  failIf (expiresAt ≤ nowUnix)
    ("Portl target '" ++ label ++ "' expired " ++ toString (nowUnix - expiresAt) ++ "s ago")

def endpointIdFromHex (value : String) : Except String Bytes32 := do
  let bytes ← okOr (Hex.decode value) "decode endpoint id"
  let id ← okOr (if h : bytes.length = 32 then some ⟨bytes.toArray, by simpa using h⟩ else none)
    "endpoint id is not 32 bytes"
  failIf (!T.isEndpointId id) "endpoint id is not a valid iroh id"
  return id

def parseEndpointId (target : String) : Except String (Option Bytes32) :=
  if target.utf8ByteSize ≠ 64 ∨ (target.toList.all fun c => (Hex.value c).isSome) = false then
    .ok none
  else (endpointIdFromHex T target).map some

def peerAddr (entry : PeerEntry) : Except String EndpointAddr := do
  let id ← (endpointIdFromHex T entry.endpointIdHex).mapError
    fun _ => "peer '" ++ entry.label ++ "' endpoint_id is invalid"
  match entry.relayHint with
  | none => return ⟨id, []⟩
  | some hint =>
    let url ← okOr (T.parseRelayUrl hint) ("peer '" ++ entry.label ++ "' relay hint is invalid")
    return ⟨id, [.relay url]⟩

/-- A ticket of the caller's own for an address. The sum of the two times wraps
as in a release build. -/
def mintFor (nonce : FreshNonce) (options : ResolveTargetOptions P) (addr : EndpointAddr) :
    Except PortlError PortlTicket :=
  mintRoot P nonce options.identity addr options.caps options.nowUnix
    (options.nowUnix + options.ephemeralTtlSecs) (some (P.verifyingKey options.identity))

def mintPeerTicket (nonce : FreshNonce) (options : ResolveTargetOptions P) (entry : PeerEntry) :
    Except String PortlTicket := do
  let addr ← peerAddr T entry
  (mintFor P nonce options addr).mapError fun _ => "mint peer ticket"

def resolveStored (target : String) (nowUnix : UInt64) (entry : TicketEntry) :
    Except String ResolvedTarget := do
  rejectExpired target entry.expiresAt nowUnix
  let ticket ← (T.decodeString entry.ticketString).mapError
    fun err => "stored ticket '" ++ target ++ "' is malformed: " ++ err
  rejectExpired target ticket.body.notAfter nowUnix
  return resolvedTicket ticket entry.ticketString .ticketStore

def resolveRaw (nonce : FreshNonce) (target : String) (options : ResolveTargetOptions P) :
    Except String ResolvedTarget := do
  match ← parseEndpointId T target with
  | some id =>
    let ticket ← (mintFor P nonce options ⟨id, []⟩).mapError fun _ => "mint endpoint ticket"
    return resolvedTicket ticket (T.encodeString ticket) .rawEndpointId
  | none =>
    .error ("unknown Portl target '" ++ target ++
      "'; use an accepted peer label, saved ticket label, raw ticket, or endpoint id")

def resolveBelowPeer (nonce : FreshNonce) (target : String) (options : ResolveTargetOptions P)
    (tickets : TicketStore) (peer : Option PeerEntry) : Except String ResolvedTarget :=
  match tickets.get target with
  | some entry => resolveStored T target options.nowUnix entry
  | none =>
    match peer with
    | some _ =>
      .error ("peer '" ++ target ++
        "' is inbound-only; ask the peer to accept an outbound invite or issue a ticket")
    | none => resolveRaw P T nonce target options

def resolveLabel (nonce : FreshNonce) (target : String) (options : ResolveTargetOptions P)
    (tickets : TicketStore) (peer : Option PeerEntry) : Except String ResolvedTarget :=
  match peer with
  | none => resolveBelowPeer P T nonce target options tickets none
  | some entry =>
    if entry.lastHoldAt.isSome then
      .error ("peer '" ++ target ++ "' is currently held; resume it before dialing")
    else if entry.theyAcceptFromMe then do
      let ticket ← mintPeerTicket P T nonce options entry
      return resolvedTicket ticket (T.encodeString ticket) .peerStore
    else resolveBelowPeer P T nonce target options tickets (some entry)

/-- `resolve_target`. `getByLabel` is the method of the peer store: it takes the
first entry that iterating over the map meets. -/
def resolveTarget (nonce : FreshNonce) (target : String) (options : ResolveTargetOptions P)
    (stores : Stores) : Except String ResolvedTarget := do
  let target := trimString target
  failIf (target = "") "Portl target is empty"
  match T.decodeString target with
  | .ok ticket =>
    rejectExpired target ticket.body.notAfter options.nowUnix
    return resolvedTicket ticket target .inlineTicket
  | .error _ =>
    let peers ← (PeerStore.load stores.peersPath stores.peers).mapError fun _ => "load peer store"
    let tickets ← (TicketStore.load stores.ticketsPath stores.tickets).mapError
      fun _ => "load ticket store"
    resolveLabel P T nonce target options tickets (getByLabel peers target)

end Resolve

/-- What `get_by_label` may be, whatever the order of the map. -/
def FindsByLabel (getByLabel : PeerStore → String → Option PeerEntry) : Prop :=
  ∀ peers label,
    match getByLabel peers label with
    | some entry => entry.label = label ∧ ∃ key, ⟨key, entry⟩ ∈ peers.entries.entries
    | none => ¬ peers.hasLabel label

/-! ## When a saved ticket comes out -/

/-- The cascade comes to the saved ticket `entry`, which reads as `ticket`. -/
structure StoredRoute (T : Transport) (getByLabel : PeerStore → String → Option PeerEntry)
    (label : String) (nowUnix : UInt64) (stores : Stores) (peers : PeerStore)
    (entry : TicketEntry) (ticket : PortlTicket) : Prop where
  nonempty : label ≠ ""
  notInline : ∀ inline, T.decodeString label ≠ .ok inline
  loaded : PeerStore.load stores.peersPath stores.peers = .ok peers
  saved : ∃ tickets, TicketStore.load stores.ticketsPath stores.tickets = .ok tickets ∧
    tickets.get label = some entry
  inbound : ∀ peer, getByLabel peers label = some peer →
    peer.lastHoldAt = none ∧ peer.theyAcceptFromMe = false
  liveEntry : nowUnix < entry.expiresAt
  reads : T.decodeString entry.ticketString = .ok ticket
  live : nowUnix < ticket.body.notAfter

section Routes

variable {P : Primitives} {T : Transport} {getByLabel : PeerStore → String → Option PeerEntry}
  {nonce : FreshNonce} {options : ResolveTargetOptions P} {resolved : ResolvedTarget}
  {nowUnix : UInt64} {peer : Option PeerEntry} {tickets : TicketStore}

theorem rejectExpired_eq_ok {label : String} {expiresAt : UInt64} :
    rejectExpired label expiresAt nowUnix = .ok () ↔ nowUnix < expiresAt := by
  unfold rejectExpired
  rw [failIf_eq_ok]
  exact UInt64.not_le

variable {target : String}

theorem resolveStored_eq_ok {entry : TicketEntry} :
    resolveStored T target nowUnix entry = .ok resolved ↔
      ∃ ticket, nowUnix < entry.expiresAt ∧ T.decodeString entry.ticketString = .ok ticket ∧
        nowUnix < ticket.body.notAfter ∧
        resolved = resolvedTicket ticket entry.ticketString .ticketStore := by
  simp only [resolveStored, bind_eq_ok, mapError_eq_ok, exists_unit_ok, rejectExpired_eq_ok]
  constructor
  · rintro ⟨hentry, ticket, hreads, hlive, hresolved⟩
    exact ⟨ticket, hentry, hreads, hlive, (Except.ok.inj hresolved).symm⟩
  · rintro ⟨ticket, hentry, hreads, hlive, rfl⟩
    exact ⟨hentry, ticket, hreads, hlive, rfl⟩

theorem source_resolveRaw (h : resolveRaw P T nonce target options = .ok resolved) :
    resolved.source = .rawEndpointId := by
  simp only [resolveRaw, bind_eq_ok] at h
  obtain ⟨found, -, h⟩ := h
  cases found with
  | none => cases h
  | some id =>
    simp only [bind_eq_ok] at h
    obtain ⟨ticket, -, h⟩ := h
    cases h
    rfl

variable (hsource : resolved.source = .ticketStore)
include hsource

theorem resolveBelowPeer_eq_ok :
    resolveBelowPeer P T nonce target options tickets peer = .ok resolved ↔
      ∃ entry, tickets.get target = some entry ∧
        resolveStored T target options.nowUnix entry = .ok resolved := by
  unfold resolveBelowPeer
  cases hget : tickets.get target with
  | some entry => simp
  | none =>
    constructor
    · intro h
      cases peer with
      | some _ => cases h
      | none => cases (source_resolveRaw h).symm.trans hsource
    · rintro ⟨entry, hentry, -⟩
      cases hentry

theorem resolveLabel_eq_ok :
    resolveLabel P T nonce target options tickets peer = .ok resolved ↔
      (∀ entry, peer = some entry → entry.lastHoldAt = none ∧ entry.theyAcceptFromMe = false) ∧
        ∃ entry, tickets.get target = some entry ∧
          resolveStored T target options.nowUnix entry = .ok resolved := by
  have hbelow : resolveBelowPeer P T nonce target options tickets peer = .ok resolved ↔ _ :=
    resolveBelowPeer_eq_ok hsource
  rw [← hbelow]
  cases peer with
  | none => simp [resolveLabel]
  | some entry =>
    simp only [resolveLabel]
    by_cases hheld : entry.lastHoldAt.isSome = true
    · rw [if_pos hheld]
      constructor
      · nofun
      · rintro ⟨hpeer, -⟩
        rw [(hpeer entry rfl).1] at hheld
        cases hheld
    · rw [if_neg hheld]
      have hfree : entry.lastHoldAt = none := by simpa using hheld
      by_cases hout : entry.theyAcceptFromMe = true
      · rw [if_pos hout]
        constructor
        · intro h
          simp only [bind_eq_ok] at h
          obtain ⟨ticket, -, h⟩ := h
          cases h
          cases hsource
        · rintro ⟨hpeer, -⟩
          cases (hpeer entry rfl).2.symm.trans hout
      · rw [if_neg hout]
        constructor
        · intro h
          refine ⟨?_, h⟩
          rintro _ ⟨⟩
          exact ⟨hfree, by simpa using hout⟩
        · exact fun h => h.2

/-- **When a saved ticket comes out.** -/
theorem resolveTarget_stored_iff {stores : Stores} :
    resolveTarget P T getByLabel nonce target options stores = .ok resolved ↔
      ∃ peers entry ticket,
        StoredRoute T getByLabel (trimString target) options.nowUnix stores peers entry ticket ∧
          resolved = resolvedTicket ticket entry.ticketString .ticketStore := by
  simp only [resolveTarget, bind_eq_ok, failIf_eq_ok]
  constructor
  · rintro ⟨-, hne, h⟩
    cases hinline : T.decodeString (trimString target) with
    | ok ticket =>
      simp only [hinline, bind_eq_ok] at h
      obtain ⟨-, -, h⟩ := h
      cases h
      cases hsource
    | error err =>
      simp only [hinline, bind_eq_ok, mapError_eq_ok] at h
      obtain ⟨peers, hpeers, tickets, htickets, h⟩ := h
      obtain ⟨hinbound, entry, hentry, hstored⟩ := (resolveLabel_eq_ok hsource).mp h
      obtain ⟨ticket, hliveEntry, hreads, hlive, hresolved⟩ := resolveStored_eq_ok.mp hstored
      have hnotInline : ∀ inline, T.decodeString (trimString target) ≠ .ok inline := by
        intro inline hok
        cases hinline.symm.trans hok
      exact ⟨peers, entry, ticket, ⟨hne, hnotInline, hpeers, ⟨tickets, htickets, hentry⟩,
        hinbound, hliveEntry, hreads, hlive⟩, hresolved⟩
  · rintro ⟨peers, entry, ticket, hroute, hresolved⟩
    obtain ⟨tickets, htickets, hentry⟩ := hroute.saved
    refine ⟨(), hroute.nonempty, ?_⟩
    cases hinline : T.decodeString (trimString target) with
    | ok ticket => exact absurd hinline (hroute.notInline ticket)
    | error err =>
      simp only [bind_eq_ok, mapError_eq_ok]
      refine ⟨peers, hroute.loaded, tickets, htickets, (resolveLabel_eq_ok hsource).mpr ?_⟩
      exact ⟨hroute.inbound, entry, hentry,
        resolveStored_eq_ok.mpr ⟨ticket, hroute.liveEntry, hroute.reads, hroute.live, hresolved⟩⟩

end Routes

/-! ## Misrouting -/

def PeersAgree (peers : PeerStore) (label : String) (ticket : PortlTicket) : Prop :=
  ∀ e ∈ peers.entries.entries, e.2.label = label →
    Hex.decode e.2.endpointIdHex = some ticket.addr.id.toList

section Misroute

variable {P : Primitives} {T : Transport} {getByLabel : PeerStore → String → Option PeerEntry}
  {nonce : FreshNonce} {options : ResolveTargetOptions P}

/-- **Anti-misroute.** A saved ticket comes out only where no peer of the label has
another endpoint, exactly when the stores hold no inbound-only peer and live
ticket of the label that disagree. -/
theorem resolveTarget_no_misroute_iff (hfinds : FindsByLabel getByLabel) (target : String)
    (stores : Stores) :
    (∀ resolved, resolveTarget P T getByLabel nonce target options stores = .ok resolved →
      resolved.source = .ticketStore →
      ∀ peers, PeerStore.load stores.peersPath stores.peers = .ok peers →
        PeersAgree peers (trimString target) resolved.ticket) ↔
    ∀ peers entry ticket peer,
      StoredRoute T getByLabel (trimString target) options.nowUnix stores peers entry ticket →
      getByLabel peers (trimString target) = some peer →
      PeersAgree peers (trimString target) ticket := by
  constructor
  · intro h peers entry ticket peer hroute hpeer
    have hresolved : resolveTarget P T getByLabel nonce target options stores =
        .ok (resolvedTicket ticket entry.ticketString .ticketStore) :=
      (resolveTarget_stored_iff rfl).mpr ⟨peers, entry, ticket, hroute, rfl⟩
    exact h _ hresolved rfl peers hroute.loaded
  · intro h resolved hresolved hsource peers hpeers
    obtain ⟨peers', entry, ticket, hroute, rfl⟩ := (resolveTarget_stored_iff hsource).mp hresolved
    cases hpeers.symm.trans hroute.loaded
    intro e he hlabel
    have hfound := hfinds peers (trimString target)
    cases hget : getByLabel peers (trimString target) with
    | none =>
      rw [hget] at hfound
      exact absurd ⟨e, he, hlabel⟩ hfound
    | some peer => exact h peers entry ticket peer hroute hget e he hlabel

end Misroute

/-! ### One label, two endpoints -/

def firstByLabel (peers : PeerStore) (label : String) : Option PeerEntry :=
  ((((peers.entries.entries.filter fun e => e.2.label = label).map Sigma.fst).sort
    (· ≥ ·)).head?).bind peers.entries.lookup

theorem findsByLabel_firstByLabel : FindsByLabel firstByLabel := by
  intro peers label
  have hmem : ∀ key, key ∈ ((peers.entries.entries.filter fun e => e.2.label = label).map
      Sigma.fst).sort (· ≥ ·) ↔ ∃ entry, ⟨key, entry⟩ ∈ peers.entries.entries ∧
        entry.label = label := by
    intro key
    rw [Multiset.mem_sort, Multiset.mem_map]
    constructor
    · rintro ⟨⟨_, entry⟩, hentry, rfl⟩
      exact ⟨entry, Multiset.mem_filter.mp hentry⟩
    · rintro ⟨entry, hentry⟩
      exact ⟨⟨key, entry⟩, Multiset.mem_filter.mpr hentry, rfl⟩
  unfold firstByLabel
  generalize ((peers.entries.entries.filter fun e => e.2.label = label).map
    Sigma.fst).sort (· ≥ ·) = keys at hmem ⊢
  cases keys with
  | nil =>
    rintro ⟨⟨key, entry⟩, hentry, hlabel⟩
    exact absurd ((hmem key).mpr ⟨entry, hentry, hlabel⟩) List.not_mem_nil
  | cons key keys =>
    obtain ⟨entry, hentry, hlabel⟩ := (hmem key).mp List.mem_cons_self
    have hlookup : peers.entries.lookup key = some entry := Finmap.lookup_eq_some_iff.mpr hentry
    simp only [List.head?_cons, Option.bind_some, hlookup]
    exact ⟨hlabel, key, hentry⟩

def boxTransport : Transport :=
  ⟨shareText none, fun _ => "minted", fun _ => true, some⟩

/-- An inbound-only peer "box", and a ticket "box" for the endpoint `sampleKey 1`. -/
def boxStores (endpoint : Bytes32) : Stores :=
  { peersPath := "peers.json", ticketsPath := "tickets.json",
    peers := .stored ⟨1, Finmap.singleton (Hex.encode endpoint.toList)
      { label := "box", endpointIdHex := Hex.encode endpoint.toList, acceptsFromThem := true,
        theyAcceptFromMe := false, since := 100, origin := .paired, lastHoldAt := none,
        isSelf := false, relayHint := none, schemaVersion := 2 }⟩,
    tickets := .stored ⟨1, Finmap.singleton "box"
      ⟨Hex.encode (sampleKey 1).toList, "portlshare", 200, 120, none⟩⟩ }

def boxOptions : ResolveTargetOptions (.transparent []) :=
  ⟨sampleKey 3, sessionShareCaps, 150, 60⟩

/-- What `portl` dials for "box". -/
def resolveBox (endpoint : Bytes32) : Except String ResolvedTarget :=
  resolveTarget (.transparent []) boxTransport firstByLabel (sampleNonce 2 (by decide)) "box"
    boxOptions (boxStores endpoint)

/-- The ticket is for the peer's own endpoint. -/
theorem resolveTarget_no_misroute_box :
    resolveBox (sampleKey 1) =
        .ok (resolvedTicket (shareTicket none) "portlshare" .ticketStore) ∧
      ∀ resolved, resolveBox (sampleKey 1) = .ok resolved → resolved.source = .ticketStore →
        ∀ peers, PeerStore.load "peers.json" (boxStores (sampleKey 1)).peers = .ok peers →
          PeersAgree peers "box" resolved.ticket := by
  have htrim : trimString "box" = "box" := by decide +kernel
  have hagree : ∀ resolved, resolveBox (sampleKey 1) = .ok resolved →
      resolved.source = .ticketStore →
      ∀ peers, PeerStore.load "peers.json" (boxStores (sampleKey 1)).peers = .ok peers →
        PeersAgree peers (trimString "box") resolved.ticket := by
    refine (resolveTarget_no_misroute_iff findsByLabel_firstByLabel "box" _).mpr ?_
    rw [htrim]
    intro peers entry ticket peer hroute _ e he _
    obtain ⟨tickets, htickets, hentry⟩ := hroute.saved
    cases hroute.loaded
    cases htickets
    cases hentry
    cases hroute.reads
    cases Multiset.mem_singleton.mp he
    exact Hex.decode_encode _
  rw [htrim] at hagree
  exact ⟨by decide +kernel, hagree⟩

/-- The ticket is for another endpoint than the peer's, and is dialled. -/
theorem resolveTarget_misroutes_box :
    resolveBox (sampleKey 5) =
        .ok (resolvedTicket (shareTicket none) "portlshare" .ticketStore) ∧
      ∃ peers, PeerStore.load "peers.json" (boxStores (sampleKey 5)).peers = .ok peers ∧
        ¬ PeersAgree peers "box" (shareTicket none) := by
  refine ⟨by decide +kernel, _, rfl, fun hagree => ?_⟩
  have hsame := hagree ⟨_, _⟩ (Multiset.mem_singleton_self _) rfl
  revert hsame
  decide +kernel

/-! ## Where labels are global -/

/-- **No misrouting in a careful home directory**: after any run from empty stores
whose pairings spare the labels of tickets, a saved ticket comes out of the
cascade only for a label that no peer has. -/
theorem resolveTarget_of_run {P : Primitives} {T : Transport} {lower : Char → List Char}
    {pairPath peersPath ticketsPath : String} {steps : List HomeStep}
    (hspare : Run.Guarded (Home.step P T.decodeString lower) (HomeStep.SparesTickets lower)
      (Home.empty pairPath peersPath ticketsPath) steps)
    (getByLabel : PeerStore → String → Option PeerEntry) (nonce : FreshNonce) (target : String)
    (options : ResolveTargetOptions P) :
    let home := (Home.empty pairPath peersPath ticketsPath).run P T.decodeString lower steps
    ∀ resolved, resolveTarget P T getByLabel nonce target options home.stores = .ok resolved →
      resolved.source = .ticketStore →
      ∃ peers, PeerStore.load home.stores.peersPath home.stores.peers = .ok peers ∧
        ¬ peers.hasLabel (trimString target) := by
  intro home resolved hresolved hsource
  obtain ⟨peers, entry, ticket, hroute, -⟩ := (resolveTarget_stored_iff hsource).mp hresolved
  obtain ⟨tickets, htickets, hentry⟩ := hroute.saved
  obtain ⟨peers', tickets', hpeers, htickets', hunique, -⟩ :=
    labelsGlobal_run pairPath peersPath ticketsPath hspare
  cases hpeers.symm.trans hroute.loaded
  cases htickets'.symm.trans htickets
  refine ⟨peers, hpeers, hunique _ ?_⟩
  rw [hentry]
  nofun

theorem resolveTarget_of_run_desk :
    let home := sampleHome.run (.transparent []) boxTransport.decodeString asciiLower deskRun
    ∃ peers, PeerStore.load home.stores.peersPath home.stores.peers = .ok peers ∧
      ¬ peers.hasLabel (trimString "box") :=
  resolveTarget_of_run (T := boxTransport) (by decide +kernel) firstByLabel
    (sampleNonce 2 (by decide)) "box" boxOptions
    (resolvedTicket (shareTicket none) "portlshare" .ticketStore) (by decide +kernel) rfl

end Portl
