import Portl.Store.Labels

/-!
# Importing a session share

`rendezvous/exchange.rs`, `session_share.rs` and `ticket_save.rs`. A share
arrives as an envelope with a ticket in it and ends as an entry of the ticket
store. Between the two the ticket is checked against everything the envelope
says about it, and the label against both stores (`StoredShare`). The only write
is the last step, one rename.
-/

namespace Portl

open Checks

/-! ## Envelopes -/

inductive ExchangeKind where
  | sessionShare
deriving DecidableEq

/-- `SessionShareEnvelopeV1`, without the workspace and the conflict handle. -/
structure SessionShareEnvelopeV1 where
  friendlyName : String
  originLabelHint : Option String
  targetLabelHint : Option String
  targetEndpointIdHex : String
  provider : Option String
  providerSession : String
  ticket : String
  accessNotAfterUnix : UInt64
deriving DecidableEq

inductive ExchangePayload where
  | sessionShare (share : SessionShareEnvelopeV1)
deriving DecidableEq

def ExchangePayload.kind (payload : ExchangePayload) : ExchangeKind :=
  match payload with
  | .sessionShare _ => .sessionShare

/-- `PortlExchangeEnvelopeV1`, without the sender's hint. -/
structure PortlExchangeEnvelopeV1 where
  schema : String
  kind : ExchangeKind
  createdAtUnix : UInt64
  notAfterUnix : Option UInt64
  payload : ExchangePayload
deriving DecidableEq

def portlExchangeSchemaV1 : String := "portl.exchange.v1"

def endpointIdHexLen : Nat := 64

inductive EnvelopeValidationError where
  | unsupportedSchema (expected actual : String)
  | kindMismatch (envelope payload : ExchangeKind)
  | notAfterNotAfterCreatedAt (createdAt notAfter : UInt64)
  | invalidEndpointIdLength (expected actual : Nat)
  | invalidEndpointIdHex
deriving DecidableEq

def ExchangeKind.debug (kind : ExchangeKind) : String :=
  match kind with
  | .sessionShare => "SessionShare"

def EnvelopeValidationError.message (err : EnvelopeValidationError) : String :=
  match err with
  | .unsupportedSchema expected actual =>
    "unsupported schema: expected `" ++ expected ++ "`, got `" ++ actual ++ "`"
  | .kindMismatch envelope payload =>
    "envelope kind `" ++ envelope.debug ++ "` does not match payload kind `" ++
      payload.debug ++ "`"
  | .notAfterNotAfterCreatedAt createdAt notAfter =>
    "not_after_unix (" ++ toString notAfter ++ ") must be greater than created_at_unix (" ++
      toString createdAt ++ ")"
  | .invalidEndpointIdLength expected actual =>
    "target_endpoint_id_hex must be " ++ toString expected ++
      " hex characters (32 bytes), got " ++ toString actual
  | .invalidEndpointIdHex => "target_endpoint_id_hex contains non-hex characters"

def SessionShareEnvelopeV1.validate (share : SessionShareEnvelopeV1) :
    Except EnvelopeValidationError Unit := do
  failIf (share.targetEndpointIdHex.utf8ByteSize ≠ endpointIdHexLen)
    (.invalidEndpointIdLength endpointIdHexLen share.targetEndpointIdHex.utf8ByteSize)
  failIf (!share.targetEndpointIdHex.toList.all fun c => (Hex.value c).isSome)
    .invalidEndpointIdHex

def PortlExchangeEnvelopeV1.validate (envelope : PortlExchangeEnvelopeV1) :
    Except EnvelopeValidationError Unit := do
  failIf (envelope.schema ≠ portlExchangeSchemaV1)
    (.unsupportedSchema portlExchangeSchemaV1 envelope.schema)
  failIf (envelope.kind ≠ envelope.payload.kind)
    (.kindMismatch envelope.kind envelope.payload.kind)
  whenSome envelope.notAfterUnix fun notAfter =>
    failIf (notAfter ≤ envelope.createdAtUnix)
      (.notAfterNotAfterCreatedAt envelope.createdAtUnix notAfter)
  match envelope.payload with
  | .sessionShare share => share.validate

/-! ## The embedded ticket -/

def PortlError.message (err : PortlError) : String :=
  match err with
  | .postcard => "postcard"
  | .canonical reason => "canonical form violated: " ++ reason
  | .signature reason => "signature: " ++ reason
  | .ticket reason => "ticket: " ++ reason
  | .chain reason => "chain: " ++ reason
  | .clock reason => "clock: " ++ reason

def interactiveShellCaps : Capabilities :=
  { presence := 0b00000001,
    shell := some
      { userAllowlist := none, ptyAllowed := true, execAllowed := true,
        commandAllowlist := none, envPolicy := .merge none },
    tcp := none, udp := none, fs := none, vpn := none, metaCaps := none, unix := none }

def sessionShareCaps : Capabilities := interactiveShellCaps

structure ImportSessionShareOptions where
  label : Option String
  recipientEndpointIdHex : Option String
deriving DecidableEq

section Import

variable (P : Primitives) (decodeString : String → Except String PortlTicket)
  (lower : Char → List Char)

/-- The checks of the embedded ticket. `decodeString` is `decode_string` of the
transport library over the decoder of `Ticket/Codec.lean`. -/
def checkEmbeddedTicket (share : SessionShareEnvelopeV1) (options : ImportSessionShareOptions)
    (now : UInt64) : Except String PortlTicket := do
  let ticket ← (decodeString share.ticket).mapError
    fun err => "parse embedded session ticket: " ++ err
  (canonicalCheckTicket ticket).mapError
    fun err => "invalid embedded session ticket: " ++ err.message
  (verifyBody P (resolvedIssuer ticket) ticket.body ticket.sig).mapError
    fun err => "embedded session ticket signature failed: " ++ err.message
  failIf (ticket.v ≠ 1 ∨ ticket.body.parent.isSome = true ∨ ticket.body.bearer.isSome = true ∨
      ticket.body.caps ≠ sessionShareCaps)
    "embedded session ticket is not a session-share ticket"
  failIf (!Str.eqIgnoreAsciiCase (Hex.encode ticket.addr.id.toList) share.targetEndpointIdHex)
    "embedded session ticket target did not match share envelope"
  failIf (ticket.body.notAfter > share.accessNotAfterUnix)
    "embedded session ticket outlives share access window"
  failIf (ticket.body.notAfter ≤ now) "embedded session ticket has already expired"
  whenSome options.recipientEndpointIdHex fun expected => do
    let holder ← okOr ticket.body.holder
      "embedded session ticket is not bound to this recipient"
    failIf (!Str.eqIgnoreAsciiCase (Hex.encode holder.toList) expected)
      "embedded session ticket is bound to a different recipient"
  return ticket

/-! ## Labels and places -/

def trimString (s : String) : String := String.ofList (Lines.trim s.toList)

def SessionShareEnvelopeV1.importLabel (share : SessionShareEnvelopeV1) : String :=
  let machine := ((share.targetLabelHint.map trimString).filter (· ≠ "")).getD
    (machineLabel lower none share.targetEndpointIdHex)
  sessionShareLabel lower machine share.friendlyName

def shareLabel (share : SessionShareEnvelopeV1) (options : ImportSessionShareOptions) : String :=
  (options.label.map trimString).getD (share.importLabel lower)

def checkReplaceable (advice label endpointIdHex : String) (notAfter : UInt64)
    (existing : TicketEntry) : Except String Unit := do
  failIf (!Str.eqIgnoreAsciiCase existing.endpointIdHex endpointIdHex)
    ("label '" ++ label ++ "' is already in use by a ticket for a different endpoint; " ++ advice)
  failIf (existing.expiresAt ≥ notAfter)
    ("ticket '" ++ label ++ "' already exists for this endpoint and expires later or at the " ++
      "same time; keeping the existing ticket")

/-- The ticket store with the place of `label` free, as an import makes it. -/
def makeRoomForShare (label endpointIdHex : String) (notAfter : UInt64) (peers : PeerStore)
    (tickets : TicketStore) : Except String TicketStore :=
  match tickets.get label with
  | some existing => do
    checkReplaceable "pass --label <name> or remove the existing label first" label
      endpointIdHex notAfter existing
    return tickets.remove label
  | none =>
    match labelInUse label peers tickets with
    | some store =>
      .error ("label '" ++ label ++ "' is already in use by a " ++ store ++
        "; pass --label <name> or remove the existing label first")
    | none => .ok tickets

/-- The same for `portl ticket save`, which leaves out the last check. -/
def makeRoomForSave (label endpointIdHex : String) (notAfter : UInt64) (tickets : TicketStore) :
    Except String TicketStore :=
  match tickets.get label with
  | some existing => do
    checkReplaceable "pick another label or remove it first" label endpointIdHex notAfter
      existing
    return tickets.remove label
  | none => .ok tickets

/-! ## The two commands -/

structure ImportedSessionShare where
  label : String
  endpointIdHex : String
  expiresAt : UInt64
  savedAt : UInt64
deriving DecidableEq

structure Stores where
  peersPath : String
  ticketsPath : String
  peers : PeersFile
  tickets : StoredJson TicketStore

def prepareSessionShare (envelope : PortlExchangeEnvelopeV1)
    (options : ImportSessionShareOptions) (clock : Option UInt64) (stores : Stores) :
    Except String (TicketStore × ImportedSessionShare) := do
  envelope.validate.mapError fun err => "invalid exchange envelope: " ++ err.message
  let now ← okOr clock "system clock before unix epoch"
  whenSome envelope.notAfterUnix fun notAfter =>
    failIf (notAfter ≤ now)
      "session share expired; ask the sender to run `portl session share` again"
  let .sessionShare share := envelope.payload
  failIf (share.accessNotAfterUnix ≤ now)
    "session share access expired; ask the sender to mint a fresh share"
  let ticket ← checkEmbeddedTicket P decodeString share options now
  let endpointIdHex := Hex.encode ticket.addr.id.toList
  let label := shareLabel lower share options
  failIf (trimString label = "") "session share label is empty; pass --label <name>"
  let peers ← PeerStore.load stores.peersPath stores.peers
  let tickets ← TicketStore.load stores.ticketsPath stores.tickets
  failIf (peers.hasLabel label)
    ("label '" ++ label ++
      "' is already in use by a peer; pass --label <name> or choose another label")
  let tickets ← makeRoomForShare label endpointIdHex ticket.body.notAfter peers tickets
  let tickets ← tickets.insert label
    { endpointIdHex := endpointIdHex, ticketString := share.ticket,
      expiresAt := ticket.body.notAfter, savedAt := now,
      sessionShare := some
        { friendlyName := share.friendlyName, providerSession := share.providerSession,
          provider := share.provider, originLabelHint := share.originLabelHint,
          targetLabelHint := share.targetLabelHint } }
  return (tickets, ⟨label, endpointIdHex, ticket.body.notAfter, now⟩)

/-- `TicketStore::save`: a temporary file and a rename. `fault` is the error of
the step that fails, if one does; the old file is then still in place. -/
def Stores.saveTickets (stores : Stores) (tickets : TicketStore) (fault : Option String) :
    Except String Unit × Stores :=
  match fault with
  | some err => (.error err, stores)
  | none => (.ok (), { stores with tickets := .stored tickets })

def Stores.commit (stores : Stores) (fault : Option String)
    (prepared : Except String (TicketStore × ImportedSessionShare)) :
    Except String ImportedSessionShare × Stores :=
  match prepared with
  | .error err => (.error err, stores)
  | .ok (tickets, imported) =>
    match stores.saveTickets tickets fault with
    | (.error err, stores) => (.error err, stores)
    | (.ok (), stores) => (.ok imported, stores)

def importSessionShareEnvelope (envelope : PortlExchangeEnvelopeV1)
    (options : ImportSessionShareOptions) (clock : Option UInt64) (fault : Option String)
    (stores : Stores) : Except String ImportedSessionShare × Stores :=
  stores.commit fault (prepareSessionShare P decodeString lower envelope options clock stores)

def capSummary (caps : Capabilities) : String :=
  let parts :=
    (caps.shell.toList.map fun shell => if shell.ptyAllowed then "shell" else "exec") ++
    (if caps.tcp.any (· ≠ []) then ["tcp"] else []) ++
    (if caps.udp.any (· ≠ []) then ["udp"] else []) ++
    (if caps.metaCaps.isSome then ["meta"] else [])
  if parts = [] ∨ parts.length > 2 then "access" else String.intercalate "-" parts

/-- `found` is the first peer of the endpoint that iterating over the store
meets. -/
def autoTicketLabel (endpointIdHex : String) (caps : Capabilities) (found : Option PeerEntry) :
    String :=
  let machine := (found.map PeerEntry.label).getD (machineLabel lower none endpointIdHex)
  ticketLabel lower machine (capSummary caps)

abbrev SavedTicket := ImportedSessionShare

def prepareTicket (label : Option String) (ticketString : String) (found : Option PeerEntry)
    (now : UInt64) (stores : Stores) : Except String (TicketStore × SavedTicket) := do
  let ticket ← (decodeString ticketString).mapError fun err => "parse ticket: " ++ err
  let endpointIdHex := Hex.encode ticket.addr.id.toList
  let expiresAt := ticket.body.notAfter
  failIf (expiresAt ≤ now)
    ("ticket expired " ++ toString (now - expiresAt) ++
      "s ago; refusing to save (run `portl ticket issue …` to mint a fresh one)")
  let peers ← PeerStore.load stores.peersPath stores.peers
  let tickets ← TicketStore.load stores.ticketsPath stores.tickets
  let label := (label.map trimString).getD
    (autoTicketLabel lower endpointIdHex ticket.body.caps found)
  failIf (label = "") "ticket label is empty"
  failIf (peers.hasLabel label)
    ("label '" ++ label ++ "' is already in use by a peer; pick another label or remove the " ++
      "existing one first")
  let tickets ← makeRoomForSave label endpointIdHex expiresAt tickets
  let tickets ← tickets.insert label ⟨endpointIdHex, ticketString, expiresAt, now, none⟩
  return (tickets, ⟨label, endpointIdHex, expiresAt, now⟩)

def saveTicketAt (label : Option String) (ticketString : String) (found : Option PeerEntry)
    (now : UInt64) (fault : Option String) (stores : Stores) :
    Except String SavedTicket × Stores :=
  stores.commit fault (prepareTicket decodeString lower label ticketString found now stores)

end Import

/-! ## Making room and placing -/

/-- `room` is `tickets` with the place of `label` free; what stood there was for
the same endpoint and expired earlier. -/
structure RoomMade (label endpointIdHex : String) (notAfter : UInt64)
    (tickets room : TicketStore) : Prop where
  free : room.get label = none
  others : ∀ other, other ≠ label → room.get other = tickets.get other
  schema : room.schema = tickets.schema
  replaced : ∀ old, tickets.get label = some old →
    Hex.decode old.endpointIdHex = Hex.decode endpointIdHex ∧ old.expiresAt < notAfter

theorem decode_of_eqIgnoreAsciiCase {s t : String} (h : Str.eqIgnoreAsciiCase s t = true) :
    Hex.decode s = Hex.decode t :=
  Hex.decode_congr (beq_iff_eq.mp h)

variable {endpointIdHex label path : String} {notAfter : UInt64}
  {tickets room after before store : TicketStore} {peers : PeerStore} {entry existing : TicketEntry}
  {file : StoredJson TicketStore}

theorem checkReplaceable_eq_ok {advice : String}
    (h : checkReplaceable advice label endpointIdHex notAfter existing = .ok ()) :
    Hex.decode existing.endpointIdHex = Hex.decode endpointIdHex ∧
      existing.expiresAt < notAfter := by
  simp only [checkReplaceable, bind_eq_ok, failIf_eq_ok] at h
  obtain ⟨-, hendpoint, hexpiry⟩ := h
  exact ⟨decode_of_eqIgnoreAsciiCase (by simpa using hendpoint), UInt64.not_le.mp hexpiry⟩

theorem roomMade_remove (hget : tickets.get label = some existing)
    (h : Hex.decode existing.endpointIdHex = Hex.decode endpointIdHex ∧
      existing.expiresAt < notAfter) :
    RoomMade label endpointIdHex notAfter tickets (tickets.remove label) where
  free := Finmap.lookup_erase label tickets.entries
  others other hne := Finmap.lookup_erase_ne hne
  schema := rfl
  replaced old hold := by
    cases hget.symm.trans hold
    exact h

theorem roomMade_free (hget : tickets.get label = none) :
    RoomMade label endpointIdHex notAfter tickets tickets where
  free := hget
  others _ _ := rfl
  schema := rfl
  replaced old hold := by cases hget.symm.trans hold

theorem makeRoomForShare_eq_ok
    (h : makeRoomForShare label endpointIdHex notAfter peers tickets = .ok room) :
    RoomMade label endpointIdHex notAfter tickets room := by
  unfold makeRoomForShare at h
  cases hget : tickets.get label with
  | some existing =>
    simp only [hget, bind_eq_ok] at h
    obtain ⟨_, hcheck, hroom⟩ := h
    cases hroom
    exact roomMade_remove hget (checkReplaceable_eq_ok hcheck)
  | none =>
    simp only [hget] at h
    split at h
    · cases h
    · cases h
      exact roomMade_free hget

theorem makeRoomForSave_eq_ok
    (h : makeRoomForSave label endpointIdHex notAfter tickets = .ok room) :
    RoomMade label endpointIdHex notAfter tickets room := by
  unfold makeRoomForSave at h
  cases hget : tickets.get label with
  | some existing =>
    simp only [hget, bind_eq_ok] at h
    obtain ⟨_, hcheck, hroom⟩ := h
    cases hroom
    exact roomMade_remove hget (checkReplaceable_eq_ok hcheck)
  | none =>
    simp only [hget] at h
    cases h
    exact roomMade_free hget

/-- `after` is `before` with `entry` under `label`, in a place that was free or
held an older ticket for the endpoint, and no peer has the label. -/
structure Placed (label : String) (entry : TicketEntry) (peers : PeerStore)
    (before after : TicketStore) : Prop where
  here : after.get label = some entry
  others : ∀ other, other ≠ label → after.get other = before.get other
  schema : after.schema = before.schema
  replaced : ∀ old, before.get label = some old →
    Hex.decode old.endpointIdHex = Hex.decode entry.endpointIdHex ∧ old.expiresAt < entry.expiresAt
  no_peer : ¬ peers.hasLabel label

theorem placed_of_insert (hroom : RoomMade label entry.endpointIdHex entry.expiresAt before room)
    (hinsert : room.insert label entry = .ok after) (hpeer : ¬ peers.hasLabel label) :
    Placed label entry peers before after := by
  obtain ⟨-, rfl⟩ := TicketStore.insert_eq_ok.mp hinsert
  refine ⟨Finmap.lookup_insert _, ?_, hroom.schema, hroom.replaced, hpeer⟩
  intro other hne
  rw [← hroom.others other hne]
  exact Finmap.lookup_insert_of_ne _ hne

theorem Placed.labelsUnique (h : Placed label entry peers before after)
    (hunique : LabelsUnique peers before) : LabelsUnique peers after := by
  intro other hother
  by_cases heq : other = label
  · rw [heq]
    exact h.no_peer
  · rw [h.others other heq] at hother
    exact hunique other hother

theorem TicketStore.load_stored {store' : TicketStore} :
    TicketStore.load path (.stored store) = .ok store' ↔
      store.schema = currentSchema ∧ store' = store := by
  show (if store.schema ≠ currentSchema then _ else Except.ok store) = Except.ok store' ↔ _
  split_ifs with hschema
  · simp [hschema]
  · simp [not_not.mp hschema, eq_comm]

theorem TicketStore.load_schema (h : TicketStore.load path file = .ok store) :
    store.schema = currentSchema := by
  cases file with
  | missing =>
    cases h
    rfl
  | unreadable => cases h
  | malformed => cases h
  | stored kept =>
    obtain ⟨hschema, rfl⟩ := TicketStore.load_stored.mp h
    exact hschema

theorem Placed.load (h : Placed label entry peers before after)
    (hload : TicketStore.load path file = .ok before) :
    TicketStore.load path (.stored after) = .ok after :=
  TicketStore.load_stored.mpr ⟨h.schema.trans (TicketStore.load_schema hload), rfl⟩

/-! ## What an import establishes -/

section Safe

variable {P : Primitives} {decodeString : String → Except String PortlTicket}
  {lower : Char → List Char}

/-- **A stored share.** `ticket` is what its entry reads as: signed by its
issuer, of exactly the capabilities of a share, for the advertised target, for
the recipient where one is named, and inside the advertised window. -/
structure StoredShare (P : Primitives) (decodeString : String → Except String PortlTicket)
    (share : SessionShareEnvelopeV1) (recipient : Option String) (now : UInt64)
    (entry : TicketEntry) (ticket : PortlTicket) : Prop where
  reads : decodeString entry.ticketString = .ok ticket
  signed : SignatureValid P (resolvedIssuer ticket) ticket.body ticket.sig
  caps : ticket.body.caps = sessionShareCaps
  root : ticket.v = 1 ∧ ticket.body.parent = none ∧ ticket.body.bearer = none
  target : Hex.decode share.targetEndpointIdHex = some ticket.addr.id.toList ∧
    ticket.body.target = ticket.addr.id
  endpoint : Hex.decode entry.endpointIdHex = some ticket.addr.id.toList
  bound : ∀ expected, recipient = some expected →
    ∃ holder, ticket.body.holder = some holder ∧ Hex.decode expected = some holder.toList
  expiry : entry.expiresAt = ticket.body.notAfter ∧
    ticket.body.notAfter ≤ share.accessNotAfterUnix ∧ now < ticket.body.notAfter

theorem decode_of_eqIgnoreAsciiCase_encode {bytes : Bytes} {s : String}
    (h : Str.eqIgnoreAsciiCase (Hex.encode bytes) s = true) : Hex.decode s = some bytes := by
  rw [← decode_of_eqIgnoreAsciiCase h, Hex.decode_encode]

variable {options : ImportSessionShareOptions}

theorem storedShare_of_check {share : SessionShareEnvelopeV1} {now : UInt64} {ticket : PortlTicket}
    {metadata : Option SessionShareMetadata}
    (h : checkEmbeddedTicket P decodeString share options now = .ok ticket) :
    StoredShare P decodeString share options.recipientEndpointIdHex now
      ⟨Hex.encode ticket.addr.id.toList, share.ticket, ticket.body.notAfter, now, metadata⟩
      ticket := by
  simp only [checkEmbeddedTicket, bind_eq_ok, mapError_eq_ok, failIf_eq_ok, whenSome_eq_ok,
    okOr_eq_ok, not_or, not_not, Bool.not_eq_true', Bool.not_eq_false] at h
  obtain ⟨decoded, hdecode, _, hcanonical, _, hverify, -, hshape, -, htarget, -, hwindow, -,
    hlive, -, hbound, hticket⟩ := h
  cases hticket
  obtain ⟨hv, hparent, hbearer, hcaps⟩ := hshape
  refine
    { reads := hdecode, signed := verifyBody_eq_ok.mp hverify, caps := hcaps,
      root := ⟨hv, by simpa using hparent, by simpa using hbearer⟩,
      target := ⟨decode_of_eqIgnoreAsciiCase_encode htarget,
        (canonicalCheckTicket_eq_ok.mp hcanonical).2.1⟩,
      endpoint := Hex.decode_encode _,
      bound := ?_,
      expiry := ⟨rfl, UInt64.not_lt.mp hwindow, UInt64.not_le.mp hlive⟩ }
  intro expected hexpected
  obtain ⟨holder, hholder, hmatch⟩ := hbound expected hexpected
  exact ⟨holder, hholder, decode_of_eqIgnoreAsciiCase_encode hmatch⟩

theorem prepareSessionShare_eq_ok {envelope : PortlExchangeEnvelopeV1} {clock : Option UInt64}
    {stores : Stores} {imported : ImportedSessionShare}
    (h : prepareSessionShare P decodeString lower envelope options clock stores =
      .ok (after, imported)) :
    ∃ share now entry ticket peers before, envelope.payload = .sessionShare share ∧
      clock = some now ∧ PeerStore.load stores.peersPath stores.peers = .ok peers ∧
      TicketStore.load stores.ticketsPath stores.tickets = .ok before ∧
      StoredShare P decodeString share options.recipientEndpointIdHex now entry ticket ∧
      Placed imported.label entry peers before after := by
  obtain ⟨schema, kind, createdAt, notAfter, ⟨share⟩⟩ := envelope
  simp only [prepareSessionShare, bind_eq_ok, mapError_eq_ok, okOr_eq_ok, failIf_eq_ok] at h
  obtain ⟨-, -, now, hclock, -, -, -, -, ticket, hcheck, -, -, peers, hpeers, before, hbefore, -,
    hpeer, room, hroom, placed, hinsert, hout⟩ := h
  cases hout
  exact ⟨share, now, _, ticket, peers, before, rfl, hclock, hpeers, hbefore,
    storedShare_of_check hcheck,
    placed_of_insert (makeRoomForShare_eq_ok hroom) hinsert hpeer⟩

theorem Stores.commit_cases (stores : Stores) (fault : Option String)
    (prepared : Except String (TicketStore × ImportedSessionShare)) :
    (∃ err, stores.commit fault prepared = (.error err, stores)) ∨
      ∃ after imported, prepared = .ok (after, imported) ∧
        stores.commit fault prepared =
          (.ok imported, { stores with tickets := .stored after }) := by
  cases prepared with
  | error err => exact Or.inl ⟨err, rfl⟩
  | ok prepared =>
    obtain ⟨after, imported⟩ := prepared
    cases fault with
    | some err => exact Or.inl ⟨err, rfl⟩
    | none => exact Or.inr ⟨after, imported, rfl, rfl⟩

/-- **Session-share import.** An import that succeeds has stored a ticket that
meets every check, under a label of no peer and no other ticket, and changed
nothing else; one that fails has changed nothing. -/
theorem importSessionShareEnvelope_safe (envelope : PortlExchangeEnvelopeV1)
    (options : ImportSessionShareOptions) (clock : Option UInt64) (fault : Option String)
    (stores stores' : Stores) :
    (∀ imported,
      importSessionShareEnvelope P decodeString lower envelope options clock fault stores =
        (.ok imported, stores') →
      ∃ share now entry ticket peers before after, envelope.payload = .sessionShare share ∧
        clock = some now ∧ PeerStore.load stores.peersPath stores.peers = .ok peers ∧
        TicketStore.load stores.ticketsPath stores.tickets = .ok before ∧
        TicketStore.load stores'.ticketsPath stores'.tickets = .ok after ∧
        stores' = { stores with tickets := .stored after } ∧
        StoredShare P decodeString share options.recipientEndpointIdHex now entry ticket ∧
        Placed imported.label entry peers before after) ∧
    (∀ err,
      importSessionShareEnvelope P decodeString lower envelope options clock fault stores =
        (.error err, stores') →
      stores' = stores) := by
  unfold importSessionShareEnvelope
  rcases stores.commit_cases fault
    (prepareSessionShare P decodeString lower envelope options clock stores) with
    ⟨err, hcommit⟩ | ⟨after, result, hprepare, hcommit⟩
  · rw [hcommit]
    refine ⟨?_, ?_⟩
    · intro imported h
      cases h
    · intro err' h
      cases h
      rfl
  · rw [hcommit]
    refine ⟨?_, ?_⟩
    · intro imported h
      cases h
      obtain ⟨share, now, entry, ticket, peers, before, hpayload, hclock, hpeers, hbefore,
        hstored, hplaced⟩ := prepareSessionShare_eq_ok hprepare
      exact ⟨share, now, entry, ticket, peers, before, after, hpayload, hclock, hpeers,
        hbefore, hplaced.load hbefore, rfl, hstored, hplaced⟩
    · intro err h
      cases h

end Safe

/-! ### A share of one session -/

def shareTicket (holder : Option Bytes32) : PortlTicket :=
  { v := 1, addr := ⟨sampleKey 1, []⟩,
    body :=
      { caps := sessionShareCaps, target := sampleKey 1, alpnsExtra := [], notBefore := 100,
        notAfter := 200, issuer := none, parent := none, nonce := Vector.replicate 8 3,
        bearer := none, holder := holder },
    sig := transparentSign (sampleKey 1) (List.replicate 8 3) }

def shareText (holder : Option Bytes32) (text : String) : Except String PortlTicket :=
  if text = "portlshare" then .ok (shareTicket holder) else .error "wrong kind"

def sampleEnvelope : PortlExchangeEnvelopeV1 :=
  { schema := portlExchangeSchemaV1, kind := .sessionShare, createdAtUnix := 100,
    notAfterUnix := some 160,
    payload := .sessionShare
      { friendlyName := "Dev", originLabelHint := none, targetLabelHint := none,
        targetEndpointIdHex := Hex.encode (sampleKey 1).toList, provider := some "zmx",
        providerSession := "dev", ticket := "portlshare", accessNotAfterUnix := 200 } }

def emptyStores : Stores := ⟨"peers.json", "tickets.json", .missing, .missing⟩

/-- An import for the recipient the ticket is bound to, and one whose save
fails. -/
theorem importSessionShareEnvelope_safe_dev :
    (∃ stores',
      importSessionShareEnvelope (.transparent []) (shareText (some (sampleKey 9))) asciiLower
          sampleEnvelope ⟨none, some (Hex.encode (sampleKey 9).toList)⟩ (some 150) none
          emptyStores =
        (.ok ⟨"host-0101/dev", Hex.encode (sampleKey 1).toList, 200, 150⟩, stores') ∧
      ∃ share now entry ticket peers before after,
        sampleEnvelope.payload = .sessionShare share ∧ some 150 = some now ∧
        PeerStore.load emptyStores.peersPath emptyStores.peers = .ok peers ∧
        TicketStore.load emptyStores.ticketsPath emptyStores.tickets = .ok before ∧
        TicketStore.load stores'.ticketsPath stores'.tickets = .ok after ∧
        stores' = { emptyStores with tickets := .stored after } ∧
        StoredShare (.transparent []) (shareText (some (sampleKey 9))) share
          (some (Hex.encode (sampleKey 9).toList)) now entry ticket ∧
        Placed "host-0101/dev" entry peers before after) ∧
    (importSessionShareEnvelope (.transparent []) (shareText (some (sampleKey 9))) asciiLower
      sampleEnvelope ⟨none, none⟩ (some 150) (some "rename") emptyStores).2 = emptyStores := by
  have hok : (importSessionShareEnvelope (.transparent []) (shareText (some (sampleKey 9)))
      asciiLower sampleEnvelope ⟨none, some (Hex.encode (sampleKey 9).toList)⟩ (some 150) none
      emptyStores).1 =
        .ok ⟨"host-0101/dev", Hex.encode (sampleKey 1).toList, 200, 150⟩ := by decide +kernel
  have hfail : (importSessionShareEnvelope (.transparent []) (shareText (some (sampleKey 9)))
      asciiLower sampleEnvelope ⟨none, none⟩ (some 150) (some "rename") emptyStores).1 =
        .error "rename" := by decide +kernel
  refine ⟨⟨_, Prod.ext hok rfl, ?_⟩, ?_⟩
  · exact (importSessionShareEnvelope_safe sampleEnvelope _ (some 150) none emptyStores _).1 _
      (Prod.ext hok rfl)
  · exact (importSessionShareEnvelope_safe sampleEnvelope _ (some 150) _ emptyStores _).2 _
      (Prod.ext hfail rfl)

/-- Without a recipient to compare with, a ticket bound to nobody is imported. -/
theorem importSessionShareEnvelope_unbound :
    ∃ stores',
      importSessionShareEnvelope (.transparent []) (shareText none) asciiLower sampleEnvelope
          ⟨none, none⟩ (some 150) none emptyStores =
        (.ok ⟨"host-0101/dev", Hex.encode (sampleKey 1).toList, 200, 150⟩, stores') ∧
      ((TicketStore.load "tickets.json" stores'.tickets).toOption.bind
        fun tickets => tickets.get "host-0101/dev").map TicketEntry.ticketString =
          some "portlshare" ∧
      shareText none "portlshare" = .ok (shareTicket none) ∧
      (shareTicket none).body.holder = none := by
  have hok : (importSessionShareEnvelope (.transparent []) (shareText none) asciiLower
      sampleEnvelope ⟨none, none⟩ (some 150) none emptyStores).1 =
        .ok ⟨"host-0101/dev", Hex.encode (sampleKey 1).toList, 200, 150⟩ := by decide +kernel
  exact ⟨_, Prod.ext hok rfl, by decide +kernel, rfl, rfl⟩

/-! ## Labels stay unique -/

inductive TicketCommand where
  | importShare (envelope : PortlExchangeEnvelopeV1) (options : ImportSessionShareOptions)
      (clock : Option UInt64) (fault : Option String)
  | saveTicket (label : Option String) (ticketString : String) (found : Option PeerEntry)
      (now : UInt64) (fault : Option String)

section Runs

variable (P : Primitives) (decodeString : String → Except String PortlTicket)
  (lower : Char → List Char)

def Stores.step (stores : Stores) (command : TicketCommand) : Stores :=
  match command with
  | .importShare envelope options clock fault =>
    (importSessionShareEnvelope P decodeString lower envelope options clock fault stores).2
  | .saveTicket label ticketString found now fault =>
    (saveTicketAt decodeString lower label ticketString found now fault stores).2

variable {P decodeString lower} {stores : Stores}

/-- The entry that `portl ticket save` makes. -/
def ticketEntryOf (ticket : PortlTicket) (ticketString : String) (now : UInt64) : TicketEntry :=
  ⟨Hex.encode ticket.addr.id.toList, ticketString, ticket.body.notAfter, now, none⟩

theorem prepareTicket_eq_ok {label : Option String} {ticketString : String}
    {found : Option PeerEntry} {now : UInt64} {saved : SavedTicket}
    (h : prepareTicket decodeString lower label ticketString found now stores =
      .ok (after, saved)) :
    ∃ ticket peers before, decodeString ticketString = .ok ticket ∧
      PeerStore.load stores.peersPath stores.peers = .ok peers ∧
      TicketStore.load stores.ticketsPath stores.tickets = .ok before ∧
      Placed saved.label (ticketEntryOf ticket ticketString now) peers before after := by
  simp only [prepareTicket, bind_eq_ok, mapError_eq_ok, failIf_eq_ok] at h
  obtain ⟨ticket, hticket, -, -, peers, hpeers, before, hbefore, -, -, -, hpeer, room, hroom, placed,
    hinsert, hout⟩ := h
  obtain ⟨rfl, rfl⟩ := Prod.mk.inj (Except.ok.inj hout)
  exact ⟨ticket, peers, before, hticket, hpeers, hbefore,
    placed_of_insert (makeRoomForSave_eq_ok hroom) hinsert hpeer⟩

theorem Stores.step_cases (stores : Stores) (command : TicketCommand) :
    stores.step P decodeString lower command = stores ∨
      ∃ label entry peers before after,
        PeerStore.load stores.peersPath stores.peers = .ok peers ∧
        TicketStore.load stores.ticketsPath stores.tickets = .ok before ∧
        Placed label entry peers before after ∧
        stores.step P decodeString lower command = { stores with tickets := .stored after } := by
  cases command with
  | importShare envelope options clock fault =>
    show (stores.commit fault
      (prepareSessionShare P decodeString lower envelope options clock stores)).2 = _ ∨ _
    rcases stores.commit_cases fault
      (prepareSessionShare P decodeString lower envelope options clock stores) with
      ⟨err, hcommit⟩ | ⟨after, result, hprepare, hcommit⟩
    · exact Or.inl (congrArg Prod.snd hcommit)
    · obtain ⟨-, -, entry, -, peers, before, -, -, hpeers, hbefore, -, hplaced⟩ :=
        prepareSessionShare_eq_ok hprepare
      exact Or.inr ⟨_, entry, peers, before, after, hpeers, hbefore, hplaced,
        congrArg Prod.snd hcommit⟩
  | saveTicket label ticketString found now fault =>
    show (stores.commit fault
      (prepareTicket decodeString lower label ticketString found now stores)).2 = _ ∨ _
    rcases stores.commit_cases fault
      (prepareTicket decodeString lower label ticketString found now stores) with
      ⟨err, hcommit⟩ | ⟨after, result, hprepare, hcommit⟩
    · exact Or.inl (congrArg Prod.snd hcommit)
    · obtain ⟨ticket, peers, before, -, hpeers, hbefore, hplaced⟩ := prepareTicket_eq_ok hprepare
      exact Or.inr ⟨_, _, peers, before, after, hpeers, hbefore, hplaced,
        congrArg Prod.snd hcommit⟩

end Runs

end Portl
