import Portl.Agent.Pipeline

/-!
# Revoking, and staying revoked

The two ways a ticket gets revoked — `publish_revocations` of the meta handler
and the `revoke` command of the command line tool — and what the store does
with the record afterwards, over any run of the agent's operations.

Both writers leave the expiry of the ticket out of the record, so the linger
window after `revoked_at` is all that keeps it (`Held`); once the window is over a
collection drops it, however long the ticket is still valid.
-/

namespace Portl

open Checks List

/-! ## The meta handler -/

inductive ErrorKind where
  | protoError
  | capDenied
  | notFound
  | rateLimited
  | resourceExhausted
  | overloaded
  | versionMismatch
  | internalError
  | timeout
  | cancelled
deriving DecidableEq

structure ProtoError where
  kind : ErrorKind
  message : String
  retryAfterMs : Option UInt64
deriving DecidableEq

/-- `MetaResp`, restricted to the answers of `publish_revocations`. -/
inductive MetaResp where
  | publishedRevocations (accepted : UInt32) (rejected : List (Bytes × String))
  | error (error : ProtoError)
deriving DecidableEq

def maxPublishItems : ℕ := 1000

def capDenied (message : String) : MetaResp := .error ⟨.capDenied, message, none⟩

/-- The record published for an item of the right length. The expiry of the
ticket is not known here. -/
def publishRecord (callerEndpointId : Bytes32) (now : UInt64) (id : Bytes16) :
    RevocationRecord :=
  .new id ("meta_publish_from_" ++ Hex.encode callerEndpointId.toList) now none

def publishBatch (callerEndpointId : Bytes32) (now : UInt64) (items : List Bytes) :
    List RevocationRecord :=
  items.filterMap fun raw => (tryFromSlice 16 raw).map (publishRecord callerEndpointId now)

def rejectedItems (items : List Bytes) : List (Bytes × String) :=
  (items.filter fun raw => (tryFromSlice 16 raw).isNone).map fun raw =>
    (raw, "ticket_id must be 16 bytes")

variable (J : JsonCodec)

def publishRevocations (metaCaps : Option MetaCaps) (callerEndpointId : Bytes32)
    (items : List Bytes) (clock : Except String UInt64) (fault : Option String) (s : Store) :
    MetaResp × Store :=
  if metaCaps.any (fun caps => caps.info) = false then
    (capDenied "publish revocations requires meta.info capability", s)
  else if items.length > maxPublishItems then
    (.error ⟨.rateLimited, "batch exceeds 1000 records; split into smaller requests",
      some 1000⟩, s)
  else
    match clock with
    | .error err => (.error ⟨.internalError, "unix time unavailable: " ++ err, none⟩, s)
    | .ok now =>
      let batch := publishBatch callerEndpointId now items
      match s.appendBatchAtomic J fault batch with
      | (.ok _, s') =>
        (.publishedRevocations (UInt32.ofNat batch.length) (rejectedItems items), s')
      | (.error (.sizeCeilingExceeded current added max), s') =>
        (.error ⟨.resourceExhausted,
          "revocations.jsonl ceiling exceeded: current=" ++ toString current ++
            " append=" ++ toString added ++ " max=" ++ toString max, none⟩, s')
      | (.error err, s') =>
        (.error ⟨.internalError, "append revocations: " ++ err.message, none⟩, s')

/-! ## The command line -/

/-- What the alias store keeps for a name, as far as revoking looks at it. -/
structure StoredSpec where
  rootTicketId : Option Bytes16
  ticketFilePath : Option String

/-- The outside of the `revoke` command: the alias store, the file system, and
the ticket parser of the transport library. -/
structure CliEnv where
  /-- `store.get(name)` and `store.get_spec(name)` -/
  storedAlias : String → Option (Option StoredSpec)
  /-- `fs::read_to_string(path)` -/
  readToString : String → Option String
  /-- `<PortlTicket as Ticket>::decode_string` -/
  decodeString : String → Except String PortlTicket

variable (P : Primitives) (env : CliEnv)

def isAsciiHexdigit (c : Char) : Bool := (Hex.value c).isSome

def parseTicketIdHex (raw : String) : Except String (Option Bytes16) :=
  let trimmed := Lines.trim raw.toList
  if trimmed.all isAsciiHexdigit = false then .ok none
  else
    match Hex.decodeChars trimmed with
    | none => .error "decode ticket id hex"
    | some decoded =>
      match tryFromSlice 16 decoded, tryFromSlice 8 decoded with
      | some id, _ => .ok (some id)
      | none, some _ => .ok (tryFromSlice 16 (decoded ++ List.replicate 8 0))
      | none, none => .ok none

/-- `append_manual_revocation`: again without the expiry of the ticket. -/
def appendManualRevocation (id : Bytes16) (clock : Except String UInt64)
    (fault : Option AppendFault) (disk : Disk) : Except String Unit × Disk :=
  match clock with
  | .error err => (.error err, disk)
  | .ok now =>
    ((appendRecord J fault disk (.new id "manual" now none)).1.mapError AppendError.message,
      (appendRecord J fault disk (.new id "manual" now none)).2)

def ticketUriId (uri : String) : Except String Bytes16 := do
  match ← parseTicketIdHex uri with
  | some id => .ok id
  | none =>
    let ticket ← (env.decodeString uri).mapError fun err => "parse ticket: " ++ err
    .ok (ticketId P ticket.sig)

def aliasTicketId (name : String) : Except String Bytes16 := do
  let spec ← okOr (env.storedAlias name) ("unknown alias " ++ name)
  let spec ← okOr spec ("missing stored spec for alias " ++ name)
  match spec.rootTicketId, spec.ticketFilePath with
  | some id, _ => .ok id
  | none, some path =>
    let raw ← okOr (env.readToString path) ("read stored ticket " ++ path)
    let ticket ← (env.decodeString (String.ofList (Lines.trim raw.toList))).mapError
      fun err => "parse stored ticket " ++ path ++ ": " ++ err
    .ok (ticketId P ticket.sig)
  | none, none => .error ("alias " ++ name ++ " does not have a stored root ticket")

/-- The common shape of `revoke_ticket_uri` and `revoke_alias`: find the id,
append a record for it, return it. -/
def revokeId (named : Except String Bytes16) (clock : Except String UInt64)
    (fault : Option AppendFault) (disk : Disk) : Except String Bytes16 × Disk :=
  match named with
  | .error err => (.error err, disk)
  | .ok id =>
    ((appendManualRevocation J id clock fault disk).1.map fun _ => id,
      (appendManualRevocation J id clock fault disk).2)

def revokeTicketUri (uri : String) (clock : Except String UInt64)
    (fault : Option AppendFault) (disk : Disk) : Except String Bytes16 × Disk :=
  revokeId J (ticketUriId P env uri) clock fault disk

def revokeAlias (name : String) (clock : Except String UInt64)
    (fault : Option AppendFault) (disk : Disk) : Except String Bytes16 × Disk :=
  revokeId J (aliasTicketId P env name) clock fault disk

/-! ## Runs of the store -/

/-- A collection, if it is one, runs inside the linger window of a record
revoked at `revokedAt`. -/
def StoreOp.WithinLinger (revokedAt : UInt64) (op : StoreOp) : Prop :=
  match op with
  | .gc now => now < revokedAt + revocationLingerSecs
  | _ => True

def StoreOp.KeepsLines (op : StoreOp) : Prop :=
  match op with
  | .gc _ => True
  | .cliAppend _ _ => True
  | _ => False

def OnDisk (record : RevocationRecord) (disk : Disk) : Prop :=
  ∃ raw, disk = some raw ∧ Lines.HasLine raw (J.toJson record)

/-- The record is in memory, counted among the revoked ids, and on file. -/
structure Held (record : RevocationRecord) (id : Bytes16) (s : Store) : Prop where
  decodes : record.ticketIdBytes = .ok id
  in_memory : record ∈ s.set.records
  in_ids : id ∈ s.set.ids
  on_disk : OnDisk J record s.disk

variable {J} {record : RevocationRecord} {id : Bytes16} {s : Store} {disk : Disk}
  {now revokedAt : UInt64}

theorem onDisk_append (h : OnDisk J record disk) (added : List Char) :
    OnDisk J record (some (disk.getD [] ++ added)) := by
  obtain ⟨raw, rfl, hline⟩ := h
  exact ⟨_, rfl, hline.append added⟩

theorem onDisk_encodeRecords {records : List RevocationRecord} (h : record ∈ records) :
    OnDisk J record (some (encodeRecords J records)) :=
  ⟨_, rfl, hasLine_encodeRecords h⟩

variable {fault : Option AppendFault} {ops : List StoreOp} {caller : Bytes32} {items : List Bytes}
  {bytes : Bytes} {input : AcceptanceInput} {t : PortlTicket} {P : Primitives}

theorem onDisk_cliAppend {other : RevocationRecord} (h : OnDisk J record disk) :
    OnDisk J record (appendRecord J fault disk other).2 := by
  unfold appendRecord
  rcases appendRecordLimited_cases fault disk other defaultRevocationsMaxBytes with
    heq | ⟨added, heq⟩
  · rw [heq]
    exact h
  · rw [heq]
    exact onDisk_append h added

theorem held_gc (hat : record.revokedAt = some revokedAt)
    (hnow : now < revokedAt + revocationLingerSecs) (h : Held J record id s) :
    Held J record id (s.gc now).2 := by
  have hret : retained now record = true := by
    simp [retained, hat, hnow]
  have hmem : record ∈ s.set.records.filter (retained now) :=
    mem_filter.mpr ⟨h.in_memory, hret⟩
  exact ⟨h.decodes, hmem, mem_idsOf.mpr ⟨record, hmem, h.decodes⟩, h.on_disk⟩

theorem held_persist (fault : Option String) (h : Held J record id s) :
    Held J record id (s.persist J fault).2 := by
  rcases persist_cases fault s with heq | heq
  · rw [heq]
    exact h
  · rw [heq]
    exact ⟨h.decodes, h.in_memory, h.in_ids, onDisk_encodeRecords h.in_memory⟩

theorem held_appendBatchAtomic (fault : Option String) (records : List RevocationRecord)
    (h : Held J record id s) : Held J record id (s.appendBatchAtomic J fault records).2 := by
  rcases appendBatchAtomic_cases fault records s with heq | ⟨batch, hbatch, heq⟩
  · rw [heq]
    exact h
  · obtain ⟨news, ids, -, -, hnew, -⟩ := collectPending_eq_ok hbatch
    -- the file is rewritten from memory, where the record is
    have hmem : record ∈ s.set.records ++ batch.pending :=
      mem_append_left _ h.in_memory
    rw [heq]
    refine ⟨h.decodes, hmem, ?_, onDisk_encodeRecords hmem⟩
    show id ∈ batch.newIds
    rw [hnew]
    exact Finset.mem_union_left _ h.in_ids

theorem held_syncFromDisk (fault : Option SyncFault) (h : Held J record id s) :
    Held J record id (s.syncFromDisk J fault).2 := by
  rcases syncFromDisk_cases (J := J) fault s with heq | ⟨raw, records, hdisk, hparse, heq⟩
  · rw [heq]
    exact h
  · obtain ⟨raw', hraw', hline⟩ := h.on_disk
    obtain rfl : raw = raw' := Option.some.inj (hdisk.symm.trans hraw')
    -- a full line is read as itself, whatever stands around it
    have hmem : record ∈ records := mem_of_parse hparse hline
    rw [heq]
    exact ⟨h.decodes, hmem, mem_idsOf.mpr ⟨record, hmem, h.decodes⟩, h.on_disk⟩

/-- **One step keeps a held record held**, a collection within the linger
window included. -/
theorem held_step (hat : record.revokedAt = some revokedAt) {op : StoreOp}
    (hop : op.WithinLinger revokedAt) (h : Held J record id s) : Held J record id (op.apply J s) := by
  cases op with
  | gc now => exact held_gc hat hop h
  | persist fault => exact held_persist fault h
  | syncFromDisk fault => exact held_syncFromDisk fault h
  | appendBatchAtomic fault records => exact held_appendBatchAtomic fault records h
  | cliAppend fault other =>
    exact ⟨h.decodes, h.in_memory, h.in_ids, onDisk_cliAppend h.on_disk⟩

/-- **A run keeps it held.** -/
theorem held_run (hat : record.revokedAt = some revokedAt)
    (hops : ∀ op ∈ ops, op.WithinLinger revokedAt) (h : Held J record id s) :
    Held J record id (runOps J ops s) :=
  List.foldlRecOn ops (StoreOp.apply J) h fun _ hs op hop => held_step hat (hops op hop) hs

theorem onDisk_run (hops : ∀ op ∈ ops, op.KeepsLines) (h : OnDisk J record s.disk) :
    OnDisk J record (runOps J ops s).disk := by
  refine List.foldlRecOn ops (StoreOp.apply J) (motive := fun s => OnDisk J record s.disk) h ?_
  intro s hs op hop
  cases op with
  | gc now => exact hs
  | cliAppend fault other => exact onDisk_cliAppend hs
  | persist | syncFromDisk | appendBatchAtomic =>
    exact absurd (hops _ hop) (by simp [StoreOp.KeepsLines])

/-! ## The acts -/

def Disk.EndsLine (disk : Disk) : Prop :=
  disk.getD [] = [] ∨ (disk.getD []).getLast? = some '\n'

theorem ticketIdBytes_new (id : Bytes16) (reason : String) (revokedAt : UInt64)
    (notAfter : Option UInt64) :
    (RevocationRecord.new id reason revokedAt notAfter).ticketIdBytes = .ok id :=
  decodeTicketId_encode id

theorem mem_publishBatch (h : record ∈ publishBatch caller now items) :
    ∃ id, record = publishRecord caller now id := by
  obtain ⟨raw, -, hraw⟩ := mem_filterMap.mp h
  obtain ⟨id, -, rfl⟩ := Option.map_eq_some_iff.mp hraw
  exact ⟨id, rfl⟩

theorem held_of_publish {metaCaps : Option MetaCaps} {fault : Option String} {accepted : UInt32}
    {rejected : List (Bytes × String)} (hitem : id.toList ∈ items) (hfresh : id ∉ s.set.ids)
    (h : (publishRevocations J metaCaps caller items (.ok now) fault s).1 =
      .publishedRevocations accepted rejected) :
    Held J (publishRecord caller now id) id
      (publishRevocations J metaCaps caller items (.ok now) fault s).2 := by
  have hmemBatch : publishRecord caller now id ∈ publishBatch caller now items :=
    mem_filterMap.mpr ⟨id.toList, hitem, by rw [tryFromSlice_toList, Option.map_some]⟩
  unfold publishRevocations at h ⊢
  split at h
  · cases h
  rename_i hcaps
  split at h
  · cases h
  rename_i hlen
  rw [if_neg hcaps, if_neg hlen]
  dsimp only at h ⊢
  split at h
  · rename_i n s' happend
    obtain ⟨batch, hbatch, -, hcommit⟩ := appendBatchAtomic_ok (congrArg Prod.fst happend)
    rw [happend] at hcommit
    have hdec := ticketIdBytes_new id ("meta_publish_from_" ++ Hex.encode caller.toList) now none
    -- whatever the batch has for the id is this record
    have honly : ∀ other ∈ publishBatch caller now items, other.ticketIdBytes = .ok id →
        other = publishRecord caller now id := by
      intro other hother hotherId
      obtain ⟨id', rfl⟩ := mem_publishBatch hother
      rw [Except.ok.inj (hotherId.symm.trans (ticketIdBytes_new _ _ _ _))]
    obtain ⟨hpending, hid'⟩ := mem_pending hbatch hmemBatch hdec hfresh honly
    rcases hcommit with hnil | rfl
    · rw [hnil] at hpending
      cases hpending
    · have hmem := mem_append_right s.set.records hpending
      exact ⟨hdec, hmem, hid', onDisk_encodeRecords hmem⟩
  · cases h
  · cases h

theorem onDisk_of_revokeId {named : Except String Bytes16} (hdisk : disk.EndsLine)
    (h : (revokeId J named (.ok now) fault disk).1 = .ok id) :
    OnDisk J (.new id "manual" now none) (revokeId J named (.ok now) fault disk).2 := by
  cases named with
  | error e => cases h
  | ok named =>
    simp only [revokeId, appendManualRevocation, appendRecord] at h ⊢
    cases happ : (appendRecordLimited J fault disk (.new named "manual" now none)
        defaultRevocationsMaxBytes).1 with
    | error e =>
      rw [happ] at h
      cases h
    | ok u =>
      rw [happ] at h
      obtain rfl : named = id := Except.ok.inj h
      rw [appendRecordLimited_ok happ]
      exact ⟨_, rfl, Lines.hasLine_append_record hdisk _⟩

theorem held_of_sync {fault : Option SyncFault} {n : ℕ} (hdec : record.ticketIdBytes = .ok id)
    (hdisk : OnDisk J record s.disk) (h : (s.syncFromDisk J fault).1 = .ok n) :
    Held J record id (s.syncFromDisk J fault).2 := by
  obtain ⟨raw, hraw, hline⟩ := hdisk
  obtain ⟨records, hparse, hrecords, hids, hdisk⟩ := syncFromDisk_ok h hraw
  have hmem : record ∈ records := mem_of_parse hparse hline
  refine ⟨hdec, by rw [hrecords]; exact hmem, ?_, ?_⟩
  · rw [hids]
    exact mem_idsOf.mpr ⟨record, hmem, hdec⟩
  · rw [hdisk]
    exact ⟨raw, hraw, hline⟩

/-- `id` is revoked at time `revokedAt`, as the agent sees it: published for the
first time, or revoked on the command line and read back from the file. -/
inductive RevokedAt (P : Primitives) (env : CliEnv) (J : JsonCodec) (id : Bytes16)
    (revokedAt : UInt64) : Store → Prop
  | published {s : Store} {metaCaps : Option MetaCaps} {caller : Bytes32}
      {items : List Bytes} {fault : Option String} {accepted : UInt32}
      {rejected : List (Bytes × String)} :
      id.toList ∈ items → id ∉ s.set.ids →
      (publishRevocations J metaCaps caller items (.ok revokedAt) fault s).1 =
        .publishedRevocations accepted rejected →
      RevokedAt P env J id revokedAt
        (publishRevocations J metaCaps caller items (.ok revokedAt) fault s).2
  | uri {s : Store} {uri : String} {fault : Option AppendFault} {ops : List StoreOp}
      {syncFault : Option SyncFault} {n : ℕ} :
      s.disk.EndsLine →
      (revokeTicketUri J P env uri (.ok revokedAt) fault s.disk).1 = .ok id →
      (∀ op ∈ ops, op.KeepsLines) →
      ((runOps J ops { s with
        disk := (revokeTicketUri J P env uri (.ok revokedAt) fault s.disk).2 }).syncFromDisk J
          syncFault).1 = .ok n →
      RevokedAt P env J id revokedAt ((runOps J ops { s with
        disk := (revokeTicketUri J P env uri (.ok revokedAt) fault s.disk).2 }).syncFromDisk J
          syncFault).2
  | storedAlias {s : Store} {name : String} {fault : Option AppendFault} {ops : List StoreOp}
      {syncFault : Option SyncFault} {n : ℕ} :
      s.disk.EndsLine →
      (revokeAlias J P env name (.ok revokedAt) fault s.disk).1 = .ok id →
      (∀ op ∈ ops, op.KeepsLines) →
      ((runOps J ops { s with
        disk := (revokeAlias J P env name (.ok revokedAt) fault s.disk).2 }).syncFromDisk J
          syncFault).1 = .ok n →
      RevokedAt P env J id revokedAt ((runOps J ops { s with
        disk := (revokeAlias J P env name (.ok revokedAt) fault s.disk).2 }).syncFromDisk J
          syncFault).2

theorem held_of_revokedAt {env : CliEnv} (h : RevokedAt P env J id revokedAt s) :
    ∃ record, record.revokedAt = some revokedAt ∧ Held J record id s := by
  cases h with
  | published hitem hfresh hok => exact ⟨_, rfl, held_of_publish hitem hfresh hok⟩
  | uri hdisk hok hops hsync | storedAlias hdisk hok hops hsync =>
    exact ⟨_, rfl, held_of_sync (ticketIdBytes_new _ _ _ _)
      (onDisk_run hops (onDisk_of_revokeId hdisk hok)) hsync⟩

theorem mem_of_decoded {terminal root : PortlTicket} {chain : List PortlTicket}
    (h : OfferConditions P input terminal chain root)
    (hbytes : bytes ∈ input.offer.ticket :: input.offer.chain)
    (hdec : P.ticketFromBytes bytes = some t) : t ∈ chain ++ [terminal] := by
  rcases mem_cons.mp hbytes with rfl | hbytes
  · have hterm := (decodeOfferTicket_eq_ok.mp h.terminal_decoded).1
    rw [Option.some.inj (hdec.symm.trans hterm)]
    exact mem_append_right _ (mem_singleton_self _)
  · obtain ⟨ticket, hticket, hdecoded⟩ := exists_of_forall₂ h.chain_decoded hbytes
    have hsame := (decodeOfferTicket_eq_ok.mp hdecoded).1
    rw [Option.some.inj (hdec.symm.trans hsame)]
    exact mem_append_left _ hticket

theorem evaluateOffer_rejects (hbytes : bytes ∈ input.offer.ticket :: input.offer.chain)
    (hdec : P.ticketFromBytes bytes = some t) (hrev : ticketId P t.sig ∈ input.revocations.ids) :
    ∃ reason, evaluateOffer P input = .rejected reason := by
  refine evaluateOffer_rejected_of_not_accepted fun session hacc => ?_
  obtain ⟨terminal, chain, root, hcond, -⟩ :=
    acceptOffer_eq_ok.mp (evaluateOffer_eq_accepted.mp hacc)
  exact hcond.unrevoked t (mem_of_decoded hcond hbytes hdec) hrev

/-- **Revoked within the linger window means rejected.** After a ticket was
revoked, no run of store operations whose collections fall inside the linger
window of the record lets an offer with that ticket through, at any time. -/
theorem evaluateOffer_rejects_revoked {P : Primitives} {env : CliEnv} {J : JsonCodec}
    {id : Bytes16} {revokedAt : UInt64} {s : Store} (hrev : RevokedAt P env J id revokedAt s)
    {ops : List StoreOp} (hops : ∀ op ∈ ops, op.WithinLinger revokedAt)
    {input : AcceptanceInput} (hset : input.revocations = (runOps J ops s).set)
    {t : PortlTicket} {bytes : Bytes}
    (hbytes : bytes ∈ input.offer.ticket :: input.offer.chain)
    (hdec : P.ticketFromBytes bytes = some t) (hid : ticketId P t.sig = id) :
    ∃ reason, evaluateOffer P input = .rejected reason := by
  obtain ⟨record, hat, hheld⟩ := held_of_revokedAt hrev
  refine evaluateOffer_rejects hbytes hdec ?_
  rw [hid, hset]
  exact (held_run hat hops hheld).in_ids

/-! ### A published revocation, inside and after its window -/

def longTicket : PortlTicket :=
  { sampleRoot with body := { sampleRoot.body with notAfter := 1000000 } }

def longPrimitives : Primitives := .transparent [longTicket]

def bareCli : CliEnv where
  storedAlias _ := none
  readToString _ := none
  decodeString _ := .error "kind"

def publishedAt150 : MetaResp × Store :=
  publishRevocations .sample (some ⟨true, true⟩) (sampleKey 3)
    [(ticketId longPrimitives longTicket.sig).toList] (.ok 150) none emptyStore

def longInput (now : UInt64) (revocations : RevocationSet) : AcceptanceInput :=
  { sampleInput 0 [] none .listener revocations with now := now }

theorem longInput_revocations (now : UInt64) (revocations : RevocationSet) :
    (longInput now revocations).revocations = revocations := rfl

theorem evaluateOffer_rejects_revoked_published :
    RevokedAt longPrimitives bareCli .sample (ticketId longPrimitives longTicket.sig) 150
      publishedAt150.2 ∧
    ∃ reason, evaluateOffer longPrimitives
      (longInput 604949 (runOps .sample
        [.gc 604949, .persist none, .syncFromDisk none] publishedAt150.2).set) =
      .rejected reason := by
  have hrev : RevokedAt longPrimitives bareCli .sample
      (ticketId longPrimitives longTicket.sig) 150 publishedAt150.2 := by
    have hfresh : ticketId longPrimitives longTicket.sig ∉ emptyStore.set.ids := by
      decide +kernel
    have hok : publishedAt150.1 = .publishedRevocations 1 [] := by decide +kernel
    exact .published (mem_singleton_self _) hfresh hok
  have hops : ∀ op ∈ [StoreOp.gc 604949, .persist none, .syncFromDisk none],
      op.WithinLinger 150 := by
    simp [StoreOp.WithinLinger, revocationLingerSecs]
  have hdec : longPrimitives.ticketFromBytes [0] = some longTicket := by decide +kernel
  exact ⟨hrev, evaluateOffer_rejects_revoked hrev hops (longInput_revocations _ _)
    mem_cons_self hdec rfl⟩

/-- One second later the collection drops the record, and the ticket, valid
until 1000000, is accepted again. -/
theorem evaluateOffer_accepts_collected :
    publishedAt150.1 = .publishedRevocations 1 [] ∧
    evaluateOffer longPrimitives (longInput 604949 publishedAt150.2.set) = .rejected .revoked ∧
    (∃ session, evaluateOffer longPrimitives
      (longInput 604950 (runOps .sample [.gc 604950, .persist none]
        publishedAt150.2).set) = .accepted session) ∧
    604950 < longTicket.body.notAfter := by
  refine ⟨?_, ?_, ⟨sessionFor longPrimitives (longInput 604950 emptyRevocations) longTicket []
    longTicket, ?_⟩, ?_⟩ <;> decide +kernel

end Portl
