import Mathlib.Algebra.Order.Ring.Nat
import Mathlib.Data.String.Basic
import Portl.Agent.LiveSessions
import Portl.Lib.Checks
import Portl.Lib.Hex
import Portl.Lib.Lines
import Portl.Lib.Word

/-!
# The revocation set

`revocations.rs`: an in-memory set of ticket ids with the records it was built
from, the JSONL file beside it, and the index of live sessions to cancel. File
and memory are two components of one `Store`; the third collects the tokens
cancelled so far.

Operating-system calls can fail; the text of the failure is an argument (`none`
for a call that goes through). Replacing the file is a write to a sibling
followed by a rename; a failed append may leave part of a line behind.
-/

namespace Portl

open Checks

def revocationLingerSecs : UInt64 := 7 * 86400

def defaultRevocationsMaxBytes : UInt64 := 10 * 1024 * 1024

/-- `<[u8; n]>::try_from(bytes)`. -/
def tryFromSlice (n : ℕ) (bytes : Bytes) : Option (Vector UInt8 n) :=
  if h : bytes.length = n then some ⟨bytes.toArray, by simpa using h⟩ else none

variable {n : ℕ} {raw : List Char} {id : Bytes16} {ids : Finset Bytes16}

theorem tryFromSlice_toList (v : Vector UInt8 n) : tryFromSlice n v.toList = some v := by
  simp [tryFromSlice, Vector.toList]

def decodeTicketId (hexId : String) : Except String Bytes16 := do
  let bytes ← okOr (Hex.decode hexId) ("decode ticket id " ++ hexId)
  okOr (tryFromSlice 16 bytes) ("ticket id must be exactly 16 bytes: " ++ hexId)

theorem decodeTicketId_encode (id : Bytes16) : decodeTicketId (Hex.encode id.toList) = .ok id := by
  simp only [decodeTicketId, Hex.decode_encode, bind_eq_ok, okOr_eq_ok]
  exact ⟨_, rfl, tryFromSlice_toList id⟩

/-! ## Records and their text -/

structure RevocationRecord where
  ticketId : String
  reason : String
  revokedAt : Option UInt64
  notAfterOfTicket : Option UInt64
deriving DecidableEq

namespace RevocationRecord

def new (ticketId : Bytes16) (reason : String) (revokedAt : UInt64)
    (notAfterOfTicket : Option UInt64) : RevocationRecord :=
  { ticketId := Hex.encode ticketId.toList, reason := reason, revokedAt := some revokedAt,
    notAfterOfTicket := notAfterOfTicket }

def ticketIdBytes (record : RevocationRecord) : Except String Bytes16 :=
  decodeTicketId record.ticketId

end RevocationRecord

/-- `serde_json` on a `RevocationRecord`, of which only this much is used: what
`to_string` writes is one line that trimming leaves alone, and `from_str` reads
it back. -/
structure JsonCodec where
  toJson : RevocationRecord → List Char
  fromStr : List Char → Option RevocationRecord
  toJson_isRecord : ∀ record, Lines.IsRecord (toJson record)
  fromStr_toJson : ∀ record, fromStr (toJson record) = some record

/-! ### A codec

A brace and the fields between commas, every character of a field as two
letters from U+0100 on: enough to run the definitions. -/

namespace JsonCodec

def letters (c : Char) : List Char :=
  [Char.ofNat (256 + c.toNat / 1024), Char.ofNat (256 + c.toNat % 1024)]

def ofLetters : List Char → List Char
  | high :: low :: rest =>
    Char.ofNat ((high.toNat - 256) * 1024 + (low.toNat - 256)) :: ofLetters rest
  | _ => []

theorem toNat_letter {k : ℕ} (h : k < 1088) : (Char.ofNat (256 + k)).toNat = 256 + k := by
  rw [Char.ofNat, dif_pos (Or.inl (by omega))]
  rfl

theorem toNat_lt (c : Char) : c.toNat < 1088 * 1024 := by
  rcases c.valid with h | h <;> show c.val.toNat < _ <;> omega

theorem ofLetters_flatMap (text : List Char) : ofLetters (text.flatMap letters) = text := by
  induction text with
  | nil => rfl
  | cons c text ih =>
    have hlt := toNat_lt c
    rw [List.flatMap_cons, letters, List.cons_append, List.cons_append, List.nil_append, ofLetters,
      toNat_letter (by omega), toNat_letter (by omega), ih, Nat.add_sub_cancel_left,
      Nat.add_sub_cancel_left, Nat.div_add_mod', Char.ofNat_toNat]

theorem mem_letters {c d : Char} (h : d ∈ letters c) : 256 ≤ d.toNat ∧ d.toNat < 1344 := by
  have hlt := toNat_lt c
  simp only [letters, List.mem_cons, List.not_mem_nil, or_false] at h
  rcases h with rfl | rfl <;> rw [toNat_letter (by omega)] <;> omega

def digits (value : Option UInt64) : List Char :=
  match value with
  | none => []
  | some n => Nat.toDigits 10 n.toNat

def ofDigits (text : List Char) : Option UInt64 :=
  if text = [] then none else some (UInt64.ofNat (Nat.ofDigitChars 10 text 0))

theorem ofDigits_digits (value : Option UInt64) : ofDigits (digits value) = value := by
  cases value with
  | none => rfl
  | some n => simp [ofDigits, digits, Nat.toDigits_ne_nil, Nat.ofDigitChars_ten_toDigits]

def texts (record : RevocationRecord) : List (List Char) :=
  [record.ticketId.toList, record.reason.toList, digits record.revokedAt,
    digits record.notAfterOfTicket]

def ofTexts : List (List Char) → Option RevocationRecord
  | [ticketId, reason, revokedAt, notAfterOfTicket] =>
    some ⟨.ofList ticketId, .ofList reason, ofDigits revokedAt, ofDigits notAfterOfTicket⟩
  | _ => none

def fieldList (record : RevocationRecord) : List Char :=
  [','].intercalate ((texts record).map (List.flatMap letters))

theorem mem_fieldList {c : Char} {record : RevocationRecord} (h : c ∈ fieldList record) :
    c = ',' ∨ 256 ≤ c.toNat ∧ c.toNat < 1344 := by
  simp only [fieldList, texts, List.map_cons, List.map_nil, List.intercalate,
    List.intersperse, List.flatten_cons, List.flatten_nil, List.mem_append, List.mem_flatMap,
    List.mem_singleton, List.not_mem_nil, or_false] at h
  grind [mem_letters]

def sample : JsonCodec where
  toJson record := '\x7b' :: fieldList record
  fromStr text :=
    if text.head? = some '\x7b' ∧ '\x7b' ∉ text.tail then
      ofTexts ((text.tail.splitOn ',').map ofLetters)
    else none
  toJson_isRecord record := by
    have hws : ∀ c ∈ '\x7b' :: fieldList record, Lines.isWhitespace c = false := by
      intro c hc
      rcases List.mem_cons.mp hc with rfl | hc
      · decide
      rcases mem_fieldList hc with rfl | ⟨hge, hlt⟩
      · decide
      · simp [Lines.isWhitespace]
        omega
    exact ⟨fun h => absurd (hws _ h) (by decide), fun c h => hws c (List.mem_of_head? h),
      fun c h => hws c (List.mem_of_getLast? h), List.cons_ne_nil _ _⟩
  fromStr_toJson record := by
    have hbrace : '\x7b' ∉ fieldList record := fun h => absurd (mem_fieldList h) (by decide)
    have hcomma : ∀ text ∈ (texts record).map (List.flatMap letters), ',' ∉ text := by
      intro text htext h
      obtain ⟨field, -, rfl⟩ := List.mem_map.mp htext
      obtain ⟨c, -, hc⟩ := List.mem_flatMap.mp h
      exact absurd (mem_letters hc) (by decide)
    rw [if_pos ⟨rfl, hbrace⟩, List.tail_cons, fieldList,
      List.splitOn_intercalate _ hcomma (List.cons_ne_nil _ _), List.map_map]
    simp [Function.comp_def, ofLetters_flatMap, texts, ofTexts, ofDigits_digits]

end JsonCodec

/-! ## The file -/

/-- The contents of the file, `none` while there is no such file. -/
abbrev Disk : Type := Option (List Char)

/-- `str::len`, and with it the length of a file. -/
def byteLen (text : List Char) : UInt64 := Word.clamp (text.map Char.utf8Size).sum

/-- `fs::metadata(file).map_or(0, len)`. -/
def Disk.currentBytes (disk : Disk) : UInt64 :=
  match disk with
  | none => 0
  | some text => byteLen text

variable (J : JsonCodec)

def encodeRecords (records : List RevocationRecord) : List Char :=
  Lines.unlines (records.map J.toJson)

def writeJsonl (fault : Option String) (disk : Disk) (records : List RevocationRecord) :
    Except String Unit × Disk :=
  match fault with
  | some message => (.error message, disk)
  | none => (.ok (), some (encodeRecords J records))

/-- The call of `append_record_limited` that fails; a failed write has put that
many characters into the file. -/
inductive AppendFault where
  | createDir (message : String)
  | openFile (message : String)
  | write (written : ℕ) (message : String)
deriving DecidableEq

inductive AppendError where
  | sizeCeilingExceeded (currentBytes appendBytes maxBytes : UInt64)
  | invalidRecord (message : String)
  | osError (message : String)
deriving DecidableEq

/-- The `Display` text. -/
def AppendError.message (e : AppendError) : String :=
  match e with
  | .sizeCeilingExceeded currentBytes appendBytes maxBytes =>
    "revocations.jsonl would exceed ceiling: current=" ++ toString currentBytes ++
      " append=" ++ toString appendBytes ++ " max=" ++ toString maxBytes
  | .invalidRecord message => "invalid revocation record: " ++ message
  | .osError message => message

def recordLine (record : RevocationRecord) : List Char := J.toJson record ++ ['\n']

def encodedRecordLen (record : RevocationRecord) : UInt64 := byteLen (recordLine J record)

def appendRecordLimited (fault : Option AppendFault) (disk : Disk) (record : RevocationRecord)
    (maxBytes : UInt64) : Except AppendError Unit × Disk :=
  let current := disk.currentBytes
  let added := encodedRecordLen J record
  let tooLarge := decide (Word.saturatingAdd current added > maxBytes)
  match fault, tooLarge with
  | some (.createDir message), _ => (.error (.osError message), disk)
  | _, true => (.error (.sizeCeilingExceeded current added maxBytes), disk)
  | some (.openFile message), false => (.error (.osError message), disk)
  | some (.write k message), false =>
    (.error (.osError message), some (disk.getD [] ++ (recordLine J record).take k))
  | none, false => (.ok (), some (disk.getD [] ++ recordLine J record))

def appendRecord (fault : Option AppendFault) (disk : Disk) (record : RevocationRecord) :
    Except AppendError Unit × Disk :=
  appendRecordLimited J fault disk record defaultRevocationsMaxBytes

inductive LoadError where
  | clock
  | read
  | parseLine (line : ℕ)
  | badTicketId (message : String)
  | persist (message : String)
deriving DecidableEq

def parseRevocationRecords (raw : List Char) : Except LoadError (List RevocationRecord) :=
  collect (fun p => okOr (J.fromStr (Lines.trim p.1)) (.parseLine (p.2 + 1)))
    ((Lines.lines raw).zipIdx.filter fun p => Lines.trim p.1 ≠ [])

def loadRecords (raw : List Char) :
    Except LoadError (List RevocationRecord × Finset Bytes16) := do
  let records ← parseRevocationRecords J raw
  let ids ← (collect RevocationRecord.ticketIdBytes records).mapError .badTicketId
  .ok (records, ids.toFinset)

/-! ## The set and its operations -/

structure RevocationSet where
  ids : Finset Bytes16
  records : List RevocationRecord
  liveSessions : LiveSessions
  maxBytes : UInt64

structure Store where
  set : RevocationSet
  disk : Disk
  cancelled : Finset Token

def RevocationSet.contains (set : RevocationSet) (id : Bytes16) : Bool := decide (id ∈ set.ids)

def Store.cancelLiveSessions (s : Store) (ids : Finset Bytes16) : Finset Token :=
  s.cancelled ∪ ids.biUnion s.set.liveSessions.tokens

/-- The retention test of `gc`. The sum wraps, as it does in a release build. -/
def retained (now : UInt64) (record : RevocationRecord) : Bool :=
  let lingerOk :=
    match record.revokedAt with
    | none => true
    | some revokedAt => decide (now < revokedAt + revocationLingerSecs)
  let ticketStillValid :=
    match record.notAfterOfTicket with
    | some notAfter => decide (now < notAfter)
    | none => false
  lingerOk || ticketStillValid

def idsOf (records : List RevocationRecord) : Finset Bytes16 :=
  (records.filterMap fun record => record.ticketIdBytes.toOption).toFinset

def RevocationSet.gc (set : RevocationSet) (now : UInt64) : ℕ × RevocationSet :=
  let kept := set.records.filter (retained now)
  (set.records.length - kept.length, { set with records := kept, ids := idsOf kept })

def Store.gc (s : Store) (now : UInt64) : ℕ × Store :=
  ((s.set.gc now).1, { s with set := (s.set.gc now).2 })

def Store.persist (fault : Option String) (s : Store) : Except String Unit × Store :=
  ((writeJsonl J fault s.disk s.set.records).1,
    { s with disk := (writeJsonl J fault s.disk s.set.records).2 })

/-- The first half of `load_with_max_bytes`: the records of the file, none if it
does not exist. -/
def readRecords (fault : Bool) : Disk → Except LoadError (List RevocationRecord × Finset Bytes16)
  | none => .ok ([], ∅)
  | some raw => if fault then .error .read else loadRecords J raw

def Store.collectLoaded (fault : Option String) (now : UInt64) (s : Store) :
    Except LoadError Store :=
  if (s.gc now).1 > 0 then
    match (s.gc now).2.persist J fault with
    | (.error message, _) => .error (.persist message)
    | (.ok (), s) => .ok s
  else .ok (s.gc now).2

def loadWithMaxBytes (clock : Option UInt64) (readFault : Bool) (writeFault : Option String)
    (disk : Disk) (maxBytes : UInt64) : Except LoadError Store := do
  let now ← okOr clock .clock
  let loaded ← readRecords J readFault disk
  let set : RevocationSet := ⟨loaded.2, loaded.1, ∅, maxBytes⟩
  Store.collectLoaded J writeFault now ⟨set, disk, ∅⟩

/-- The call of `sync_from_disk` that fails. -/
inductive SyncFault where
  | clock
  | read
deriving DecidableEq

def Store.syncFromDisk (fault : Option SyncFault) (s : Store) : Except LoadError ℕ × Store :=
  if fault = some .clock then (.error .clock, s)
  else
    match s.disk with
    | none => (.ok 0, s)
    | some raw =>
      if fault = some .read then (.error .read, s)
      else
        match loadRecords J raw with
        | .error e => (.error e, s)
        | .ok (records, ids) =>
          (.ok (ids \ s.set.ids).card,
            { s with
              set := { s.set with records := records, ids := ids }
              cancelled := s.cancelLiveSessions (ids \ s.set.ids) })

/-- The accumulators of the loop of `append_batch_atomic`. -/
structure PendingBatch where
  newIds : Finset Bytes16
  appendBytes : UInt64
  pending : List RevocationRecord
  pendingIds : List Bytes16

def collectPending (acc : PendingBatch) :
    List RevocationRecord → Except AppendError PendingBatch
  | [] => .ok acc
  | record :: records => do
    let id ← record.ticketIdBytes.mapError .invalidRecord
    if id ∈ acc.newIds then collectPending acc records
    else
      collectPending
        { newIds := insert id acc.newIds
          appendBytes := Word.saturatingAdd acc.appendBytes (encodedRecordLen J record)
          pending := acc.pending ++ [record]
          pendingIds := acc.pendingIds ++ [id] } records

def Store.appendBatchAtomic (fault : Option String) (records : List RevocationRecord)
    (s : Store) : Except AppendError ℕ × Store :=
  if records = [] then (.ok 0, s)
  else
    match collectPending J ⟨s.set.ids, 0, [], []⟩ records with
    | .error e => (.error e, s)
    | .ok batch =>
      if batch.pending = [] then (.ok 0, s)
      else if Word.saturatingAdd s.disk.currentBytes batch.appendBytes > s.set.maxBytes then
        (.error (.sizeCeilingExceeded s.disk.currentBytes batch.appendBytes s.set.maxBytes), s)
      else
        match writeJsonl J fault s.disk (s.set.records ++ batch.pending) with
        | (.error message, disk) => (.error (.osError message), { s with disk := disk })
        | (.ok (), disk) =>
          (.ok batch.pending.length,
            { set := { s.set with
                records := s.set.records ++ batch.pending, ids := batch.newIds }
              disk := disk
              cancelled := s.cancelLiveSessions batch.pendingIds.toFinset })

def Store.insert (id : Bytes16) (s : Store) : Bool × Store :=
  if id ∈ s.set.ids then (false, s)
  else
    (true,
      { s with
        set := { s.set with
          ids := Insert.insert id s.set.ids
          records := s.set.records ++ [⟨Hex.encode id.toList, "manual", none, none⟩] }
        cancelled := s.cancelLiveSessions {id} })

def Store.insertRecord (record : RevocationRecord) (s : Store) : Bool × Store :=
  match record.ticketIdBytes with
  | .error _ => (false, s)
  | .ok id =>
    if id ∈ s.set.ids then (false, s)
    else
      (true,
        { s with
          set := { s.set with
            ids := Insert.insert id s.set.ids, records := s.set.records ++ [record] }
          cancelled := s.cancelLiveSessions {id} })

def Store.append (fault : Option String) (record : RevocationRecord) (s : Store) :
    Except AppendError Bool × Store :=
  match record.ticketIdBytes with
  | .error message => (.error (.invalidRecord message), s)
  | .ok id =>
    if id ∈ s.set.ids then (.ok false, s)
    else
      match s.appendBatchAtomic J fault [record] with
      | (.error e, s) => (.error e, s)
      | (.ok _, s) => (.ok true, s)

def Store.registerLiveSession (sessionId : Bytes16) (ticketChainIds : List Bytes16)
    (token : Token) (s : Store) : Store :=
  { s with set := { s.set with
      liveSessions := s.set.liveSessions.register sessionId ticketChainIds token } }

def Store.deregisterLiveSession (sessionId : Bytes16) (ticketChainIds : List Bytes16)
    (s : Store) : Store :=
  { s with set := { s.set with
      liveSessions := s.set.liveSessions.deregister sessionId ticketChainIds } }

/-! ## Runs -/

/-- One operation on the store: the agent's own four, and an append by the
command line tool behind its back. -/
inductive StoreOp where
  | gc (now : UInt64)
  | persist (fault : Option String)
  | syncFromDisk (fault : Option SyncFault)
  | appendBatchAtomic (fault : Option String) (records : List RevocationRecord)
  | cliAppend (fault : Option AppendFault) (record : RevocationRecord)

def StoreOp.apply (s : Store) (op : StoreOp) : Store :=
  match op with
  | .gc now => (s.gc now).2
  | .persist fault => (s.persist J fault).2
  | .syncFromDisk fault => (s.syncFromDisk J fault).2
  | .appendBatchAtomic fault records => (s.appendBatchAtomic J fault records).2
  | .cliAppend fault record => { s with disk := (appendRecord J fault s.disk record).2 }

def runOps (ops : List StoreOp) (s : Store) : Store :=
  ops.foldl (StoreOp.apply J) s

/-! ## What each operation does -/

variable {J} {records : List RevocationRecord} {record : RevocationRecord} {s : Store}
  {batch : PendingBatch}

theorem parseRevocationRecords_eq_ok :
    parseRevocationRecords J raw = .ok records ↔
      List.Forall₂ (fun p record => J.fromStr (Lines.trim p.1) = some record)
        ((Lines.lines raw).zipIdx.filter fun p => Lines.trim p.1 ≠ []) records := by
  simp [parseRevocationRecords, collect_eq_ok, okOr_eq_ok]

theorem mem_of_parse (h : parseRevocationRecords J raw = .ok records)
    (hline : Lines.HasLine raw (J.toJson record)) : record ∈ records := by
  have hrec := J.toJson_isRecord record
  have htrim : Lines.trim (J.toJson record) = J.toJson record := Lines.trim_eq_self hrec
  obtain ⟨i, hi, hget⟩ := List.getElem_of_mem (Lines.mem_lines_of_hasLine hrec hline)
  have hmem : (J.toJson record, i) ∈
      (Lines.lines raw).zipIdx.filter fun p => Lines.trim p.1 ≠ [] := by
    rw [List.mem_filter]
    refine ⟨?_, ?_⟩
    · rw [List.mk_mem_zipIdx_iff_getElem?, List.getElem?_eq_getElem hi, hget]
    · rw [decide_eq_true_eq, htrim]
      exact hrec.nonempty
  obtain ⟨found, hfound, hparse⟩ := exists_of_forall₂ (parseRevocationRecords_eq_ok.mp h) hmem
  rw [htrim, J.fromStr_toJson, Option.some.injEq] at hparse
  rw [hparse]
  exact hfound

theorem mem_idsOf : id ∈ idsOf records ↔ ∃ record ∈ records, record.ticketIdBytes = .ok id := by
  have htoOption : ∀ record : RevocationRecord,
      record.ticketIdBytes.toOption = some id ↔ record.ticketIdBytes = .ok id := by
    intro record
    cases record.ticketIdBytes <;> simp [Except.toOption]
  simp [idsOf, htoOption]

theorem idsOf_of_collect {ids : List Bytes16}
    (h : List.Forall₂ (fun record id => record.ticketIdBytes = .ok id) records ids) :
    idsOf records = ids.toFinset := by
  have hlist : records.filterMap (fun record => record.ticketIdBytes.toOption) = ids := by
    induction h with
    | nil => rfl
    | cons hid _ ih => rw [List.filterMap_cons, hid, ih]; rfl
  rw [idsOf, hlist]

theorem idsOf_append (a b : List RevocationRecord) : idsOf (a ++ b) = idsOf a ∪ idsOf b := by
  rw [idsOf, List.filterMap_append, List.toFinset_append]
  rfl

theorem loadRecords_eq_ok (h : loadRecords J raw = .ok (records, ids)) :
    parseRevocationRecords J raw = .ok records ∧ ids = idsOf records := by
  simp only [loadRecords, bind_eq_ok, mapError_eq_ok, collect_eq_ok] at h
  obtain ⟨records', hparse, ids', hids, heq⟩ := h
  obtain ⟨rfl, rfl⟩ := Prod.mk.inj (Except.ok.inj heq)
  exact ⟨hparse, (idsOf_of_collect hids).symm⟩

/-- What `sync_from_disk` leaves: the store as it was, or the file's records
with the sessions of the newly seen ids cancelled. -/
theorem syncFromDisk_cases (fault : Option SyncFault) (s : Store) :
    (s.syncFromDisk J fault).2 = s ∨
      ∃ raw records, s.disk = some raw ∧ parseRevocationRecords J raw = .ok records ∧
        (s.syncFromDisk J fault).2 =
          { s with
            set := { s.set with records := records, ids := idsOf records }
            cancelled := s.cancelLiveSessions (idsOf records \ s.set.ids) } := by
  unfold Store.syncFromDisk
  split
  · exact Or.inl rfl
  split
  · exact Or.inl rfl
  rename_i raw hdisk
  split
  · exact Or.inl rfl
  split
  · exact Or.inl rfl
  rename_i records ids hload
  obtain ⟨hparse, rfl⟩ := loadRecords_eq_ok hload
  exact Or.inr ⟨raw, records, hdisk, hparse, rfl⟩

theorem syncFromDisk_ok {fault : Option SyncFault} (h : (s.syncFromDisk J fault).1 = .ok n)
    (hdisk : s.disk = some raw) :
    ∃ records, parseRevocationRecords J raw = .ok records ∧
      (s.syncFromDisk J fault).2.set.records = records ∧
      (s.syncFromDisk J fault).2.set.ids = idsOf records ∧
      (s.syncFromDisk J fault).2.disk = s.disk := by
  unfold Store.syncFromDisk at h ⊢
  split at h
  · cases h
  rename_i hclock
  rw [if_neg hclock]
  simp only [hdisk] at h ⊢
  split at h
  · cases h
  rename_i hread
  rw [if_neg hread]
  cases hload : loadRecords J raw with
  | error e =>
    rw [hload] at h
    cases h
  | ok p =>
    obtain ⟨records, ids⟩ := p
    obtain ⟨hparse, rfl⟩ := loadRecords_eq_ok hload
    exact ⟨records, hparse, rfl, rfl, rfl⟩

/-- The loop of `append_batch_atomic`: the records whose id is new, each id
once, with their ids; and every id of the batch ends up in `new_ids`. -/
theorem collectPending_eq_ok {acc : PendingBatch} (h : collectPending J acc records = .ok batch) :
    ∃ news ids, batch.pending = acc.pending ++ news ∧ batch.pendingIds = acc.pendingIds ++ ids ∧
      batch.newIds = acc.newIds ∪ ids.toFinset ∧
      List.Forall₂ (fun record id => record.ticketIdBytes = .ok id) news ids ∧
      (∀ record ∈ news, record ∈ records) ∧
      ∀ record ∈ records, ∃ id ∈ batch.newIds, record.ticketIdBytes = .ok id := by
  induction records generalizing acc with
  | nil =>
    obtain rfl := Except.ok.inj h
    exact ⟨[], [], by simp, by simp, by simp, .nil, by simp, by simp⟩
  | cons record records ih =>
    simp only [collectPending, bind_eq_ok, mapError_eq_ok] at h
    obtain ⟨id, hid, h⟩ := h
    -- new_ids starts as the set in memory and grows with the batch
    by_cases hmem : id ∈ acc.newIds
    · -- an id seen before: the record is skipped
      rw [if_pos hmem] at h
      obtain ⟨news, ids, hpend, hpids, hnew, hids, hsub, hall⟩ := ih h
      refine ⟨news, ids, hpend, hpids, hnew, hids,
        fun r hr => List.mem_cons_of_mem _ (hsub r hr), ?_⟩
      rw [List.forall_mem_cons]
      refine ⟨⟨id, ?_, hid⟩, hall⟩
      rw [hnew]
      exact Finset.mem_union_left _ hmem
    · rw [if_neg hmem] at h
      obtain ⟨news, ids, hpend, hpids, hnew, hids, hsub, hall⟩ := ih h
      dsimp only at hpend hpids hnew
      refine ⟨record :: news, id :: ids, ?_, ?_, ?_, .cons hid hids, ?_, ?_⟩
      · rw [hpend, List.append_assoc, List.singleton_append]
      · rw [hpids, List.append_assoc, List.singleton_append]
      · rw [hnew, List.toFinset_cons, Finset.insert_union, Finset.union_insert]
      · rw [List.forall_mem_cons]
        exact ⟨List.mem_cons_self, fun r hr => List.mem_cons_of_mem _ (hsub r hr)⟩
      · rw [List.forall_mem_cons]
        refine ⟨⟨id, ?_, hid⟩, hall⟩
        rw [hnew]
        exact Finset.mem_union_left _ (Finset.mem_insert_self _ _)

theorem mem_pending (h : collectPending J ⟨ids, 0, [], []⟩ records = .ok batch)
    (hmem : record ∈ records) (hid : record.ticketIdBytes = .ok id) (hfresh : id ∉ ids)
    (honly : ∀ other ∈ records, other.ticketIdBytes = .ok id → other = record) :
    record ∈ batch.pending ∧ id ∈ batch.newIds := by
  obtain ⟨news, newIds, hpend, -, hnew, hids, hsub, hall⟩ := collectPending_eq_ok h
  obtain ⟨id', hid', hdec⟩ := hall record hmem
  obtain rfl : id = id' := Except.ok.inj (hid.symm.trans hdec)
  have hidNew : id ∈ newIds := by
    rw [hnew, Finset.mem_union, List.mem_toFinset] at hid'
    exact hid'.resolve_left hfresh
  obtain ⟨added, hadded, haddedId⟩ := exists_of_forall₂ hids.flip hidNew
  obtain rfl : added = record := honly added (hsub added hadded) haddedId
  rw [hpend, List.nil_append]
  exact ⟨hadded, hid'⟩

def Store.commit (J : JsonCodec) (s : Store) (batch : PendingBatch) : Store :=
  { set := { s.set with records := s.set.records ++ batch.pending, ids := batch.newIds }
    disk := some (encodeRecords J (s.set.records ++ batch.pending))
    cancelled := s.cancelLiveSessions batch.pendingIds.toFinset }

theorem Store.commit_ids (hids : s.set.ids = idsOf s.set.records)
    (hbatch : collectPending J ⟨s.set.ids, 0, [], []⟩ records = .ok batch) :
    (s.commit J batch).set.ids = idsOf (s.commit J batch).set.records := by
  obtain ⟨news, ids, hpend, -, hnew, hdec, -⟩ := collectPending_eq_ok hbatch
  rw [List.nil_append] at hpend
  show batch.newIds = idsOf (s.set.records ++ batch.pending)
  rw [idsOf_append, hpend, idsOf_of_collect hdec, hnew, hids]

/-- **All that a batch can do**: fail and change nothing, find nothing new, or go in as a whole. -/
theorem appendBatchAtomic_outcome (fault : Option String) (records : List RevocationRecord) (s : Store) :
    (∃ e, s.appendBatchAtomic J fault records = (.error e, s)) ∨
      ∃ batch, collectPending J ⟨s.set.ids, 0, [], []⟩ records = .ok batch ∧
        ((batch.pending = [] ∧ s.appendBatchAtomic J fault records = (.ok 0, s)) ∨
          batch.pending ≠ [] ∧
            s.appendBatchAtomic J fault records = (.ok batch.pending.length, s.commit J batch)) := by
  unfold Store.appendBatchAtomic
  split
  · next hnil =>
      subst hnil
      exact .inr ⟨_, rfl, .inl ⟨rfl, rfl⟩⟩
  split
  · exact .inl ⟨_, rfl⟩
  next batch hbatch =>
  split
  · next hpending => exact .inr ⟨batch, hbatch, .inl ⟨hpending, rfl⟩⟩
  next hpending =>
  split
  · exact .inl ⟨_, rfl⟩
  cases fault with
  | some message => exact .inl ⟨_, rfl⟩
  | none => exact .inr ⟨batch, hbatch, .inr ⟨hpending, rfl⟩⟩

/-- What `append_batch_atomic` leaves: the store as it was, or the batch in
memory and on file with the sessions of its ids cancelled. -/
theorem appendBatchAtomic_cases (fault : Option String) (records : List RevocationRecord)
    (s : Store) :
    (s.appendBatchAtomic J fault records).2 = s ∨
      ∃ batch, collectPending J ⟨s.set.ids, 0, [], []⟩ records = .ok batch ∧
        (s.appendBatchAtomic J fault records).2 = s.commit J batch := by
  rcases appendBatchAtomic_outcome fault records s with
    ⟨e, heq⟩ | ⟨batch, hbatch, ⟨-, heq⟩ | ⟨-, heq⟩⟩
  · exact .inl (by rw [heq])
  · exact .inl (by rw [heq])
  · exact .inr ⟨batch, hbatch, by rw [heq]⟩

theorem appendBatchAtomic_ok {fault : Option String}
    (h : (s.appendBatchAtomic J fault records).1 = .ok n) :
    ∃ batch, collectPending J ⟨s.set.ids, 0, [], []⟩ records = .ok batch ∧
      n = batch.pending.length ∧
      (batch.pending = [] ∨ (s.appendBatchAtomic J fault records).2 = s.commit J batch) := by
  rcases appendBatchAtomic_outcome fault records s with
    ⟨e, heq⟩ | ⟨batch, hbatch, ⟨hnil, heq⟩ | ⟨-, heq⟩⟩
  · rw [heq] at h
    cases h
  · rw [heq] at h
    cases h
    exact ⟨batch, hbatch, by rw [hnil]; rfl, .inl hnil⟩
  · rw [heq] at h ⊢
    cases h
    exact ⟨batch, hbatch, rfl, .inr rfl⟩

theorem persist_cases (fault : Option String) (s : Store) :
    (s.persist J fault).2 = s ∨
      (s.persist J fault).2 = { s with disk := some (encodeRecords J s.set.records) } := by
  cases fault with
  | some f => exact Or.inl rfl
  | none => exact Or.inr rfl

theorem appendRecordLimited_cases (fault : Option AppendFault) (disk : Disk)
    (record : RevocationRecord) (maxBytes : UInt64) :
    (appendRecordLimited J fault disk record maxBytes).2 = disk ∨
      ∃ added, (appendRecordLimited J fault disk record maxBytes).2 =
        some (disk.getD [] ++ added) := by
  unfold appendRecordLimited
  dsimp only
  split
  · exact Or.inl rfl
  · exact Or.inl rfl
  · exact Or.inl rfl
  · exact Or.inr ⟨_, rfl⟩
  · exact Or.inr ⟨_, rfl⟩

variable {disk : Disk} {maxBytes : UInt64}

theorem appendRecordLimited_ok {fault : Option AppendFault}
    (h : (appendRecordLimited J fault disk record maxBytes).1 = .ok ()) :
    (appendRecordLimited J fault disk record maxBytes).2 =
      some (disk.getD [] ++ recordLine J record) := by
  unfold appendRecordLimited at h ⊢
  dsimp only at h ⊢
  split at h
  · cases h
  · cases h
  · cases h
  · cases h
  · rfl

theorem hasLine_encodeRecords (h : record ∈ records) :
    Lines.HasLine (encodeRecords J records) (J.toJson record) :=
  Lines.hasLine_unlines (List.mem_map_of_mem h)

/-! ## The set and its records -/

theorem loadWithMaxBytes_ok {clock : Option UInt64} {readFault : Bool} {writeFault : Option String}
    (h : loadWithMaxBytes J clock readFault writeFault disk maxBytes = .ok s) :
    s.set.ids = idsOf s.set.records ∧ s.set.liveSessions = ∅ := by
  simp only [loadWithMaxBytes, bind_eq_ok, okOr_eq_ok] at h
  obtain ⟨now, -, loaded, -, h⟩ := h
  unfold Store.collectLoaded at h
  split at h
  · cases writeFault with
    | some message => cases h
    | none =>
      obtain rfl := Except.ok.inj h
      exact ⟨rfl, rfl⟩
  · obtain rfl := Except.ok.inj h
    exact ⟨rfl, rfl⟩

/-- The ids an operation brings in from outside: those of a batch, or those of
the file. -/
def StoreOp.named (J : JsonCodec) (s : Store) (op : StoreOp) : Finset Bytes16 :=
  match op with
  | .appendBatchAtomic _ records => idsOf records
  | .syncFromDisk _ =>
    match s.disk with
    | none => ∅
    | some raw =>
      match parseRevocationRecords J raw with
      | .error _ => ∅
      | .ok records => idsOf records
  | _ => ∅

/-- What one operation can do to the set of ids: an id that is in it afterwards
was there before, or was named by the operation and had its sessions
cancelled. -/
structure StoreOp.Effect (J : JsonCodec) (op : StoreOp) (s s' : Store) : Prop where
  live : s'.set.liveSessions = s.set.liveSessions
  ids : s'.set.ids = idsOf s'.set.records
  added : ∀ id ∈ s'.set.ids, id ∈ s.set.ids ∨
    id ∈ op.named J s ∧ s.set.liveSessions.tokens id ⊆ s'.cancelled
  cancelled : s.cancelled ⊆ s'.cancelled

theorem StoreOp.Effect.of_subset {op : StoreOp} {s' : Store}
    (hlive : s'.set.liveSessions = s.set.liveSessions) (hids : s'.set.ids = idsOf s'.set.records)
    (hsub : s'.set.ids ⊆ s.set.ids) (hcancelled : s'.cancelled = s.cancelled) :
    op.Effect J s s' where
  live := hlive
  ids := hids
  added id hid := Or.inl (hsub hid)
  cancelled := by rw [hcancelled]

theorem tokens_subset_cancelLiveSessions (h : id ∈ ids) :
    s.set.liveSessions.tokens id ⊆ s.cancelLiveSessions ids := by
  intro token htoken
  rw [Store.cancelLiveSessions, Finset.mem_union, Finset.mem_biUnion]
  exact Or.inr ⟨id, h, htoken⟩

theorem cancelled_subset_cancelLiveSessions (s : Store) (ids : Finset Bytes16) :
    s.cancelled ⊆ s.cancelLiveSessions ids :=
  Finset.subset_union_left

/-- **What a store operation does**, on a store whose ids are those of its
records. -/
theorem StoreOp.effect (op : StoreOp) (hids : s.set.ids = idsOf s.set.records) :
    op.Effect J s (op.apply J s) := by
  cases op with
  | gc now =>
    -- the kept records are some of the old ones
    refine .of_subset rfl rfl ?_ rfl
    intro id hid
    obtain ⟨record, hmem, hdec⟩ := mem_idsOf.mp hid
    rw [hids]
    exact mem_idsOf.mpr ⟨record, List.mem_of_mem_filter hmem, hdec⟩
  | persist fault =>
    rcases persist_cases fault s with heq | heq
    · rw [StoreOp.apply, heq]
      exact .of_subset rfl hids (Finset.Subset.refl _) rfl
    · rw [StoreOp.apply, heq]
      exact .of_subset rfl hids (Finset.Subset.refl _) rfl
  | cliAppend fault record => exact .of_subset rfl hids (Finset.Subset.refl _) rfl
  | syncFromDisk fault =>
    rw [StoreOp.apply]
    rcases syncFromDisk_cases (J := J) fault s with heq | ⟨raw, records, hdisk, hparse, heq⟩
    · rw [heq]
      exact .of_subset rfl hids (Finset.Subset.refl _) rfl
    · rw [heq]
      refine ⟨rfl, rfl, ?_, cancelled_subset_cancelLiveSessions s _⟩
      intro id hid
      -- only ids that were not in memory are cancelled for
      by_cases hold : id ∈ s.set.ids
      · exact Or.inl hold
      · refine Or.inr ⟨?_, tokens_subset_cancelLiveSessions (Finset.mem_sdiff.mpr ⟨hid, hold⟩)⟩
        simp only [StoreOp.named, hdisk, hparse]
        exact hid
  | appendBatchAtomic fault records =>
    rw [StoreOp.apply]
    rcases appendBatchAtomic_cases fault records s with heq | ⟨batch, hbatch, heq⟩
    · rw [heq]
      exact .of_subset rfl hids (Finset.Subset.refl _) rfl
    · obtain ⟨news, ids, -, hpids, hnew, hdec, hsub, -⟩ := collectPending_eq_ok hbatch
      rw [List.nil_append] at hpids
      rw [heq]
      refine ⟨rfl, Store.commit_ids hids hbatch, ?_, cancelled_subset_cancelLiveSessions s _⟩
      intro id hid
      change id ∈ batch.newIds at hid
      rw [hnew, Finset.mem_union] at hid
      rcases hid with hold | hadded
      · exact Or.inl hold
      · refine Or.inr ⟨?_, tokens_subset_cancelLiveSessions (by rw [hpids]; exact hadded)⟩
        rw [← idsOf_of_collect hdec] at hadded
        obtain ⟨record, hmem, hid⟩ := mem_idsOf.mp hadded
        exact mem_idsOf.mpr ⟨record, hsub record hmem, hid⟩

end Portl
