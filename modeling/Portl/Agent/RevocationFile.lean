import Mathlib.Data.Fintype.Basic
import Portl.Agent.Revoking
import Portl.Lib.PathFile
import Portl.Lib.Run

/-!
# The revocations file between two processes

`revocations.jsonl` has two writers. The command line tool appends a line to it
(`append_record_limited`); the agent rewrites it from memory and renames the
result into place. The lock of the agent is its own, so each of the two can come
in between any two file accesses of the other. A run is any interleaving of these
accesses, over a path whose file changes under an open handle (`PathFile`).

A rewrite from memory forgets the lines the agent has not read yet, and a handle
opened before a rename writes into a file nobody will read. In runs where the
agent rewrites only what it has read, with no append under way, and publishes only
ids that are new to it, no acknowledged record is lost.
-/

namespace Portl

open Checks List

/-! ## Files that can be read back -/

/-- `ticket_id_bytes` accepts the record. -/
def RevocationRecord.Decodes (record : RevocationRecord) : Prop :=
  ∃ id, record.ticketIdBytes = .ok id

instance (record : RevocationRecord) : Decidable record.Decodes :=
  match h : record.ticketIdBytes with
  | .ok id => isTrue ⟨id, h⟩
  | .error _ => isFalse fun ⟨_, hid⟩ => by cases h.symm.trans hid

structure Disk.Readable (J : JsonCodec) (disk : Disk) : Prop where
  complete : disk.EndsLine
  loads : ∀ raw, disk = some raw → ∃ records,
    parseRevocationRecords J raw = .ok records ∧ ∀ record ∈ records, record.Decodes

section Readable

variable {J : JsonCodec} {raw : List Char} {record : RevocationRecord}
  {records : List RevocationRecord}

theorem parseRevocationRecords_append (hends : raw = [] ∨ raw.getLast? = some '\n')
    (h : parseRevocationRecords J raw = .ok records) (record : RevocationRecord) :
    parseRevocationRecords J (raw ++ recordLine J record) = .ok (records ++ [record]) := by
  have hrec := J.toJson_isRecord record
  have htrim : Lines.trim (J.toJson record) = J.toJson record := Lines.trim_eq_self hrec
  rw [parseRevocationRecords_eq_ok] at h ⊢
  rw [recordLine, Lines.lines_append_record hends hrec, zipIdx_append, filter_append]
  refine rel_append h ?_
  simp [htrim, hrec.nonempty, J.fromStr_toJson]

theorem encodeRecords_concat (records : List RevocationRecord) (record : RevocationRecord) :
    encodeRecords J (records ++ [record]) = encodeRecords J records ++ recordLine J record := by
  simp [encodeRecords, Lines.unlines, recordLine]

theorem encodeRecords_endsLine (records : List RevocationRecord) :
    encodeRecords J records = [] ∨ (encodeRecords J records).getLast? = some '\n' := by
  rcases eq_nil_or_concat records with rfl | ⟨init, record, rfl⟩
  · exact Or.inl rfl
  · right
    rw [concat_eq_append, encodeRecords_concat, recordLine]
    simp

theorem parseRevocationRecords_encodeRecords (records : List RevocationRecord) :
    parseRevocationRecords J (encodeRecords J records) = .ok records := by
  induction records using List.reverseRecOn with
  | nil => rfl
  | append_singleton records record ih =>
    rw [encodeRecords_concat]
    exact parseRevocationRecords_append (encodeRecords_endsLine records) ih record

theorem readable_none : Disk.Readable J none :=
  ⟨Or.inl rfl, fun _ h => by cases h⟩

theorem readable_encodeRecords (h : ∀ record ∈ records, record.Decodes) :
    Disk.Readable J (some (encodeRecords J records)) := by
  refine ⟨encodeRecords_endsLine records, ?_⟩
  rintro raw ⟨⟩
  exact ⟨records, parseRevocationRecords_encodeRecords records, h⟩

variable {disk : Disk}

theorem Disk.Readable.touched (h : disk.Readable J) : Disk.Readable J (some (disk.getD [])) := by
  cases disk with
  | some raw => exact h
  | none =>
    have hempty : ∀ record ∈ ([] : List RevocationRecord), record.Decodes :=
      fun _ hmem => by cases hmem
    exact readable_encodeRecords hempty

theorem Disk.Readable.append (h : disk.Readable J) (hid : record.Decodes) :
    Disk.Readable J (some (disk.getD [] ++ recordLine J record)) := by
  obtain ⟨records, hparse, hids⟩ := h.touched.loads _ rfl
  refine ⟨Or.inr ?_, ?_⟩
  · simp [recordLine]
  · rintro raw ⟨⟩
    refine ⟨records ++ [record], parseRevocationRecords_append h.complete hparse record, ?_⟩
    rw [forall_mem_append, forall_mem_singleton]
    exact ⟨hids, hid⟩

theorem loadRecords_of_decodes (hparse : parseRevocationRecords J raw = .ok records)
    (hids : ∀ record ∈ records, record.Decodes) :
    loadRecords J raw = .ok (records, idsOf records) := by
  obtain ⟨ids, hall⟩ := exists_forall₂ hids
  simp only [loadRecords, bind_eq_ok, mapError_eq_ok, collect_eq_ok]
  exact ⟨records, hparse, ids, hall, by rw [idsOf_of_collect hall]⟩

theorem decodes_of_loadRecords {ids : Finset Bytes16}
    (h : loadRecords J raw = .ok (records, ids)) : ∀ record ∈ records, record.Decodes := by
  simp only [loadRecords, bind_eq_ok, mapError_eq_ok, collect_eq_ok] at h
  obtain ⟨records', -, ids', hids, heq⟩ := h
  obtain ⟨rfl, -⟩ := Prod.mk.inj (Except.ok.inj heq)
  intro record hmem
  obtain ⟨id, -, hid⟩ := exists_of_forall₂ hids hmem
  exact ⟨id, hid⟩

variable {s : Store}

/-- A store that was loaded from a file with complete lines has ids for all of
its records, and the file can be read again. -/
theorem loadWithMaxBytes_readable {clock : Option UInt64} {readFault : Bool}
    {writeFault : Option String} {maxBytes : UInt64}
    (h : loadWithMaxBytes J clock readFault writeFault disk maxBytes = .ok s)
    (hends : disk.EndsLine) : (∀ record ∈ s.set.records, record.Decodes) ∧ s.disk.Readable J := by
  simp only [loadWithMaxBytes, bind_eq_ok, okOr_eq_ok] at h
  obtain ⟨now, -, ⟨loaded, ids⟩, hloaded, h⟩ := h
  have hread : (∀ record ∈ loaded, record.Decodes) ∧ disk.Readable J := by
    cases disk with
    | none =>
      obtain ⟨rfl, rfl⟩ := Prod.mk.inj (Except.ok.inj hloaded)
      exact ⟨fun _ hmem => (by cases hmem), readable_none⟩
    | some raw =>
      cases readFault with
      | true => cases hloaded
      | false =>
        have hids := decodes_of_loadRecords hloaded
        refine ⟨hids, hends, ?_⟩
        rintro raw' ⟨⟩
        exact ⟨loaded, (loadRecords_eq_ok hloaded).1, hids⟩
  have hkept : ∀ record ∈ loaded.filter (retained now), record.Decodes :=
    fun record hmem => hread.1 record (mem_of_mem_filter hmem)
  unfold Store.collectLoaded at h
  split at h
  · -- something was dropped, and the file rewritten without it
    cases writeFault with
    | some message => cases h
    | none =>
      obtain rfl := Except.ok.inj h
      exact ⟨hkept, readable_encodeRecords hkept⟩
  · obtain rfl := Except.ok.inj h
    exact ⟨hkept, hread.2⟩

theorem syncFromDisk_readable (h : s.disk.Readable J) (hraw : s.disk = some raw) :
    ∃ records, parseRevocationRecords J raw = .ok records ∧
      (∀ record ∈ records, record.Decodes) ∧
      (s.syncFromDisk J none).2.set.records = records ∧
      (s.syncFromDisk J none).2.set.ids = idsOf records := by
  obtain ⟨records, hparse, hids⟩ := h.loads raw hraw
  have hok : (s.syncFromDisk J none).1 = .ok (idsOf records \ s.set.ids).card := by
    unfold Store.syncFromDisk
    simp only [hraw, loadRecords_of_decodes hparse hids]
    rfl
  obtain ⟨records', hparse', hrecords, hset, -⟩ := syncFromDisk_ok hok hraw
  obtain rfl : records = records' := Except.ok.inj (hparse.symm.trans hparse')
  exact ⟨records, hparse, hids, hrecords, hset⟩

end Readable

/-! ## The interleaved system -/

/-- How far an `append_record_limited` has come: the ceiling was checked, the
file was opened. -/
inductive AppendPhase where
  | idle
  | sized (record : RevocationRecord)
  | opened (record : RevocationRecord) (inode : ℕ)
deriving DecidableEq

/-- The agent's memory, the path, and the appends of the command line. A
publication in progress has looked at the size of the file and holds the lock. -/
structure SharedFile (ι : Type*) where
  set : RevocationSet
  cancelled : Finset Token
  file : PathFile Char
  appends : ι → AppendPhase
  publishing : Option (List RevocationRecord × Disk)
  /-- Appended with `Ok`, and not given up by a collection since. -/
  acked : List RevocationRecord
  /-- Those acknowledged before the last `sync_from_disk`. -/
  synced : List RevocationRecord

inductive FileStep (ι : Type*) where
  | appendStat (who : ι) (record : RevocationRecord) (maxBytes : UInt64) (fails : Bool)
  | appendOpen (who : ι) (fails : Bool)
  /-- `some k`: the write fails after `k` characters. -/
  | appendWrite (who : ι) (fails : Option ℕ)
  | publishStat (records : List RevocationRecord)
  | publishWrite (fault : Option String)
  | gc (now : UInt64) (fault : Option String)
  | syncFromDisk (fault : Option SyncFault)

section Runs

variable {ι : Type*} (J : JsonCodec)

namespace SharedFile

def start (s : Store) : SharedFile ι where
  set := s.set
  cancelled := s.cancelled
  file := .ofContents s.disk
  appends _ := .idle
  publishing := none
  acked := []
  synced := []

def store (w : SharedFile ι) : Store := ⟨w.set, w.file.read, w.cancelled⟩

section Appends

variable [DecidableEq ι]

def enter (who : ι) (phase : AppendPhase) (w : SharedFile ι) : SharedFile ι :=
  { w with appends := Function.update w.appends who phase }

def appendStat (who : ι) (record : RevocationRecord) (maxBytes : UInt64) (fails : Bool)
    (w : SharedFile ι) : SharedFile ι :=
  let current := Disk.currentBytes w.file.read
  if w.appends who ≠ .idle ∨ fails ∨
      Word.saturatingAdd current (encodedRecordLen J record) > maxBytes then w
  else w.enter who (.sized record)

def appendOpen (who : ι) (fails : Bool) (w : SharedFile ι) : SharedFile ι :=
  match w.appends who with
  | .sized record =>
    if fails then w.enter who .idle
    else
      { w.enter who (.opened record w.file.openAppend.1) with file := w.file.openAppend.2 }
  | _ => w

def appendWrite (who : ι) (fails : Option ℕ) (w : SharedFile ι) : SharedFile ι :=
  match w.appends who with
  | .opened record inode =>
    match fails with
    | some k =>
      { w.enter who .idle with file := w.file.append inode ((recordLine J record).take k) }
    | none =>
      { w.enter who .idle with
        file := w.file.append inode (recordLine J record)
        acked := record :: w.acked }
  | _ => w

end Appends

/-- `append_batch_atomic` takes the lock and looks at the size of the file. -/
def publishStat (records : List RevocationRecord) (w : SharedFile ι) : SharedFile ι :=
  match w.publishing with
  | some _ => w
  | none => { w with publishing := some (records, w.file.read) }

def publishWrite (fault : Option String) (w : SharedFile ι) : SharedFile ι :=
  match w.publishing with
  | none => w
  | some (records, sized) =>
    let done := Store.appendBatchAtomic J fault records ⟨w.set, sized, w.cancelled⟩
    match done.1 with
    | .error _ => { w with publishing := none }
    | .ok 0 => { w with publishing := none, acked := records ++ w.acked }
    | .ok (_ + 1) =>
      { w with
        set := done.2.set
        cancelled := done.2.cancelled
        file := w.file.replace (done.2.disk.getD [])
        publishing := none
        acked := records ++ w.acked }

/-- One round of the collection task: `gc`, and `persist` if it dropped
anything. -/
def gc (now : UInt64) (fault : Option String) (w : SharedFile ι) : SharedFile ι :=
  match w.publishing with
  | some _ => w
  | none =>
    let collected := w.store.gc now
    let written := collected.2.persist J fault
    { w with
      set := collected.2.set
      file := if collected.1 > 0 ∧ written.1.isOk then
          w.file.replace (written.2.disk.getD [])
        else w.file
      acked := w.acked.filter (retained now)
      synced := w.synced.filter (retained now) }

def syncFromDisk (fault : Option SyncFault) (w : SharedFile ι) :
    SharedFile ι :=
  match w.publishing with
  | some _ => w
  | none =>
    { w with
      set := (w.store.syncFromDisk J fault).2.set
      cancelled := (w.store.syncFromDisk J fault).2.cancelled
      synced := w.acked }

end SharedFile

def FileStep.apply [DecidableEq ι] (w : SharedFile ι) (step : FileStep ι) :
    SharedFile ι :=
  match step with
  | .appendStat who record maxBytes fails => w.appendStat J who record maxBytes fails
  | .appendOpen who fails => w.appendOpen who fails
  | .appendWrite who fails => w.appendWrite J who fails
  | .publishStat records => w.publishStat records
  | .publishWrite fault => w.publishWrite J fault
  | .gc now fault => w.gc J now fault
  | .syncFromDisk fault => w.syncFromDisk J fault

def SharedFile.run [DecidableEq ι] (steps : List (FileStep ι))
    (w : SharedFile ι) : SharedFile ι :=
  steps.foldl (FileStep.apply J) w

/-- **No acknowledged revocation is lost**: each is on file or in memory, and the
set contains its id once the file was read again. -/
structure SharedFile.NoneLost (w : SharedFile ι) : Prop where
  present : ∀ record ∈ w.acked, OnDisk J record w.file.read ∨ record ∈ w.set.records
  contained : ∀ record ∈ w.synced, ∃ id, record.ticketIdBytes = .ok id ∧ w.set.contains id

/-! ### When nothing is lost -/

def AppendPhase.isOpened (phase : AppendPhase) : Bool :=
  match phase with
  | .opened _ _ => true
  | _ => false

def SharedFile.AllRead (w : SharedFile ι) : Prop :=
  match w.file.read with
  | none => True
  | some raw =>
    match parseRevocationRecords J raw with
    | .error _ => False
    | .ok records => ∀ record ∈ records, record ∈ w.set.records

/-- The agent may replace the file: it has read all of it, and no append holds
it open. -/
def SharedFile.Settled (w : SharedFile ι) : Prop :=
  w.AllRead J ∧ ∀ who, (w.appends who).isOpened = false

def SharedFile.Fresh (w : SharedFile ι) (records : List RevocationRecord) : Prop :=
  Disjoint (idsOf records) w.set.ids ∧
    ∀ record ∈ records, ∀ other ∈ records,
      record.ticketIdBytes = other.ticketIdBytes → record = other

def AppendPhase.WritesLine (fails : Option ℕ) (phase : AppendPhase) : Prop :=
  match phase with
  | .opened record _ => fails = none ∧ record.Decodes
  | _ => True

def SharedFile.CanPublish (w : SharedFile ι) : Prop :=
  match w.publishing with
  | some (records, _) => w.Settled J ∧ w.Fresh records
  | none => True

def FileStep.Careful (w : SharedFile ι) (step : FileStep ι) : Prop :=
  match step with
  | .appendWrite who fails => (w.appends who).WritesLine fails
  | .publishWrite _ => w.CanPublish J
  | .gc now _ => (∀ record ∈ w.set.records, retained now record) ∨ w.Settled J
  | .syncFromDisk fault => fault = none
  | _ => True

instance (w : SharedFile ι) : Decidable (w.AllRead J) := by
  unfold SharedFile.AllRead
  split
  · infer_instance
  · split
    all_goals infer_instance

instance [Fintype ι] (w : SharedFile ι) : Decidable (w.Settled J) := by
  unfold SharedFile.Settled
  infer_instance

instance (w : SharedFile ι) (records : List RevocationRecord) : Decidable (w.Fresh records) := by
  unfold SharedFile.Fresh
  infer_instance

instance (phase : AppendPhase) (fails : Option ℕ) : Decidable (phase.WritesLine fails) := by
  unfold AppendPhase.WritesLine
  split
  all_goals infer_instance

instance [Fintype ι] (w : SharedFile ι) : Decidable (w.CanPublish J) := by
  unfold SharedFile.CanPublish
  split
  all_goals infer_instance

instance [Fintype ι] (w : SharedFile ι) (step : FileStep ι) : Decidable (step.Careful J w) := by
  unfold FileStep.Careful
  split
  all_goals infer_instance

/-! ## Careful runs -/

/-- The invariant of careful runs: memory and file are in order, what was
acknowledged is on file and what was read since is in memory, and every open
handle leads to the file at the path. -/
structure SharedFile.Kept (w : SharedFile ι) : Prop where
  ids : w.set.ids = idsOf w.set.records
  memory : ∀ record ∈ w.set.records, record.Decodes
  file : Disk.Readable J w.file.read
  acked : ∀ record ∈ w.acked, OnDisk J record w.file.read ∧ record.Decodes
  synced : ∀ record ∈ w.synced, record ∈ w.set.records
  handles : ∀ who record n, w.appends who = .opened record n → w.file.entry = some n

variable {J} {w w' : SharedFile ι} {record : RevocationRecord}
  {records : List RevocationRecord}

namespace SharedFile

theorem Kept.noneLost (h : w.Kept J) : w.NoneLost J where
  present record hmem := Or.inl (h.acked record hmem).1
  contained record hmem := by
    have hrecord := h.synced record hmem
    obtain ⟨id, hid⟩ := h.memory record hrecord
    have hin : id ∈ w.set.ids := by
      rw [h.ids]
      exact mem_idsOf.mpr ⟨record, hrecord, hid⟩
    exact ⟨id, hid, decide_eq_true hin⟩

theorem AllRead.mem (h : w.AllRead J) (hdisk : OnDisk J record w.file.read) :
    record ∈ w.set.records := by
  obtain ⟨raw, hraw, hline⟩ := hdisk
  unfold AllRead at h
  rw [hraw] at h
  dsimp only at h
  split at h
  · exact h.elim
  · rename_i records hparse
    exact h record (mem_of_parse hparse hline)

theorem Settled.not_opened (h : w.Settled J) {who : ι} {n : ℕ} :
    w.appends who ≠ .opened record n := by
  intro hopened
  have hclosed := h.2 who
  rw [hopened] at hclosed
  cases hclosed

/-! ### Loading -/

theorem kept_start {clock : Option UInt64} {readFault : Bool} {writeFault : Option String}
    {disk : Disk} {maxBytes : UInt64} {s : Store}
    (h : loadWithMaxBytes J clock readFault writeFault disk maxBytes = .ok s)
    (hends : disk.EndsLine) : (start s : SharedFile ι).Kept J := by
  obtain ⟨hmemory, hfile⟩ := loadWithMaxBytes_readable h hends
  refine ⟨(loadWithMaxBytes_ok h).1, hmemory, ?_, ?_, ?_, ?_⟩
  · rw [show (start s : SharedFile ι).file.read = s.disk from PathFile.read_ofContents _]
    exact hfile
  · intro record hmem
    cases hmem
  · intro record hmem
    cases hmem
  · intro who record n hopened
    cases hopened

/-! ### One step -/

theorem Kept.of_appends (h : w.Kept J) (hset : w'.set = w.set) (hfile : w'.file = w.file)
    (hacked : w'.acked = w.acked) (hsynced : w'.synced = w.synced)
    (hhandles : ∀ who record n, w'.appends who = .opened record n → w.file.entry = some n) :
    w'.Kept J where
  ids := by rw [hset]; exact h.ids
  memory := by rw [hset]; exact h.memory
  file := by rw [hfile]; exact h.file
  acked := by rw [hacked, hfile]; exact h.acked
  synced := by rw [hsynced, hset]; exact h.synced
  handles := by rw [hfile]; exact hhandles

theorem Kept.of_append (h : w.Kept J) (hset : w'.set = w.set) (hsynced : w'.synced = w.synced)
    {text : List Char} (hread : w'.file.read = some text)
    (hfile : Disk.Readable J (some text))
    (hacked : ∀ record ∈ w'.acked, OnDisk J record (some text) ∧ record.Decodes)
    (hhandles : ∀ who record n, w'.appends who = .opened record n → w'.file.entry = some n) :
    w'.Kept J where
  ids := by rw [hset]; exact h.ids
  memory := by rw [hset]; exact h.memory
  file := by rw [hread]; exact hfile
  acked := by rw [hread]; exact hacked
  synced := by rw [hsynced, hset]; exact h.synced
  handles := hhandles

/-- The agent replaces the file by its memory, which has all that was
acknowledged, while no handle is open. -/
theorem Kept.of_replace (hfile : w'.file.read = some (encodeRecords J w'.set.records))
    (hids : w'.set.ids = idsOf w'.set.records)
    (hmemory : ∀ record ∈ w'.set.records, record.Decodes)
    (hacked : ∀ record ∈ w'.acked, record ∈ w'.set.records)
    (hsynced : ∀ record ∈ w'.synced, record ∈ w'.set.records)
    (hclosed : ∀ who record n, w'.appends who ≠ .opened record n) : w'.Kept J where
  ids := hids
  memory := hmemory
  file := by rw [hfile]; exact readable_encodeRecords hmemory
  acked record hmem := by
    rw [hfile]
    exact ⟨onDisk_encodeRecords (hacked record hmem), hmemory record (hacked record hmem)⟩
  synced := hsynced
  handles who record n hopened := (hclosed who record n hopened).elim

section Appends

variable [DecidableEq ι] {who : ι}

theorem handles_enter {phase : AppendPhase} {entry : Option ℕ}
    (h : ∀ who record n, w.appends who = .opened record n → entry = some n)
    (hphase : ∀ record n, phase = .opened record n → entry = some n) :
    ∀ who' record n, (w.enter who phase).appends who' = .opened record n → entry = some n := by
  intro who' record n hopened
  by_cases hwho : who' = who
  · subst hwho
    exact hphase record n ((Function.update_self ..).symm.trans hopened)
  · exact h who' record n ((Function.update_of_ne hwho ..).symm.trans hopened)

theorem kept_appendStat (maxBytes : UInt64) (fails : Bool) (h : w.Kept J) :
    (w.appendStat J who record maxBytes fails).Kept J := by
  unfold appendStat
  dsimp only
  split
  · exact h
  · exact h.of_appends rfl rfl rfl rfl
      (handles_enter h.handles fun _ _ hphase => by cases hphase)

theorem kept_appendOpen (fails : Bool) (h : w.Kept J) : (w.appendOpen who fails).Kept J := by
  unfold appendOpen
  split
  · rename_i record hphase
    split
    · exact h.of_appends rfl rfl rfl rfl
        (handles_enter h.handles fun _ _ hphase => by cases hphase)
    · refine h.of_append rfl rfl w.file.read_openAppend h.file.touched ?_ ?_
      · intro record hmem
        obtain ⟨hdisk, hid⟩ := h.acked record hmem
        have hsame := onDisk_append hdisk []
        rw [append_nil] at hsame
        exact ⟨hsame, hid⟩
      · -- a handle that was open before is on the file just opened
        refine handles_enter ?_ ?_
        · intro who record n hopened
          have hentry := h.handles who record n hopened
          show w.file.openAppend.2.entry = some n
          rw [PathFile.openAppend_of_entry hentry]
          exact hentry
        · rintro record n ⟨⟩
          exact w.file.entry_openAppend
  · exact h

theorem kept_appendWrite {fails : Option ℕ} (h : w.Kept J)
    (hline : (w.appends who).WritesLine fails) : (w.appendWrite J who fails).Kept J := by
  unfold appendWrite
  split
  · rename_i record inode hphase
    rw [hphase] at hline
    obtain ⟨rfl, hid⟩ := hline
    have hread := PathFile.read_append (h.handles who record inode hphase) (recordLine J record)
    have hline : OnDisk J record (some (w.file.read.getD [] ++ recordLine J record)) :=
      ⟨_, rfl, Lines.hasLine_append_record h.file.complete _⟩
    refine h.of_append rfl rfl hread (h.file.append hid) ?_ ?_
    · refine forall_mem_cons.mpr ⟨⟨hline, hid⟩, ?_⟩
      intro other hmem
      obtain ⟨hdisk, hotherId⟩ := h.acked other hmem
      exact ⟨onDisk_append hdisk _, hotherId⟩
    · exact handles_enter h.handles fun _ _ hphase => by cases hphase
  · exact h

end Appends

theorem kept_publishStat (records : List RevocationRecord) (h : w.Kept J) :
    (w.publishStat records).Kept J := by
  unfold publishStat
  split
  · exact h
  · exact h.of_appends rfl rfl rfl rfl h.handles

variable {batch : PendingBatch}

theorem Fresh.mem_pending (h : w.Fresh records)
    (hbatch : collectPending J ⟨w.set.ids, 0, [], []⟩ records = .ok batch)
    (hmem : record ∈ records) : record ∈ batch.pending := by
  obtain ⟨-, -, -, -, -, -, -, hall⟩ := collectPending_eq_ok hbatch
  obtain ⟨id, -, hid⟩ := hall record hmem
  have hnew : id ∉ w.set.ids :=
    Finset.disjoint_left.mp h.1 (mem_idsOf.mpr ⟨record, hmem, hid⟩)
  refine (Portl.mem_pending hbatch hmem hid hnew ?_).1
  intro other hother hotherId
  exact h.2 other hother record hmem (hotherId.trans hid.symm)

theorem kept_commit {sized : Disk} (h : w.Kept J) (hsettled : w.Settled J)
    (hfresh : w.Fresh records)
    (hbatch : collectPending J ⟨w.set.ids, 0, [], []⟩ records = .ok batch)
    (hset : w'.set = (Store.commit J ⟨w.set, sized, w.cancelled⟩ batch).set)
    (hfile : w'.file.read = some (encodeRecords J (w.set.records ++ batch.pending)))
    (hacked : w'.acked = records ++ w.acked) (hsynced : w'.synced = w.synced)
    (happends : w'.appends = w.appends) : w'.Kept J := by
  obtain ⟨news, ids, hpend, -, -, hdecoded, -⟩ := collectPending_eq_ok hbatch
  rw [nil_append] at hpend
  have hrecords : w'.set.records = w.set.records ++ batch.pending := by
    rw [hset]
    rfl
  have hmemory : ∀ record ∈ w'.set.records, record.Decodes := by
    rw [hrecords, hpend]
    refine forall_mem_append.mpr ⟨h.memory, ?_⟩
    intro record hmem
    obtain ⟨id, -, hid⟩ := exists_of_forall₂ hdecoded hmem
    exact ⟨id, hid⟩
  refine Kept.of_replace ?_ ?_ hmemory ?_ ?_ ?_
  · rw [hrecords]
    exact hfile
  · rw [hset]
    exact Store.commit_ids h.ids hbatch
  · -- the batch is new in memory, and the rest was there already
    rw [hacked, hrecords]
    refine forall_mem_append.mpr ⟨?_, ?_⟩
    · intro record hmem
      exact mem_append_right _ (hfresh.mem_pending hbatch hmem)
    · intro record hmem
      exact mem_append_left _ (hsettled.1.mem (h.acked record hmem).1)
  · rw [hsynced, hrecords]
    intro record hmem
    exact mem_append_left _ (h.synced record hmem)
  · rw [happends]
    intro who record n
    exact hsettled.not_opened

theorem kept_publishWrite (fault : Option String) (h : w.Kept J) (hcan : w.CanPublish J) :
    (w.publishWrite J fault).Kept J := by
  unfold publishWrite
  unfold CanPublish at hcan
  split
  · exact h
  rename_i records sized hpublishing
  rw [hpublishing] at hcan
  obtain ⟨hsettled, hfresh⟩ := hcan
  dsimp only
  split
  · exact h.of_appends rfl rfl rfl rfl h.handles
  · rename_i hok
    obtain ⟨batch, hbatch, hlen, -⟩ := appendBatchAtomic_ok hok
    -- nothing was added, so the batch was empty
    have hnil : records = [] := by
      rw [eq_nil_iff_forall_not_mem]
      intro record hmem
      have hpending := hfresh.mem_pending hbatch hmem
      rw [eq_nil_of_length_eq_zero hlen.symm] at hpending
      cases hpending
    subst hnil
    exact h.of_appends rfl rfl rfl rfl h.handles
  · rename_i n hok
    obtain ⟨batch, hbatch, hlen, hnil | hcommit⟩ := appendBatchAtomic_ok hok
    · rw [hnil] at hlen
      cases hlen
    · rw [hcommit]
      exact kept_commit h hsettled hfresh hbatch rfl (PathFile.read_replace _ _) rfl rfl rfl

theorem kept_gc {now : UInt64} (fault : Option String) (h : w.Kept J)
    (hok : (∀ record ∈ w.set.records, retained now record) ∨ w.Settled J) :
    (w.gc J now fault).Kept J := by
  unfold gc
  split
  · exact h
  have hmemory : ∀ record ∈ w.set.records.filter (retained now), record.Decodes :=
    fun record hmem => h.memory record (mem_of_mem_filter hmem)
  have hsynced : ∀ record ∈ w.synced.filter (retained now),
      record ∈ w.set.records.filter (retained now) := by
    intro record hmem
    obtain ⟨hrecord, hretained⟩ := mem_filter.mp hmem
    exact mem_filter.mpr ⟨h.synced record hrecord, hretained⟩
  dsimp only
  split
  · rename_i hwritten
    have hsettled : w.Settled J := by
      refine hok.resolve_left fun hall => ?_
      have hkept : w.set.records.filter (retained now) = w.set.records :=
        filter_eq_self.mpr hall
      have hdropped : w.set.records.length -
          (w.set.records.filter (retained now)).length > 0 := hwritten.1
      rw [hkept] at hdropped
      omega
    obtain ⟨-, hpersisted⟩ := hwritten
    cases fault with
    | some message => cases hpersisted
    | none =>
      refine Kept.of_replace (PathFile.read_replace _ _) rfl hmemory ?_ hsynced ?_
      · intro record hmem
        obtain ⟨hrecord, hretained⟩ := mem_filter.mp hmem
        exact mem_filter.mpr ⟨hsettled.1.mem (h.acked record hrecord).1, hretained⟩
      · intro who record n
        exact hsettled.not_opened
  · refine ⟨rfl, hmemory, h.file, ?_, hsynced, h.handles⟩
    exact fun record hmem => h.acked record (mem_of_mem_filter hmem)

theorem kept_syncFromDisk (h : w.Kept J) : (w.syncFromDisk J none).Kept J := by
  unfold syncFromDisk
  split
  · exact h
  cases hraw : w.file.read with
  | none =>
    -- nothing was acknowledged yet: it would be on file
    have hsame : (w.store.syncFromDisk J none).2 = w.store := by
      unfold Store.syncFromDisk
      rw [show w.store.disk = none from hraw]
      rfl
    rw [hsame]
    refine ⟨h.ids, h.memory, h.file, h.acked, ?_, h.handles⟩
    intro record hmem
    obtain ⟨raw, hfound, -⟩ := (h.acked record hmem).1
    rw [hraw] at hfound
    cases hfound
  | some raw =>
    obtain ⟨records, hparse, hdecodes, hrecords, hids⟩ :=
      syncFromDisk_readable (s := w.store) h.file hraw
    refine ⟨?_, ?_, h.file, h.acked, ?_, h.handles⟩
    · dsimp only
      rw [hids, hrecords]
    · dsimp only
      rw [hrecords]
      exact hdecodes
    · dsimp only
      rw [hrecords]
      intro record hmem
      obtain ⟨raw', hraw', hline⟩ := (h.acked record hmem).1
      obtain rfl : raw = raw' := Option.some.inj (hraw.symm.trans hraw')
      exact mem_of_parse hparse hline

end SharedFile

/-- **One careful step keeps the invariant.** -/
theorem kept_step [DecidableEq ι] (step : FileStep ι) (h : w.Kept J)
    (hcareful : step.Careful J w) : (step.apply J w).Kept J := by
  cases step with
  | appendStat who record maxBytes fails => exact SharedFile.kept_appendStat maxBytes fails h
  | appendOpen who fails => exact SharedFile.kept_appendOpen fails h
  | appendWrite who fails => exact SharedFile.kept_appendWrite h hcareful
  | publishStat records => exact SharedFile.kept_publishStat records h
  | publishWrite fault => exact SharedFile.kept_publishWrite fault h hcareful
  | gc now fault => exact SharedFile.kept_gc fault h hcareful
  | syncFromDisk fault =>
    obtain rfl : fault = none := hcareful
    exact SharedFile.kept_syncFromDisk h

/-- **No acknowledged revocation is lost**, in any careful run of an agent that
loaded a file with complete lines. -/
theorem revocations_none_lost [DecidableEq ι] {clock : Option UInt64} {readFault : Bool}
    {writeFault : Option String} {disk : Disk} {maxBytes : UInt64} {s : Store}
    (hload : loadWithMaxBytes J clock readFault writeFault disk maxBytes = .ok s)
    (hends : disk.EndsLine) (steps : List (FileStep ι))
    (hcareful : Run.Guarded (FileStep.apply J) (fun w step => step.Careful J w)
      (SharedFile.start s) steps) :
    ((SharedFile.start s : SharedFile ι).run J steps).NoneLost J :=
  (Run.Guarded.invariant (I := SharedFile.Kept J) (fun _ step h hok => kept_step step h hok)
    hcareful (SharedFile.kept_start hload hends)).noneLost

end Runs

/-! ### One append and one publication -/

def appendedRecord : RevocationRecord := .new (Vector.replicate 16 1) "manual" 100 none

def publishedRecord : RevocationRecord :=
  publishRecord (sampleKey 3) 120 (Vector.replicate 16 2)

def appendSteps : List (FileStep Unit) :=
  [.appendStat () appendedRecord defaultRevocationsMaxBytes false, .appendOpen () false,
    .appendWrite () none]

def publishSteps : List (FileStep Unit) :=
  [.publishStat [publishedRecord], .publishWrite none]

def reloadedSteps : List (FileStep Unit) :=
  appendSteps ++ .syncFromDisk none :: publishSteps ++ [.gc 150 none, .syncFromDisk none]

def unreadSteps : List (FileStep Unit) := appendSteps ++ publishSteps ++ [.syncFromDisk none]

def orphanedSteps : List (FileStep Unit) :=
  appendSteps.take 2 ++ publishSteps ++ appendSteps.drop 2 ++ [.syncFromDisk none]

def afterSteps (steps : List (FileStep Unit)) : SharedFile Unit :=
  (SharedFile.start emptyStore).run .sample steps

theorem load_missing (clock : UInt64) :
    loadWithMaxBytes .sample (some clock) false none none defaultRevocationsMaxBytes =
      .ok emptyStore := rfl

/-- With the reload both records are kept. -/
theorem revocations_none_lost_reloaded :
    (afterSteps reloadedSteps).NoneLost .sample ∧
      (afterSteps reloadedSteps).synced = [publishedRecord, appendedRecord] := by
  have hcareful : Run.Guarded (FileStep.apply .sample)
      (fun w step => step.Careful .sample w) (SharedFile.start emptyStore)
      reloadedSteps := by decide +kernel
  refine ⟨?_, by decide +kernel⟩
  exact revocations_none_lost (load_missing 90) (Or.inl rfl) reloadedSteps hcareful

theorem SharedFile.not_noneLost {ι : Type*} {J : JsonCodec} {w : SharedFile ι}
    (record : RevocationRecord)
    (hlost : w.file.read = some (encodeRecords J w.set.records) ∧ record ∈ w.acked ∧
      record ∉ w.set.records) : ¬ w.NoneLost J := by
  obtain ⟨hread, hacked, hnot⟩ := hlost
  intro h
  rcases h.present record hacked with ⟨raw, hraw, hline⟩ | hmem
  · obtain rfl := Option.some.inj (hread.symm.trans hraw)
    exact hnot (mem_of_parse (parseRevocationRecords_encodeRecords w.set.records) hline)
  · exact hnot hmem

/-- Without it the publication writes the appended record away; and an append
that opened the file before a publication writes where nobody reads. -/
theorem revocations_lost :
    ¬ (afterSteps unreadSteps).NoneLost .sample ∧ ¬ (afterSteps orphanedSteps).NoneLost .sample := by
  refine ⟨SharedFile.not_noneLost appendedRecord ?_, SharedFile.not_noneLost appendedRecord ?_⟩
  all_goals decide +kernel

end Portl
