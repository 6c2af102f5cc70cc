import Portl.Agent.RevocationFile

/-!
# A torn line and the revocations behind it

A crash in the middle of `append_record_limited` leaves the beginning of a line.
The next append writes its own line right behind, and the two make one line that is
no record. `sync_from_disk` takes the file as a whole or not at all, so from then on
nothing that is appended is read any more.

Of `serde_json::from_str` one more fact is used here, that it reads single
documents (`LineCodec`).
-/

namespace Portl

open Checks List

/-- The text of a record, with something before it on the line, is no document:
its last brace closes its first one. -/
structure LineCodec extends JsonCodec where
  fromStr_glued : ∀ (before : List Char) (record : RevocationRecord),
    (∃ c ∈ before, Lines.isWhitespace c = false) → fromStr (before ++ toJson record) = none

instance : Coe LineCodec JsonCodec := ⟨LineCodec.toJsonCodec⟩

def LineCodec.sample : LineCodec where
  toJsonCodec := .sample
  fromStr_glued before record := by
    rintro ⟨c, hmem, -⟩
    obtain ⟨first, rest, rfl⟩ := exists_cons_of_ne_nil (ne_nil_of_mem hmem)
    -- the brace of the record stands behind the first character
    refine if_neg fun h => h.2 ?_
    exact mem_append_right rest mem_cons_self

/-! ## Reading a file to which a line was added -/

section Reading

variable {front tail raw : List Char} {record : RevocationRecord}
  {records : List RevocationRecord}

theorem parse_append_recordLine {J : JsonCodec}
    (hfront : front = [] ∨ front.getLast? = some '\n') (htail : '\n' ∉ tail) :
    parseRevocationRecords J (front ++ tail ++ recordLine J record) = .ok records ↔
      ∃ old last, parseRevocationRecords J front = .ok old ∧
        J.fromStr (tail.dropWhile Lines.isWhitespace ++ J.toJson record) = some last ∧
        records = old ++ [last] := by
  have hrec := J.toJson_isRecord record
  have hline : '\n' ∉ tail ++ J.toJson record := by
    rw [mem_append, not_or]
    exact ⟨htail, hrec.one_line⟩
  have hcr : Lines.stripCr (tail ++ J.toJson record) = tail ++ J.toJson record := by
    unfold Lines.stripCr
    rw [List.getLast?_append_of_ne_nil _ hrec.nonempty, if_neg]
    intro h
    exact absurd (hrec.last _ h) (by decide)
  have htrim := Lines.trim_append_record hrec tail
  have hne : tail.dropWhile Lines.isWhitespace ++ J.toJson record ≠ [] :=
    append_ne_nil_of_right_ne_nil _ hrec.nonempty
  have htext : front ++ tail ++ recordLine J record = front ++ (tail ++ J.toJson record ++ ['\n']) := by
    simp [recordLine]
  have hlast : ∀ n : ℕ, [(tail ++ J.toJson record, n)].filter (fun p => Lines.trim p.1 ≠ []) =
      [(tail ++ J.toJson record, n)] := by
    intro n
    exact filter_cons_of_pos (by rw [decide_eq_true_eq, htrim]; exact hne)
  unfold parseRevocationRecords
  rw [htext, Lines.lines_append_line hfront hline, hcr, zipIdx_append, filter_append,
    zipIdx_singleton, hlast, collect_concat_eq_ok]
  simp [okOr_eq_ok, htrim]

theorem parse_append_torn (J : LineCodec)
    (hfront : front = [] ∨ front.getLast? = some '\n') (htail : '\n' ∉ tail) :
    parseRevocationRecords J (front ++ tail ++ recordLine J record) = .ok records ↔
      (∀ c ∈ tail, Lines.isWhitespace c = true) ∧
        ∃ old, parseRevocationRecords J front = .ok old ∧
          records = old ++ [record] := by
  rw [parse_append_recordLine hfront htail]
  by_cases hblank : ∀ c ∈ tail, Lines.isWhitespace c = true
  · have hdrop : tail.dropWhile Lines.isWhitespace = [] := dropWhile_eq_nil_iff.mpr hblank
    simp only [hdrop, nil_append, J.fromStr_toJson, Option.some.injEq]
    constructor
    · rintro ⟨old, last, hold, rfl, rfl⟩
      exact ⟨hblank, old, hold, rfl⟩
    · rintro ⟨-, old, hold, rfl⟩
      exact ⟨old, record, hold, rfl, rfl⟩
  · constructor
    · rintro ⟨old, last, -, hlast, -⟩
      have hsome : ∃ c ∈ tail.dropWhile Lines.isWhitespace, Lines.isWhitespace c = false := by
        have hne : tail.dropWhile Lines.isWhitespace ≠ [] :=
          fun h => hblank (dropWhile_eq_nil_iff.mp h)
        refine ⟨_, head_mem hne, ?_⟩
        simpa using head_dropWhile_not Lines.isWhitespace hne
      cases (J.fromStr_glued _ record hsome).symm.trans hlast
    · exact fun h => absurd h.1 hblank

end Reading

/-! ## The agent after the next append -/

/-- What an interrupted append leaves: full lines that hold valid records, and a
beginning of one more, which may be empty but not whole. -/
structure TornFile (J : JsonCodec) (raw torn : List Char) (records : List RevocationRecord) :
    Prop where
  complete : raw = [] ∨ raw.getLast? = some '\n'
  parses : parseRevocationRecords J raw = .ok records
  valid : ∀ record ∈ records, record.Decodes
  torn : ∃ other : RevocationRecord, torn <+: recordLine J other ∧ torn ≠ recordLine J other

structure Store.Holding (s : Store) (records : List RevocationRecord) : Prop where
  read : s.set.records = records
  ids : s.set.ids = idsOf records

section Torn

variable {J : LineCodec} {raw torn : List Char} {records : List RevocationRecord}
  {record : RevocationRecord} {id : Bytes16} {s : Store}

theorem TornFile.one_line (h : TornFile J raw torn records) : '\n' ∉ torn := by
  obtain ⟨other, hpre, hne⟩ := h.torn
  rcases prefix_concat_iff.mp hpre with heq | hpre
  · exact absurd heq hne
  · exact fun hmem => (J.toJson_isRecord other).one_line (hpre.subset hmem)

theorem TornFile.eq_nil_of_blank (h : TornFile J raw torn records)
    (hblank : ∀ c ∈ torn, Lines.isWhitespace c = true) : torn = [] := by
  obtain ⟨other, hpre, -⟩ := h.torn
  cases torn with
  | nil => rfl
  | cons c torn =>
    obtain ⟨rest, hrest⟩ := hpre
    have hrec := J.toJson_isRecord other
    obtain ⟨first, text, htext⟩ := exists_cons_of_ne_nil hrec.nonempty
    rw [recordLine, htext] at hrest
    obtain rfl : c = first := (List.cons.inj hrest).1
    have hfirst := hrec.first c (by rw [htext]; rfl)
    cases hfirst.symm.trans (hblank c mem_cons_self)

theorem syncFromDisk_of_fault {J : JsonCodec} (fault : SyncFault) (hdisk : s.disk = some raw) :
    (s.syncFromDisk J (some fault)).2 = s := by
  unfold Store.syncFromDisk
  cases fault with
  | clock => rfl
  | read =>
    rw [if_neg (by decide), hdisk]
    simp

theorem syncFromDisk_torn (h : TornFile J raw torn records) (hne : torn ≠ [])
    (hdisk : s.disk = some (raw ++ torn ++ recordLine J record)) (fault : Option SyncFault) :
    (s.syncFromDisk J fault).2 = s := by
  rcases syncFromDisk_cases (J := J) fault s with heq | ⟨text, read, htext, hparse, -⟩
  · exact heq
  · obtain rfl : raw ++ torn ++ recordLine J record = text := Option.some.inj (hdisk.symm.trans htext)
    have hblank := ((parse_append_torn J h.complete h.one_line).mp hparse).1
    exact absurd (h.eq_nil_of_blank hblank) hne

theorem syncFromDisk_whole (h : TornFile J raw [] records)
    (hid : record.ticketIdBytes = .ok id) (hdisk : s.disk = some (raw ++ recordLine J record)) :
    id ∈ (s.syncFromDisk J none).2.set.ids := by
  have hreadable : Disk.Readable J (some raw) := by
    refine ⟨h.complete, ?_⟩
    rintro _ ⟨⟩
    exact ⟨records, h.parses, h.valid⟩
  have happended : s.disk.Readable J := by
    rw [hdisk]
    exact hreadable.append ⟨id, hid⟩
  obtain ⟨read, hparse, -, -, hids⟩ := syncFromDisk_readable happended hdisk
  have hwhole := parseRevocationRecords_append h.complete h.parses record
  obtain rfl : read = records ++ [record] := Except.ok.inj (hparse.symm.trans hwhole)
  rw [hids]
  exact mem_idsOf.mpr ⟨record, mem_append_right _ mem_cons_self, hid⟩

/-- **A torn append and the revocations behind it.** After the next append has
been acknowledged and the file read again, the agent has the id of the new record
exactly if it had it before, or if nothing was left of the interrupted append and
the reading itself did not fail. -/
theorem torn_append_revokes {fault : Option AppendFault} {maxBytes : UInt64} {disk : Disk}
    (hfile : TornFile J raw torn records) (hagent : s.Holding records)
    (hid : record.ticketIdBytes = .ok id)
    (happend : appendRecordLimited J fault (some (raw ++ torn)) record maxBytes = (.ok (), disk))
    (syncFault : Option SyncFault) :
    (Store.syncFromDisk J syncFault { s with disk := disk }).2.set.contains id = true ↔
      torn = [] ∧ syncFault = none ∨ id ∈ idsOf records := by
  have hdisk : disk = some (raw ++ torn ++ recordLine J record) := by
    have hok := appendRecordLimited_ok (congrArg Prod.fst happend)
    rw [happend] at hok
    exact hok
  subst hdisk
  have hbefore : ∀ s' : Store, s' = { s with disk := some (raw ++ torn ++ recordLine J record) } →
      (id ∈ s'.set.ids ↔ id ∈ idsOf records) := by
    rintro _ rfl
    rw [← hagent.ids]
  rw [RevocationSet.contains, decide_eq_true_eq]
  by_cases htorn : torn = []
  · subst htorn
    cases syncFault with
    | none =>
      refine iff_of_true ?_ (.inl ⟨rfl, rfl⟩)
      exact syncFromDisk_whole hfile hid (by rw [append_nil])
    | some fault =>
      rw [syncFromDisk_of_fault fault rfl, hbefore _ rfl]
      simp
  · rw [syncFromDisk_torn hfile htorn rfl syncFault, hbefore _ rfl]
    simp [htorn]

theorem tornFile_encodeRecords {J : JsonCodec} {other : RevocationRecord}
    (hvalid : ∀ record ∈ records, record.Decodes) (hpre : torn <+: recordLine J other)
    (hne : torn ≠ recordLine J other) :
    TornFile J (encodeRecords J records) torn records :=
  ⟨encodeRecords_endsLine records, parseRevocationRecords_encodeRecords records, hvalid,
    ⟨other, hpre, hne⟩⟩

end Torn

def manualRecord (byte : UInt8) : RevocationRecord :=
  .new (Vector.replicate 16 byte) "manual" 1000 none

/-- An agent that has read the first of these, and the file behind it with a
beginning of the second line. -/
def tornStore (torn : List Char) : Store where
  set := ⟨idsOf [manualRecord 1], [manualRecord 1], ∅, defaultRevocationsMaxBytes⟩
  disk := some (encodeRecords .sample [manualRecord 1] ++ torn)
  cancelled := ∅

def tornStore.appended (torn : List Char) : Store :=
  { tornStore torn with
    disk := (appendRecordLimited .sample none (tornStore torn).disk (manualRecord 3)
      defaultRevocationsMaxBytes).2 }

def tornStore.next (torn : List Char) : Store :=
  ((tornStore.appended torn).syncFromDisk .sample none).2

theorem manualRecord_decodes (byte : UInt8) :
    (manualRecord byte).ticketIdBytes = .ok (Vector.replicate 16 byte) :=
  ticketIdBytes_new _ _ _ _

theorem tornStore_tornFile {torn : List Char} (hpre : torn <+: recordLine .sample (manualRecord 2))
    (hne : torn ≠ recordLine .sample (manualRecord 2)) :
    TornFile .sample (encodeRecords .sample [manualRecord 1]) torn [manualRecord 1] := by
  refine tornFile_encodeRecords ?_ hpre hne
  rw [forall_mem_singleton]
  exact ⟨_, manualRecord_decodes 1⟩

/-- Nothing was left of the second line: the third is read. -/
theorem torn_append_revokes_whole :
    (appendRecordLimited .sample none (tornStore []).disk (manualRecord 3)
        defaultRevocationsMaxBytes).1 = .ok () ∧
      (tornStore.next []).set.contains (Vector.replicate 16 3) = true := by
  have hpre : [] <+: recordLine .sample (manualRecord 2) := nil_prefix
  have hfile := tornStore_tornFile hpre (by decide +kernel)
  have hok : (appendRecordLimited .sample none (tornStore []).disk (manualRecord 3)
      defaultRevocationsMaxBytes).1 = .ok () := by decide +kernel
  exact ⟨hok, (torn_append_revokes (J := .sample) hfile (s := tornStore []) ⟨rfl, rfl⟩
    (manualRecord_decodes 3) (Prod.ext hok rfl) none).mpr (.inl ⟨rfl, rfl⟩)⟩

/-- One brace was: the append of the third is acknowledged all the same, and the
agent never learns of it. -/
theorem torn_append_disables_revocation :
    ['\x7b'] <+: recordLine .sample (manualRecord 2) ∧
      (appendRecordLimited .sample none (tornStore ['\x7b']).disk (manualRecord 3)
        defaultRevocationsMaxBytes).1 = .ok () ∧
      (tornStore.next ['\x7b']).set.contains (Vector.replicate 16 3) = false := by
  have hpre : ['\x7b'] <+: recordLine .sample (manualRecord 2) :=
    ⟨(recordLine .sample (manualRecord 2)).tail, rfl⟩
  have hfile := tornStore_tornFile hpre (by decide +kernel)
  have hok : (appendRecordLimited .sample none (tornStore ['\x7b']).disk (manualRecord 3)
      defaultRevocationsMaxBytes).1 = .ok () := by decide +kernel
  refine ⟨hpre, hok, ?_⟩
  have hdisk : (tornStore.appended ['\x7b']).disk =
      some (encodeRecords .sample [manualRecord 1] ++ ['\x7b'] ++
        recordLine .sample (manualRecord 3)) :=
    appendRecordLimited_ok hok
  have hsame : tornStore.next ['\x7b'] = tornStore.appended ['\x7b'] :=
    syncFromDisk_torn (J := .sample) hfile (by decide) hdisk none
  rw [hsame]
  show decide (Vector.replicate 16 3 ∈ idsOf [manualRecord 1]) = false
  decide +kernel

end Portl
