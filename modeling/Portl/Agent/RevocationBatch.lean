import Portl.Agent.Revocations

/-!
# Atomic batches

`append_batch_atomic` against what it is for: all of a batch or nothing, in memory, on file and
among the live sessions. A batch with nothing new in it writes nothing, so that after `Ok(0)` the
file is what it was, which need not be what is in memory: `insert`, `insert_record` and `gc`
change the memory only.
-/

namespace Portl

open Checks List

variable {J : JsonCodec}

/-! ## The records a batch adds -/

/-- The records whose id is neither known nor that of a record before them, in order. -/
def firstNew (known : Finset Bytes16) (before : List RevocationRecord) :
    List RevocationRecord → List RevocationRecord
  | [] => []
  | record :: rest =>
    let new := record.ticketIdBytes.toOption.any fun id => decide (id ∉ known ∪ idsOf before)
    if new then record :: firstNew known (before ++ [record]) rest
    else firstNew known (before ++ [record]) rest

variable {records : List RevocationRecord} {s : Store}

theorem collectPending_firstNew {known : Finset Bytes16} {before : List RevocationRecord}
    {acc batch : PendingBatch} (hacc : acc.newIds = known ∪ idsOf before)
    (h : collectPending J acc records = .ok batch) :
    batch.pending = acc.pending ++ firstNew known before records := by
  induction records generalizing acc before with
  | nil =>
    obtain rfl := Except.ok.inj h
    exact (append_nil _).symm
  | cons record rest ih =>
    simp only [collectPending, bind_eq_ok, mapError_eq_ok] at h
    obtain ⟨id, hid, h⟩ := h
    have hone : idsOf [record] = {id} := by
      rw [idsOf, filterMap_cons, hid]
      rfl
    simp only [firstNew, hid, Except.toOption, Option.any_some, decide_eq_true_eq, ← hacc]
    by_cases hmem : id ∈ acc.newIds
    · rw [if_pos hmem] at h
      rw [if_neg (not_not_intro hmem)]
      apply ih _ h
      rw [idsOf_append, hone, ← Finset.union_assoc, ← hacc, Finset.union_eq_left.mpr]
      exact Finset.singleton_subset_iff.mpr hmem
    · rw [if_neg hmem] at h
      rw [if_pos hmem, ih _ h, append_assoc, singleton_append]
      rw [idsOf_append, hone, ← Finset.union_assoc, ← hacc, Finset.union_comm]
      rfl

/-- What a batch that was answered with `Ok(n)` has done. -/
structure BatchApplied (J : JsonCodec) (s : Store) (batch : List RevocationRecord) (n : ℕ)
    (s' : Store) : Prop where
  count : n = (firstNew s.set.ids [] batch).length
  records : s'.set.records = s.set.records ++ firstNew s.set.ids [] batch
  ids : s'.set.ids = s.set.ids ∪ idsOf (firstNew s.set.ids [] batch)
  liveSessions : s'.set.liveSessions = s.set.liveSessions
  file : if n = 0 then s' = s else s'.disk = some (encodeRecords J s'.set.records)
  cancelled : ∀ id ∈ idsOf (firstNew s.set.ids [] batch), ∀ sessionId token,
    s.set.liveSessions.tokenOf id sessionId = some token → token ∈ s'.cancelled

variable {fault : Option String}

theorem appendBatchAtomic_error {e : AppendError}
    (h : (s.appendBatchAtomic J fault records).1 = .error e) :
    (s.appendBatchAtomic J fault records).2 = s := by
  rcases appendBatchAtomic_outcome fault records s with
    ⟨_, heq⟩ | ⟨batch, -, ⟨-, heq⟩ | ⟨-, heq⟩⟩
  · rw [heq]
  · rw [heq]
  · rw [heq] at h
    cases h

theorem appendBatchAtomic_applied {n : ℕ} (h : (s.appendBatchAtomic J fault records).1 = .ok n) :
    BatchApplied J s records n (s.appendBatchAtomic J fault records).2 := by
  rcases appendBatchAtomic_outcome fault records s with ⟨e, heq⟩ | ⟨batch, hbatch, hdone⟩
  · rw [heq] at h
    cases h
  have hpending : batch.pending = firstNew s.set.ids [] records := by
    have hknown : s.set.ids = s.set.ids ∪ idsOf [] := (Finset.union_empty _).symm
    rw [collectPending_firstNew hknown hbatch, nil_append]
  obtain ⟨news, ids, hnews, hpids, hnew, hdec, -, -⟩ := collectPending_eq_ok hbatch
  rw [nil_append] at hnews hpids
  have hids : ids.toFinset = idsOf (firstNew s.set.ids [] records) := by
    rw [← idsOf_of_collect hdec, ← hnews, hpending]
  rcases hdone with ⟨hnil, heq⟩ | ⟨hne, heq⟩
  · rw [heq] at h ⊢
    cases h
    rw [hpending] at hnil
    refine ⟨?_, ?_, ?_, rfl, rfl, ?_⟩
    · rw [hnil]
      rfl
    · rw [hnil, append_nil]
    · rw [hnil]
      exact (Finset.union_empty _).symm
    · rw [hnil]
      intro id hid
      exact absurd hid (Finset.notMem_empty id)
  · rw [heq] at h ⊢
    cases h
    refine ⟨by rw [hpending], ?_, ?_, rfl, ?_, ?_⟩
    · show s.set.records ++ batch.pending = _
      rw [hpending]
    · show batch.newIds = _
      rw [hnew, hids]
    · rw [if_neg (by simpa using hne)]
      rfl
    · intro id hid sessionId token htoken
      have hmem : id ∈ batch.pendingIds.toFinset := by
        rw [hpids, hids]
        exact hid
      exact tokens_subset_cancelLiveSessions hmem (LiveSessions.mem_tokens.mpr ⟨sessionId, htoken⟩)

/-! ## Reachable states -/

/-- A step of the life of a set: any of its operations, or a change of the file by others. -/
inductive SetOp where
  | insert (id : Bytes16)
  | insertRecord (record : RevocationRecord)
  | append (fault : Option String) (record : RevocationRecord)
  | store (op : StoreOp)
  | register (sessionId : Bytes16) (ticketChainIds : List Bytes16) (token : Token)
  | deregister (sessionId : Bytes16) (ticketChainIds : List Bytes16)
  | changeFile (disk : Disk)

def SetOp.apply (J : JsonCodec) (s : Store) (op : SetOp) : Store :=
  match op with
  | .insert id => (s.insert id).2
  | .insertRecord record => (s.insertRecord record).2
  | .append fault record => (s.append J fault record).2
  | .store op => op.apply J s
  | .register sessionId ticketChainIds token => s.registerLiveSession sessionId ticketChainIds token
  | .deregister sessionId ticketChainIds => s.deregisterLiveSession sessionId ticketChainIds
  | .changeFile disk => { s with disk := disk }

def Coherent (s : Store) : Prop := s.set.ids = idsOf s.set.records

theorem Coherent.push (h : Coherent s) {record : RevocationRecord} {id : Bytes16}
    (hid : record.ticketIdBytes = .ok id) :
    insert id s.set.ids = idsOf (s.set.records ++ [record]) := by
  have hone : idsOf [record] = {id} := by
    rw [idsOf, filterMap_cons, hid]
    rfl
  rw [idsOf_append, hone, ← h, Finset.union_comm]
  rfl

theorem append_cases (fault : Option String) (record : RevocationRecord) (s : Store) :
    (s.append J fault record).2 = s ∨
      (s.append J fault record).2 = (s.appendBatchAtomic J fault [record]).2 := by
  unfold Store.append
  split
  · exact .inl rfl
  split
  · exact .inl rfl
  split
  · next heq => exact .inr (by rw [heq])
  · next heq => exact .inr (by rw [heq])

theorem Coherent.apply (h : Coherent s) (op : SetOp) : Coherent (op.apply J s) := by
  cases op with
  | insert id =>
    show Coherent (s.insert id).2
    unfold Store.insert
    split
    · exact h
    · exact h.push (decodeTicketId_encode id)
  | insertRecord record =>
    show Coherent (s.insertRecord record).2
    unfold Store.insertRecord
    cases hid : record.ticketIdBytes with
    | error message => exact h
    | ok id =>
      dsimp only
      split
      · exact h
      · exact h.push hid
  | append fault record =>
    rcases append_cases fault record s with heq | heq
    · rw [SetOp.apply, heq]
      exact h
    · rw [SetOp.apply, heq]
      exact (StoreOp.effect (J := J) (.appendBatchAtomic fault [record]) h).ids
  | store op => exact (op.effect h).ids
  | register | deregister | changeFile => exact h

theorem Coherent.run (h : Coherent s) (ops : List SetOp) :
    Coherent (ops.foldl (SetOp.apply J) s) := by
  induction ops generalizing s with
  | nil => exact h
  | cons op ops ih => exact ih (h.apply op)

/-- A batch goes in as a whole or not at all, whatever the state; and the ids of a set are those
of its records from loading on. -/
theorem revocation_batch_atomic (J : JsonCodec) (fault : Option String)
    (records : List RevocationRecord) (s : Store) :
    (∀ e, (s.appendBatchAtomic J fault records).1 = .error e →
        (s.appendBatchAtomic J fault records).2 = s) ∧
      (∀ n, (s.appendBatchAtomic J fault records).1 = .ok n →
        BatchApplied J s records n (s.appendBatchAtomic J fault records).2) ∧
      ∀ clock readFault writeFault disk maxBytes loaded,
        loadWithMaxBytes J clock readFault writeFault disk maxBytes = .ok loaded →
          ∀ ops : List SetOp, Coherent (ops.foldl (SetOp.apply J) loaded) := by
  refine ⟨fun e => appendBatchAtomic_error, fun n => appendBatchAtomic_applied, ?_⟩
  intro clock readFault writeFault disk maxBytes loaded hload ops
  exact Coherent.run (loadWithMaxBytes_ok hload).1 ops

/-! ### A revocation by hand -/

def handId : Bytes16 := Vector.replicate 16 1

def handRecord : RevocationRecord := .new handId "lost" 100 none

def freshStore : Store := ⟨⟨∅, [], ∅, 1000⟩, none, ∅⟩

theorem loadWithMaxBytes_freshStore :
    loadWithMaxBytes .sample (some 100) false none none 1000 = .ok freshStore := rfl

theorem revocation_batch_atomic_pair :
    (freshStore.appendBatchAtomic .sample (some "disk full") [handRecord]).2 = freshStore ∧
      BatchApplied .sample freshStore [handRecord, handRecord] 1
        (freshStore.appendBatchAtomic .sample none [handRecord, handRecord]).2 ∧
      Coherent (SetOp.apply .sample freshStore (.insert handId)) := by
  have hfull : (freshStore.appendBatchAtomic .sample (some "disk full") [handRecord]).1 =
      .error (.osError "disk full") := by decide +kernel
  have hpair : (freshStore.appendBatchAtomic .sample none [handRecord, handRecord]).1 = .ok 1 := by
    decide +kernel
  exact ⟨(revocation_batch_atomic _ _ _ _).1 _ hfull, (revocation_batch_atomic _ _ _ _).2.1 _ hpair,
    (revocation_batch_atomic _ none [] freshStore).2.2 _ _ _ _ _ _ loadWithMaxBytes_freshStore
      [.insert handId]⟩

/-- After a revocation by hand a batch with nothing new is answered with success, and the
file still does not exist. -/
theorem revocation_batch_leaves_file :
    loadWithMaxBytes .sample (some 100) false none none 1000 = .ok freshStore ∧
      ((freshStore.insert handId).2.appendBatchAtomic .sample none [handRecord]).1 = .ok 0 ∧
      ((freshStore.insert handId).2.appendBatchAtomic .sample none
        [handRecord]).2.set.records.length = 1 ∧
      ((freshStore.insert handId).2.appendBatchAtomic .sample none [handRecord]).2.disk = none := by
  refine ⟨loadWithMaxBytes_freshStore, ?_, ?_, ?_⟩ <;> decide +kernel

end Portl
