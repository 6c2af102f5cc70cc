import Mathlib.Order.Lattice.Nat
import Portl.Agent.TornAppend

/-!
# Revoking a ticket by its name

`portl ticket revoke` takes a ticket URI, a ticket id in 32 hex digits, or one in
16, the form the command line shows. The id is appended to the revocations file
and from there found by the agent, which looks tickets up by all sixteen bytes of
their id. Sixteen digits are read as the first half of an id whose second half is
zero, so what is revoked under this name is another ticket, or none.
-/

namespace Portl

open Checks List

variable (P : Primitives) (env : CliEnv)

/-! ## Names -/

inductive TicketForm where
  | uri
  | ticketId
  | halfId
deriving DecidableEq

def TicketForm.Names (form : TicketForm) (name : String) (t : PortlTicket) : Prop :=
  match form with
  | .uri => (∃ rest, name.toList = "portl".toList ++ rest) ∧ env.decodeString name = .ok t
  | .ticketId => Hex.decodeChars (Lines.trim name.toList) = some (Portl.ticketId P t.sig).toList
  | .halfId =>
    Hex.decodeChars (Lines.trim name.toList) = some ((Portl.ticketId P t.sig).toList.take 8)

def paddedId (id : Bytes16) : List UInt8 := id.toList.take 8 ++ List.replicate 8 0

variable {P env}

theorem all_isAsciiHexdigit_of_decodeChars : ∀ {digits : List Char} {bytes : List UInt8},
    Hex.decodeChars digits = some bytes → digits.all isAsciiHexdigit = true
  | [], _, _ => rfl
  | [_], _, h => by cases h
  | hi :: lo :: rest, bytes, h => by
    simp only [Hex.decodeChars] at h
    split at h
    · rename_i v w tail hv hw htail
      rw [all_cons, all_cons, all_isAsciiHexdigit_of_decodeChars htail]
      simp [isAsciiHexdigit, hv, hw]
    · cases h

variable {id : Bytes16} {name : String}

theorem parseTicketIdHex_full (h : Hex.decodeChars (Lines.trim name.toList) = some id.toList) :
    parseTicketIdHex name = .ok (some id) := by
  unfold parseTicketIdHex
  simp only [all_isAsciiHexdigit_of_decodeChars h, h, tryFromSlice_toList]
  rfl

theorem parseTicketIdHex_half
    (h : Hex.decodeChars (Lines.trim name.toList) = some (id.toList.take 8)) :
    ∃ padded, parseTicketIdHex name = .ok (some padded) ∧ padded.toList = paddedId id := by
  have hlen : (id.toList.take 8).length = 8 := by simp
  have hshort : tryFromSlice 16 (id.toList.take 8) = none := dif_neg (by omega)
  have hhalf : ∃ half, tryFromSlice 8 (id.toList.take 8) = some half := ⟨_, dif_pos hlen⟩
  have hpadded : (paddedId id).length = 16 := by simp [paddedId]
  obtain ⟨half, hhalf⟩ := hhalf
  refine ⟨⟨(paddedId id).toArray, by simpa using hpadded⟩, ?_, by simp [Vector.toList]⟩
  unfold parseTicketIdHex
  simp only [all_isAsciiHexdigit_of_decodeChars h, h, hshort, hhalf]
  exact congrArg Except.ok (dif_pos hpadded)

theorem parseTicketIdHex_uri {rest : List Char} (h : name.toList = "portl".toList ++ rest) :
    parseTicketIdHex name = .ok none := by
  have hmem : 'p' ∈ Lines.trim name.toList := by
    refine Lines.mem_trim ?_ (by decide)
    rw [h]
    exact mem_append_left _ (by decide)
  have hall : (Lines.trim name.toList).all isAsciiHexdigit = false := by
    rw [all_eq_false]
    exact ⟨'p', hmem, by decide⟩
  unfold parseTicketIdHex
  simp only [hall]
  rfl

/-- **The id that a name revokes.** -/
theorem ticketUriId_of_names {form : TicketForm} {t : PortlTicket} (h : form.Names P env name t) :
    ∃ id, ticketUriId P env name = .ok id ∧
      id.toList = if form = .halfId then paddedId (Portl.ticketId P t.sig)
        else (Portl.ticketId P t.sig).toList := by
  unfold ticketUriId
  cases form with
  | uri =>
    obtain ⟨⟨rest, hrest⟩, hdec⟩ := h
    refine ⟨Portl.ticketId P t.sig, ?_, rfl⟩
    rw [parseTicketIdHex_uri hrest, hdec]
    rfl
  | ticketId =>
    refine ⟨Portl.ticketId P t.sig, ?_, rfl⟩
    rw [parseTicketIdHex_full h]
    rfl
  | halfId =>
    obtain ⟨padded, hparse, hpadded⟩ := parseTicketIdHex_half h
    refine ⟨padded, ?_, hpadded⟩
    rw [hparse]
    rfl

/-! ## The file and the set after the revocation -/

section Reading

variable {J : LineCodec} {raw : List Char} {record : RevocationRecord}
  {records : List RevocationRecord}

theorem parse_append_blank {J : JsonCodec} {front tail : List Char}
    (hfront : front = [] ∨ front.getLast? = some '\n') (htail : '\n' ∉ tail)
    (hblank : ∀ c ∈ tail, Lines.isWhitespace c = true) :
    parseRevocationRecords J (front ++ tail) = parseRevocationRecords J front := by
  have htrim : Lines.trim tail = [] := by
    rw [Lines.trim, dropWhile_eq_nil_iff.mpr hblank]
    rfl
  unfold parseRevocationRecords
  rw [Lines.lines_append_unfinished hfront htail, zipIdx_append, filter_append]
  split
  · rw [zipIdx_nil, filter_nil, append_nil]
  · rw [zipIdx_singleton, filter_cons_of_neg (by simp [htrim]), filter_nil,
      append_nil]

theorem parse_of_append
    (h : parseRevocationRecords J (raw ++ recordLine J record) = .ok records) :
    ∃ old, parseRevocationRecords J raw = .ok old ∧ records = old ++ [record] := by
  obtain ⟨front, tail, rfl, hfront, htail⟩ := Lines.exists_unfinished raw
  obtain ⟨hblank, old, hold, rfl⟩ := (parse_append_torn J hfront htail).mp h
  rw [parse_append_blank hfront htail hblank]
  exact ⟨old, hold, rfl⟩

end Reading

def Disk.Revokes (J : JsonCodec) (disk : Disk) (id : Bytes16) : Prop :=
  ∃ records, parseRevocationRecords J (disk.getD []) = .ok records ∧ id ∈ idsOf records

theorem revokeTicketUri_ok {clock : Except String UInt64} {fault : Option AppendFault}
    {disk disk' : Disk} (h : revokeTicketUri J P env name clock fault disk = (.ok id, disk')) :
    ticketUriId P env name = .ok id ∧
      ∃ now, disk' = some (disk.getD [] ++ recordLine J (.new id "manual" now none)) := by
  unfold revokeTicketUri revokeId at h
  cases hid : ticketUriId P env name with
  | error e =>
    rw [hid] at h
    cases h
  | ok named =>
    rw [hid] at h
    cases clock with
    | error e => cases h
    | ok now =>
      simp only [appendManualRevocation, appendRecord] at h
      obtain ⟨hok, hdisk⟩ := Prod.mk.inj h
      cases happ : (appendRecordLimited J fault disk (.new named "manual" now none)
          defaultRevocationsMaxBytes).1 with
      | error e =>
        rw [happ] at hok
        cases hok
      | ok u =>
        rw [happ] at hok
        obtain rfl : named = id := Except.ok.inj hok
        rw [appendRecordLimited_ok happ] at hdisk
        exact ⟨rfl, now, hdisk.symm⟩

theorem mem_ids_of_sync {J : LineCodec} {s s' : Store} {fault : Option SyncFault} {n : ℕ}
    {record : RevocationRecord} {disk : Disk} (hid : record.ticketIdBytes = .ok id)
    (hdisk : s.disk = some (disk.getD [] ++ recordLine J record))
    (h : s.syncFromDisk J fault = (.ok n, s')) (other : Bytes16) :
    other ∈ s'.set.ids ↔ other = id ∨ disk.Revokes J other := by
  obtain ⟨records, hparse, -, hids, -⟩ := syncFromDisk_ok (congrArg Prod.fst h) hdisk
  obtain ⟨old, hold, rfl⟩ := parse_of_append hparse
  have hnew : other ∈ idsOf [record] ↔ other = id := by
    rw [mem_idsOf]
    constructor
    · rintro ⟨r, hr, hdec⟩
      rw [mem_singleton.mp hr] at hdec
      exact Except.ok.inj (hdec.symm.trans hid)
    · rintro rfl
      exact ⟨record, mem_singleton_self _, hid⟩
  have hfile : disk.Revokes J other ↔ other ∈ idsOf old := by
    constructor
    · rintro ⟨records, hrecords, hmem⟩
      rw [Except.ok.inj (hold.symm.trans hrecords)]
      exact hmem
    · exact fun hmem => ⟨old, hold, hmem⟩
  rw [h] at hids
  rw [hids, idsOf_append, Finset.mem_union, hnew, hfile, or_comm]

/-! ## The offer -/

def AcceptanceInput.Offers (P : Primitives) (input : AcceptanceInput) (t : PortlTicket) : Prop :=
  ∃ bytes ∈ input.offer.ticket :: input.offer.chain, P.ticketFromBytes bytes = some t

def AcceptanceInput.unrevoked (input : AcceptanceInput) : AcceptanceInput :=
  { input with revocations := { input.revocations with ids := ∅ } }

def AcceptanceInput.Sound (P : Primitives) (input : AcceptanceInput) : Prop :=
  ∃ terminal chain root, OfferConditions P input.unrevoked terminal chain root

theorem mem_of_offers {input : AcceptanceInput} {terminal root : PortlTicket}
    {chain : List PortlTicket} (h : OfferConditions P input terminal chain root)
    (t : PortlTicket) : t ∈ chain ++ [terminal] ↔ input.Offers P t := by
  constructor
  · intro hmem
    rcases mem_append.mp hmem with hmem | hmem
    · obtain ⟨bytes, hbytes, hdec⟩ := exists_of_forall₂ h.chain_decoded.flip hmem
      exact ⟨bytes, mem_cons_of_mem _ hbytes, (decodeOfferTicket_eq_ok.mp hdec).1⟩
    · rw [mem_singleton.mp hmem]
      exact ⟨_, mem_cons_self, (decodeOfferTicket_eq_ok.mp h.terminal_decoded).1⟩
  · rintro ⟨bytes, hbytes, hdec⟩
    exact mem_of_decoded h hbytes hdec

/-- **Rejected, exactly**: a ticket of the offer is revoked, or it fails another
check. -/
theorem evaluateOffer_rejected_iff (input : AcceptanceInput) :
    (∃ reason, evaluateOffer P input = .rejected reason) ↔
      (∃ t, input.Offers P t ∧ ticketId P t.sig ∈ input.revocations.ids) ∨ ¬ input.Sound P := by
  constructor
  · rintro ⟨reason, hrejected⟩
    by_contra hnone
    rw [not_or, not_not, not_exists] at hnone
    obtain ⟨hfree, terminal, chain, root, hsound⟩ := hnone
    have hcond : OfferConditions P input terminal chain root :=
      { hsound with
        unrevoked := fun t hmem hrev => hfree t ⟨(mem_of_offers hsound t).mp hmem, hrev⟩ }
    have haccepted := evaluateOffer_eq_accepted.mpr
      (acceptOffer_eq_ok.mpr ⟨terminal, chain, root, hcond, rfl⟩)
    cases hrejected.symm.trans haccepted
  · intro h
    refine evaluateOffer_rejected_of_not_accepted fun session hacc => ?_
    obtain ⟨terminal, chain, root, hcond, -⟩ :=
      acceptOffer_eq_ok.mp (evaluateOffer_eq_accepted.mp hacc)
    rcases h with ⟨t, hoffer, hrev⟩ | hunsound
    · exact hcond.unrevoked t ((mem_of_offers hcond t).mpr hoffer) hrev
    · exact hunsound ⟨terminal, chain, root,
        { hcond with unrevoked := fun _ _ => Finset.notMem_empty _ }⟩

/-- **Revoking by name.** A ticket was named in one of the three forms, the
revocation was acknowledged and the file read again. An offer with this ticket is
rejected exactly if the name was a URI or a full id, or the name padded with zeros
is the id of a ticket of the offer, or one of them was revoked on file before, or
the offer is not sound to begin with. -/
theorem revoke_by_name_rejects {J : LineCodec} {form : TicketForm} {name : String}
    {t : PortlTicket} {clock : Except String UInt64} {fault : Option AppendFault} {s s' : Store}
    {disk : Disk} {id : Bytes16} {syncFault : Option SyncFault} {n : ℕ} {input : AcceptanceInput}
    (hname : form.Names P env name t)
    (hrevoke : revokeTicketUri J P env name clock fault s.disk = (.ok id, disk))
    (hsync : Store.syncFromDisk J syncFault { s with disk := disk } = (.ok n, s'))
    (hset : input.revocations = s'.set) (hoffer : input.Offers P t) :
    (∃ reason, evaluateOffer P input = .rejected reason) ↔
      form ≠ .halfId ∨
        (∃ u, input.Offers P u ∧ ((ticketId P u.sig).toList = paddedId (ticketId P t.sig) ∨
          s.disk.Revokes J (ticketId P u.sig))) ∨
        ¬ input.Sound P := by
  obtain ⟨hid, now, rfl⟩ := revokeTicketUri_ok hrevoke
  obtain ⟨named, hnamed, hbytes⟩ := ticketUriId_of_names hname
  obtain rfl : named = id := Except.ok.inj (hnamed.symm.trans hid)
  have hids := mem_ids_of_sync (ticketIdBytes_new named "manual" now none) rfl hsync
  rw [evaluateOffer_rejected_iff, hset]
  by_cases hform : form = .halfId
  · -- the padded name is what was revoked
    rw [if_pos hform] at hbytes
    have hrevoked : ∀ other : Bytes16, other ∈ s'.set.ids ↔
        other.toList = paddedId (ticketId P t.sig) ∨ s.disk.Revokes J other := by
      intro other
      rw [hids, ← hbytes, Vector.toList_inj]
    simp only [hrevoked, hform, ne_eq, not_true_eq_false, false_or]
  · rw [if_neg hform, Vector.toList_inj] at hbytes
    have hrevoked : ticketId P t.sig ∈ s'.set.ids := (hids _).mpr (.inl hbytes.symm)
    exact iff_of_true (.inl ⟨t, hoffer, hrevoked⟩) (.inl hform)

/-! ### A full id and half of it -/

def longId : Bytes16 := ticketId longPrimitives longTicket.sig

/-- The answer of `revoke` for a name, on a machine without revocations. -/
def revokedAs (name : String) : Except String Bytes16 × Disk :=
  revokeTicketUri .sample longPrimitives bareCli name (.ok 150) none none

def syncedAs (name : String) : Except LoadError ℕ × Store :=
  Store.syncFromDisk .sample none { emptyStore with disk := (revokedAs name).2 }

theorem longInput_offers (revocations : RevocationSet) :
    (longInput 150 revocations).Offers longPrimitives longTicket :=
  ⟨[0], mem_cons_self, by decide +kernel⟩

theorem revoke_by_name_rejects_full :
    (revokedAs (Hex.encode longId.toList)).1 = .ok longId ∧
      (syncedAs (Hex.encode longId.toList)).1 = .ok 1 ∧
      ∃ reason, evaluateOffer longPrimitives
        (longInput 150 (syncedAs (Hex.encode longId.toList)).2.set) = .rejected reason := by
  have hname : TicketForm.ticketId.Names longPrimitives bareCli (Hex.encode longId.toList)
      longTicket := by
    show Hex.decodeChars (Lines.trim (Hex.encode longId.toList).toList) = some longId.toList
    decide +kernel
  have hrevoke : (revokedAs (Hex.encode longId.toList)).1 = .ok longId := by decide +kernel
  have hsync : (syncedAs (Hex.encode longId.toList)).1 = .ok 1 := by decide +kernel
  refine ⟨hrevoke, hsync, ?_⟩
  exact (revoke_by_name_rejects (J := .sample) (s := emptyStore) hname
    (Prod.ext hrevoke rfl) (Prod.ext hsync rfl) (longInput_revocations _ _)
    (longInput_offers _)).mpr (.inl (by decide))

/-- The half id is accepted as a name of the ticket, revoked and read by the
agent, and the ticket still opens a session. -/
theorem revoke_by_half_id_accepts :
    TicketForm.halfId.Names longPrimitives bareCli (Hex.encode (longId.toList.take 8)) longTicket ∧
      (revokedAs (Hex.encode (longId.toList.take 8))).1.isOk = true ∧
      (syncedAs (Hex.encode (longId.toList.take 8))).1 = .ok 1 ∧
      ∃ session, evaluateOffer longPrimitives
        (longInput 150 (syncedAs (Hex.encode (longId.toList.take 8))).2.set) =
          .accepted session := by
  refine ⟨?_, by decide +kernel, by decide +kernel,
    sessionFor longPrimitives (longInput 150 emptyRevocations) longTicket [] longTicket,
    by decide +kernel⟩
  show Hex.decodeChars (Lines.trim (Hex.encode (longId.toList.take 8)).toList) =
    some (longId.toList.take 8)
  decide +kernel

end Portl
