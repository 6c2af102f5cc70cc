import Portl.Agent.Revocations

/-!
# What a collection keeps

`gc` drops the records that have done their work: a week after the revocation,
once the ticket has expired or its expiry is not known. The rule is about exact
integers (`Retained`); the code adds the week to a `u64` that comes out of a JSON
file. A debug build panics when this sum overflows, a release build goes on with
the wrapped sum, which lies far in the past. Either way the record is one that
the rule keeps.
-/

namespace Portl

open Checks Word

namespace RevocationRecord

/-- **The retention rule**, in seconds and without overflow. -/
def Retained (record : RevocationRecord) (now : ℕ) : Prop :=
  record.revokedAt = none ∨
    (∃ revokedAt, record.revokedAt = some revokedAt ∧ now < revokedAt.toNat + 604800) ∨
    ∃ notAfter, record.notAfterOfTicket = some notAfter ∧ now < notAfter.toNat

/-- A week after the revocation is a time that `u64` can hold. -/
def LingerFits (record : RevocationRecord) : Prop :=
  ∀ revokedAt, record.revokedAt = some revokedAt → revokedAt.toNat + 604800 < 2 ^ 64

theorem retained_iff (record : RevocationRecord) (now : ℕ) :
    record.Retained now ↔
      (record.revokedAt.all fun revokedAt => now < revokedAt.toNat + 604800) = true ∨
        (record.notAfterOfTicket.any fun notAfter => now < notAfter.toNat) = true := by
  have hlinger : (record.revokedAt = none ∨
      ∃ revokedAt, record.revokedAt = some revokedAt ∧ now < revokedAt.toNat + 604800) ↔
      (record.revokedAt.all fun revokedAt => now < revokedAt.toNat + 604800) = true := by
    cases record.revokedAt with
    | none => exact ⟨fun _ => rfl, fun _ => .inl rfl⟩
    | some time =>
      rw [Option.all_some, decide_eq_true_eq]
      simp only [reduceCtorEq, false_or, Option.some.injEq, exists_eq_left']
  have hvalid : (∃ notAfter, record.notAfterOfTicket = some notAfter ∧ now < notAfter.toNat) ↔
      (record.notAfterOfTicket.any fun notAfter => now < notAfter.toNat) = true := by
    cases record.notAfterOfTicket <;> simp
  rw [Retained, ← or_assoc, hlinger, hvalid]

instance (record : RevocationRecord) (now : ℕ) : Decidable (record.Retained now) :=
  decidable_of_iff' _ (record.retained_iff now)

end RevocationRecord

/-! ## The collection as it is compiled -/

/-- `linger_ok` of `gc`. -/
def lingerOkIn (build : Overflow) (now : UInt64) : Option UInt64 → Option Bool
  | none => some true
  | some revokedAt =>
    (build.add revokedAt revocationLingerSecs).map fun ends => decide (now < ends)

/-- `ticket_still_valid` of `gc`. -/
def ticketStillValid (now : UInt64) : Option UInt64 → Bool
  | some notAfter => decide (now < notAfter)
  | none => false

/-- The test of `gc`. The sum comes first, whatever the expiry of the ticket. -/
def retainedIn (build : Overflow) (now : UInt64) (record : RevocationRecord) : Option Bool := do
  let lingerOk ← lingerOkIn build now record.revokedAt
  some (lingerOk || ticketStillValid now record.notAfterOfTicket)

/-- `gc` in either build; `none` is a panic. -/
def RevocationSet.gcIn (build : Overflow) (set : RevocationSet) (now : UInt64) :
    Option (ℕ × RevocationSet) := do
  let kept ← retain (retainedIn build now) set.records
  some (set.records.length - kept.length, { set with records := kept, ids := idsOf kept })

/-- What the rule makes of a set: the records it keeps, in their order, with
their ids, and the number of those it drops. -/
def RevocationSet.gcByRule (set : RevocationSet) (now : UInt64) : ℕ × RevocationSet :=
  let kept := set.records.filter fun record => record.Retained now.toNat
  (set.records.length - kept.length, { set with records := kept, ids := idsOf kept })

theorem gcIn_wraps (set : RevocationSet) (now : UInt64) :
    set.gcIn .wraps now = some (set.gc now) := by
  have hretain : retain (retainedIn .wraps now) set.records =
      some (set.records.filter (retained now)) := by
    apply retain_eq_some
    intro record _
    obtain ⟨ticketId, reason, revokedAt, notAfterOfTicket⟩ := record
    cases revokedAt <;> cases notAfterOfTicket <;>
      simp [retainedIn, lingerOkIn, ticketStillValid, retained, Overflow.add]
  rw [RevocationSet.gcIn, hretain]
  rfl

theorem revocationLingerSecs_toNat : revocationLingerSecs.toNat = 604800 := by decide

theorem lingerOkIn_of_fits (build : Overflow) (now : UInt64) {revokedAt : Option UInt64}
    (h : ∀ time, revokedAt = some time → time.toNat + 604800 < 2 ^ 64) :
    lingerOkIn build now revokedAt =
      some (revokedAt.all fun time => now.toNat < time.toNat + 604800) := by
  cases revokedAt with
  | none => rfl
  | some time =>
    have hfits : time.toNat + 604800 < 2 ^ 64 := h time rfl
    have hsum : (time + revocationLingerSecs).toNat = time.toNat + 604800 := by
      rw [UInt64.toNat_add, revocationLingerSecs_toNat]
      exact Nat.mod_eq_of_lt hfits
    have hadd : build.add time revocationLingerSecs = some (time + revocationLingerSecs) := by
      apply build.add_of_lt
      rw [revocationLingerSecs_toNat]
      exact hfits
    have hdecide : decide (now < time + revocationLingerSecs) =
        decide (now.toNat < time.toNat + 604800) := by
      rw [decide_eq_decide, UInt64.lt_iff_toNat_lt, hsum]
    rw [lingerOkIn, hadd, Option.map_some, Option.all_some, hdecide]

theorem ticketStillValid_eq (now : UInt64) (notAfter : Option UInt64) :
    ticketStillValid now notAfter = notAfter.any fun time => now.toNat < time.toNat := by
  cases notAfter with
  | none => rfl
  | some time => simp [ticketStillValid, UInt64.lt_iff_toNat_lt]

variable {record : RevocationRecord}

theorem retainedIn_of_fits (build : Overflow) (now : UInt64) (h : record.LingerFits) :
    retainedIn build now record = some (decide (record.Retained now.toNat)) := by
  have hrule : decide (record.Retained now.toNat) =
      (record.revokedAt.all (fun time => now.toNat < time.toNat + 604800) ||
        record.notAfterOfTicket.any fun time => now.toNat < time.toNat) := by
    rw [Bool.eq_iff_iff, decide_eq_true_eq, Bool.or_eq_true]
    exact record.retained_iff now.toNat
  rw [retainedIn, lingerOkIn_of_fits build now h, ticketStillValid_eq, hrule]
  rfl

theorem retainedIn_of_not_fits (now : UInt64) (h : ¬ record.LingerFits) :
    retainedIn .panics now record = none := by
  obtain ⟨ticketId, reason, revokedAt, notAfterOfTicket⟩ := record
  cases revokedAt with
  | none => exact absurd (fun revokedAt h => (by cases h)) h
  | some revokedAt =>
    have hover : ¬ revokedAt.toNat + revocationLingerSecs.toNat < UInt64.size := by
      rw [revocationLingerSecs_toNat]
      intro hlt
      apply h
      rintro _ ⟨⟩
      exact hlt
    simp only [retainedIn, lingerOkIn, Overflow.panics_add_eq_none hover]
    rfl

/-- **A collection honours the retention rule**, in a debug build and in a release
build, exactly if a week can be added to each revocation time: it returns, keeps
the records of the rule and no other, and leaves them in their order. -/
theorem gc_honours_retention (set : RevocationSet) (now : UInt64) :
    (∀ build, set.gcIn build now = some (set.gcByRule now)) ↔
      ∀ record ∈ set.records, record.LingerFits := by
  constructor
  · intro h record hmem
    by_contra hfits
    have hpanic : set.gcIn .panics now = none := by
      rw [RevocationSet.gcIn, retain_eq_none hmem (retainedIn_of_not_fits now hfits)]
      rfl
    cases hpanic.symm.trans (h .panics)
  · intro h build
    have hretain : retain (retainedIn build now) set.records =
        some (set.records.filter fun record => record.Retained now.toNat) :=
      retain_eq_some fun record hmem => retainedIn_of_fits build now (h record hmem)
    rw [RevocationSet.gcIn, hretain]
    rfl

def farRecord (revokedAt : UInt64) : RevocationRecord :=
  ⟨"00112233445566778899aabbccddeeff", "manual", some revokedAt, none⟩

def farSet (revokedAt : UInt64) : RevocationSet := ⟨∅, [farRecord revokedAt], ∅, 0⟩

/-- The last moment whose week still fits. -/
theorem gc_honours_retention_last :
    (farSet 18446744073708946815).gcIn .panics 18446744073708946815 =
      some ((farSet 18446744073708946815).gcByRule 18446744073708946815) := by
  have hfits : ∀ record ∈ (farSet 18446744073708946815).records, record.LingerFits := by
    intro record hmem
    rw [farSet, List.mem_singleton] at hmem
    subst hmem
    rintro _ ⟨⟩
    decide
  exact (gc_honours_retention _ 18446744073708946815).mpr hfits .panics

/-- One second later the release build forgets a revocation of this very moment,
and the debug build panics. -/
theorem gc_forgets_far_record :
    (farRecord 18446744073708946816).Retained 18446744073708946816 ∧
      ((farSet 18446744073708946816).gcIn .wraps 18446744073708946816).map
        (fun r => (r.1, r.2.records)) = some (1, []) ∧
      ((farSet 18446744073708946816).gcIn .panics 18446744073708946816).isNone := by
  decide

end Portl
