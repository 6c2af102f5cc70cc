import Mathlib.Algebra.Order.Ring.Int
import Mathlib.Data.List.Chain

/-!
# Repeated anomalies

`AnomalyRateLimiter` of `transport_telemetry.rs`: the first report of an anomaly is
emitted, later ones when an interval has passed since the last emission, and those in
between are counted, until the anomaly is resolved.
-/

namespace Portl

open List

inductive RateLimitDecision where
  | emitFirst (suppressedCount : ℕ)
  | emitRepeat (suppressedCount : ℕ)
  | emitResolved (suppressedCount : ℕ)
  | suppress
deriving DecidableEq

def RateLimitDecision.suppressedCount : RateLimitDecision → ℕ
  | .emitFirst n | .emitRepeat n | .emitResolved n => n
  | .suppress => 0

structure ActiveAnomaly where
  lastEmitted : ℕ
  suppressedCount : ℕ

/-- `record_active`, from the entry of the key to its new entry. `saturating_add` is on a
`u64`. -/
def recordActive (repeatInterval : ℕ) (entry : Option ActiveAnomaly) (now : ℕ) :
    RateLimitDecision × Option ActiveAnomaly :=
  match entry with
  | none => (.emitFirst 0, some ⟨now, 0⟩)
  | some active =>
    if now - active.lastEmitted ≥ repeatInterval then
      (.emitRepeat active.suppressedCount, some ⟨now, 0⟩)
    else
      (.suppress, some ⟨active.lastEmitted, min (active.suppressedCount + 1) (2 ^ 64 - 1)⟩)

/-- `record_resolved`. -/
def recordResolved (entry : Option ActiveAnomaly) : RateLimitDecision × Option ActiveAnomaly :=
  match entry with
  | some active => (.emitResolved active.suppressedCount, none)
  | none => (.suppress, none)

/-- A report of the anomaly `key` at a time, or its resolution. -/
structure AnomalyCall where
  key : String
  now : Option ℕ

def AnomalyCall.Before (a b : AnomalyCall) : Prop := ∀ t ∈ a.now, ∀ t' ∈ b.now, t ≤ t'

def AnomalyCall.answer (repeatInterval : ℕ) (entry : Option ActiveAnomaly) :
    Option ℕ → RateLimitDecision × Option ActiveAnomaly
  | some now => recordActive repeatInterval entry now
  | none => recordResolved entry

/-- The limiter's map, and what the calls for each key were answered, the last one first. -/
structure AnomalyRateLimiter where
  active : String → Option ActiveAnomaly
  answers : String → List (Option ℕ × RateLimitDecision)

namespace AnomalyRateLimiter

def new : AnomalyRateLimiter := ⟨fun _ => none, fun _ => []⟩

def record (repeatInterval : ℕ) (s : AnomalyRateLimiter) (call : AnomalyCall) :
    AnomalyRateLimiter :=
  let result := AnomalyCall.answer repeatInterval (s.active call.key) call.now
  { active := Function.update s.active call.key result.2
    answers := Function.update s.answers call.key ((call.now, result.1) :: s.answers call.key) }

def run (repeatInterval : ℕ) (calls : List AnomalyCall) : AnomalyRateLimiter :=
  calls.foldl (record repeatInterval) new

/-! ## The accounts of a key -/

/-- The times of the reports that were emitted, and `none` for a resolution. -/
def emissions (answers : List (Option ℕ × RateLimitDecision)) : List (Option ℕ) :=
  answers.filterMap fun answer => if answer.2 = .suppress then none else some answer.1

def reportedCount (answers : List (Option ℕ × RateLimitDecision)) : ℕ :=
  (answers.map (·.2.suppressedCount)).sum

def pendingCount (entry : Option ActiveAnomaly) : ℕ :=
  (entry.map ActiveAnomaly.suppressedCount).getD 0

/-- Emissions in a row, with no resolution between. -/
def Apart (interval : ℕ) (later earlier : Option ℕ) : Prop :=
  ∀ t ∈ earlier, ∀ t' ∈ later, t + interval ≤ t'

/-- After `n` reports. -/
structure Sound (interval n : ℕ) (entry : Option ActiveAnomaly)
    (answers : List (Option ℕ × RateLimitDecision)) : Prop where
  account : n = (emissions answers).countP (·.isSome) + reportedCount answers + pendingCount entry
  apart : (emissions answers).IsChain (Apart interval)
  last : (emissions answers).head?.join = entry.map ActiveAnomaly.lastEmitted

variable {interval n : ℕ} {s : AnomalyRateLimiter} {key : String} {now : Option ℕ}
  {entry : Option ActiveAnomaly} {answers : List (Option ℕ × RateLimitDecision)}
  {result : RateLimitDecision × Option ActiveAnomaly}

theorem Sound.answer (h : Sound interval n entry answers)
    (hresult : AnomalyCall.answer interval entry now = result)
    (hclock : ∀ anomaly ∈ entry, ∀ t ∈ now, anomaly.lastEmitted ≤ t) (hcount : n + 1 < 2 ^ 64) :
    Sound interval (n + if now.isSome then 1 else 0) result.2 ((now, result.1) :: answers) := by
  obtain ⟨haccount, hapart, hlast⟩ := h
  have hemissions : emissions ((now, result.1) :: answers) =
      if result.1 = .suppress then emissions answers else now :: emissions answers := by
    rw [emissions, filterMap_cons]
    split_ifs <;> rfl
  have hreported : reportedCount ((now, result.1) :: answers) =
      result.1.suppressedCount + reportedCount answers := sum_cons
  unfold AnomalyCall.answer recordActive recordResolved at hresult
  refine ⟨?_, ?_, ?_⟩
  · grind [pendingCount, RateLimitDecision.suppressedCount]
  · rw [hemissions]
    split_ifs with hsuppress
    · exact hapart
    · refine isChain_cons.mpr ⟨fun last hhead t ht t' ht' => ?_, hapart⟩
      rw [Option.mem_def.mp hhead, Option.mem_def.mp ht] at hlast
      obtain ⟨anomaly, hanomaly, rfl⟩ := Option.map_eq_some_iff.mp hlast.symm
      have hle := hclock anomaly hanomaly t' ht'
      rw [Option.mem_def.mp ht', hanomaly] at hresult
      grind
  · grind

theorem lastEmitted_answer (hresult : AnomalyCall.answer interval entry now = result)
    {anomaly : ActiveAnomaly} (h : anomaly ∈ result.2) :
    anomaly.lastEmitted ∈ now ∨ ∃ before ∈ entry, before.lastEmitted = anomaly.lastEmitted := by
  unfold AnomalyCall.answer recordActive recordResolved at hresult
  grind

theorem Sound.run {calls : List AnomalyCall} (h : Sound interval n (s.active key) (s.answers key))
    (hclock : ∀ anomaly ∈ s.active key, ∀ call ∈ calls, ∀ t ∈ call.now, anomaly.lastEmitted ≤ t)
    (hcount : n + calls.length < 2 ^ 64) (htimes : calls.Pairwise AnomalyCall.Before) :
    Sound interval (n + calls.countP fun call => call.key = key ∧ call.now.isSome)
      ((calls.foldl (record interval) s).active key)
      ((calls.foldl (record interval) s).answers key) := by
  induction calls generalizing s n with
  | nil => exact h
  | cons call calls ih =>
    rw [length_cons] at hcount
    obtain ⟨hnow, hrest⟩ := pairwise_cons.mp htimes
    rw [foldl_cons, countP_cons, Nat.add_comm (countP _ _), ← Nat.add_assoc]
    by_cases hkey : call.key = key
    · subst hkey
      have hactive : (s.record interval call).active call.key = _ := Function.update_self _ _ _
      have hanswers : (s.record interval call).answers call.key = _ := Function.update_self _ _ _
      simp only [true_and, decide_eq_true_eq]
      refine ih ?_ ?_ (by split <;> omega) hrest
      · rw [hactive, hanswers]
        exact h.answer rfl (fun anomaly hold => hclock anomaly hold call mem_cons_self) (by omega)
      · rw [hactive]
        intro anomaly hanomaly later hlater t ht
        rcases lastEmitted_answer rfl hanomaly with hemitted | ⟨before, hbefore, heq⟩
        · exact hnow later hlater _ hemitted t ht
        · exact heq ▸ hclock before hbefore later (mem_cons_of_mem _ hlater) t ht
    · have hactive : (s.record interval call).active key = s.active key :=
        Function.update_of_ne (Ne.symm hkey) _ _
      have hanswers : (s.record interval call).answers key = s.answers key :=
        Function.update_of_ne (Ne.symm hkey) _ _
      simp only [hkey, false_and, decide_false, Bool.false_eq_true, if_false, Nat.add_zero]
      refine ih ?_ ?_ (by omega) hrest
      · rwa [hactive, hanswers]
      · rw [hactive]
        exact fun anomaly hold later hlater =>
          hclock anomaly hold later (mem_cons_of_mem _ hlater)

/-- **Every report is accounted for**, and those emitted in one episode are an interval
apart. -/
theorem anomalies_accounted (repeatInterval : ℕ) (calls : List AnomalyCall) (key : String)
    (hlength : calls.length < 2 ^ 64) (htimes : calls.Pairwise AnomalyCall.Before) :
    (emissions ((run repeatInterval calls).answers key)).IsChain (Apart repeatInterval) ∧
      calls.countP (fun call => call.key = key ∧ call.now.isSome) =
        (emissions ((run repeatInterval calls).answers key)).countP (·.isSome) +
          reportedCount ((run repeatInterval calls).answers key) +
          pendingCount ((run repeatInterval calls).active key) := by
  have hnew : Sound repeatInterval 0 (new.active key) (new.answers key) := ⟨rfl, .nil, rfl⟩
  obtain ⟨haccount, hapart, -⟩ := hnew.run (fun _ h => by cases h) (by omega) htimes
  exact ⟨hapart, (Nat.zero_add _).symm.trans haccount⟩

/-- Two reports are suppressed, and told of with the third. -/
theorem anomalies_accounted_relay :
    let calls : List AnomalyCall :=
      [⟨"relay", some 0⟩, ⟨"relay", some 4⟩, ⟨"path", some 5⟩, ⟨"relay", some 9⟩,
        ⟨"relay", some 10⟩, ⟨"relay", none⟩]
    (run 10 calls).answers "relay" = [(none, .emitResolved 0), (some 10, .emitRepeat 2),
        (some 9, .suppress), (some 4, .suppress), (some 0, .emitFirst 0)] ∧
      (emissions ((run 10 calls).answers "relay")).IsChain (Apart 10) := by
  intro calls
  have htimes : calls.Pairwise AnomalyCall.Before := by
    simp [calls, AnomalyCall.Before]
  exact ⟨by decide, (anomalies_accounted 10 calls "relay" (by decide) htimes).1⟩

end AnomalyRateLimiter

end Portl
