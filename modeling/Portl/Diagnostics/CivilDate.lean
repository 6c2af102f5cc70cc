import Mathlib.Algebra.Order.Ring.Nat
import Mathlib.Tactic.IntervalCases

/-!
# The date in a bundle's name

`unix_to_ymdhms` of `diagnostics.rs` finds the date by four divisions, in years that
begin in March. The calendar it is compared with knows only how long a month is, and
counts.
-/

namespace Portl

structure CivilTime where
  year : ℕ
  month : ℕ
  day : ℕ
  hour : ℕ
  minute : ℕ
  second : ℕ

/-- The year of the era, from its March, that has the day `doe` of the era. -/
def yearOfEra (doe : ℕ) : ℕ := (doe - doe / 1460 + doe / 36524 - doe / 146096) / 365

/-- The year, month and day of the day `doy` from the first of March of the year `y`. -/
def dateOfYear (y doy : ℕ) : ℕ × ℕ × ℕ :=
  let mp := (5 * doy + 2) / 153
  let day := doy - (153 * mp + 2) / 5 + 1
  let month := if mp < 10 then mp + 3 else mp - 9
  (if month ≤ 2 then y + 1 else y, month, day)

/-- The number of days fits an `i64`; the year is cut to 32 bits. -/
def unixToYmdhms (secs : UInt64) : CivilTime :=
  let rem := secs.toNat % 86400
  let z := secs.toNat / 86400 + 719468
  let era := z / 146097
  let doe := z - era * 146097
  let yoe := yearOfEra doe
  let date := dateOfYear (yoe + era * 400) (doe - (365 * yoe + yoe / 4 - yoe / 100))
  { year := date.1 % 2 ^ 32
    month := date.2.1
    day := date.2.2
    hour := rem / 3600
    minute := rem % 3600 / 60
    second := rem % 60 }

/-! ## The calendar -/

def leapDay (year : ℕ) : ℕ := if 4 ∣ year ∧ (100 ∣ year → 400 ∣ year) then 1 else 0

def monthLength (year month : ℕ) : ℕ :=
  if month = 2 then 28 + leapDay year
  else if month ∈ [4, 6, 9, 11] then 30 else 31

/-- The days of the first `months` months of a year. -/
def daysOfMonths (year : ℕ) : ℕ → ℕ
  | 0 => 0
  | months + 1 => daysOfMonths year months + monthLength year (months + 1)

/-- The days of the years before a year, from the year 0. -/
def daysOfYears : ℕ → ℕ
  | 0 => 0
  | years + 1 => daysOfYears years + daysOfMonths years 12

structure CivilTime.Valid (t : CivilTime) : Prop where
  month_pos : 1 ≤ t.month
  month_le : t.month ≤ 12
  day_pos : 1 ≤ t.day
  day_le : t.day ≤ monthLength t.year t.month
  hour_lt : t.hour < 24
  minute_lt : t.minute < 60
  second_lt : t.second < 60

def CivilTime.days (t : CivilTime) : ℕ :=
  daysOfYears t.year + daysOfMonths t.year (t.month - 1) + (t.day - 1)

/-- The seconds since the beginning of the year 0. -/
def CivilTime.seconds (t : CivilTime) : ℕ :=
  t.days * 86400 + t.hour * 3600 + t.minute * 60 + t.second

/-! ## A date is unique -/

section Spans

variable {start len : ℕ → ℕ} (hstart : ∀ n, start (n + 1) = start n + len n)
include hstart

/-- Spans of the lengths `len` follow one another; a day is in one place of one of them. -/
theorem span_unique {a b r s : ℕ} (heq : start a + r = start b + s) (hr : r < len a)
    (hs : s < len b) : a = b ∧ r = s := by
  have hle : ∀ {a b}, a < b → start a + len a ≤ start b := by
    intro a b hab
    induction b, hab using Nat.le_induction with
    | base => exact (hstart a).ge
    | succ b hab ih =>
      rw [hstart]
      exact Nat.le_add_right_of_le ih
  rcases lt_trichotomy a b with hab | rfl | hba
  · have := hle hab
    omega
  · exact ⟨rfl, Nat.add_left_cancel heq⟩
  · have := hle hba
    omega

theorem span_exists (hzero : start 0 = 0) (hpos : ∀ n, 0 < len n) (day : ℕ) :
    ∃ n r, start n + r = day ∧ r < len n := by
  induction day with
  | zero => exact ⟨0, 0, hzero, hpos 0⟩
  | succ day ih =>
    obtain ⟨n, r, rfl, hr⟩ := ih
    rcases Nat.lt_or_ge (r + 1) (len n) with hlt | hge
    · exact ⟨n, r + 1, rfl, hlt⟩
    · exact ⟨n + 1, 0, by rw [hstart]; omega, hpos _⟩

end Spans

theorem daysOfMonths_mono (year : ℕ) : Monotone (daysOfMonths year) :=
  monotone_nat_of_le_succ fun _ => Nat.le_add_right _ _

theorem CivilTime.Valid.eq_of_seconds {t t' : CivilTime} (h : t.Valid) (h' : t'.Valid)
    (heq : t.seconds = t'.seconds) : t = t' := by
  obtain ⟨year, month, day, hour, minute, second⟩ := t
  obtain ⟨year', month', day', hour', minute', second'⟩ := t'
  obtain ⟨month, rfl⟩ : ∃ n, month = n + 1 := Nat.exists_eq_add_of_le' h.month_pos
  obtain ⟨month', rfl⟩ : ∃ n, month' = n + 1 := Nat.exists_eq_add_of_le' h'.month_pos
  -- the day is one of the year
  have hyear := daysOfMonths_mono year h.month_le
  have hyear' := daysOfMonths_mono year' h'.month_le
  rw [daysOfMonths] at hyear hyear'
  cases h
  cases h'
  simp only [seconds, days, Nat.add_sub_cancel] at *
  have hdays : daysOfYears year + (daysOfMonths year month + (day - 1)) =
      daysOfYears year' + (daysOfMonths year' month' + (day' - 1)) := by omega
  obtain ⟨rfl, hrest⟩ := span_unique (fun _ => rfl) hdays (by omega) (by omega)
  obtain ⟨rfl, hrest⟩ := span_unique (fun _ => rfl) hrest (by omega) (by omega)
  simp only [mk.injEq, true_and]
  omega

/-! ## Years that begin in March -/

/-- The days before the first of March of a year, from that of the year 0. -/
def yearStart (y : ℕ) : ℕ := 365 * y + y / 4 - y / 100 + y / 400

theorem yearStart_succ (y : ℕ) : yearStart (y + 1) = yearStart y + (365 + leapDay (y + 1)) := by
  have h100 : 100 ∣ y + 1 → 4 ∣ y + 1 := (by decide : 4 ∣ 100).trans
  have h400 : 400 ∣ y + 1 → 100 ∣ y + 1 := (by decide : 100 ∣ 400).trans
  have hle : y / 100 ≤ y / 4 := Nat.div_le_div_left (by decide) (by decide)
  simp only [yearStart, leapDay, Nat.succ_div]
  generalize y / 4 = a at *
  generalize y / 100 = b at *
  grind

theorem yearStart_add (era y : ℕ) : yearStart (y + era * 400) = era * 146097 + yearStart y := by
  unfold yearStart
  omega

theorem daysOfMonths_two (year : ℕ) : daysOfMonths year 2 = 59 + leapDay year := by
  show 0 + 31 + (28 + leapDay year) = _
  omega

theorem daysOfMonths_twelve (year : ℕ) : daysOfMonths year 12 = 365 + leapDay year := by
  show 0 + 31 + (28 + leapDay year) + 31 + 30 + 31 + 30 + 31 + 31 + 30 + 31 + 30 + 31 = _
  omega

/-- The first of March is the day 60 of the year 0. -/
theorem daysOfYears_march (y : ℕ) : daysOfYears y + daysOfMonths y 2 = 60 + yearStart y := by
  induction y with
  | zero => rfl
  | succ y ih =>
    rw [daysOfMonths_two] at ih ⊢
    rw [daysOfYears, daysOfMonths_twelve, yearStart_succ]
    omega

theorem yearOfEra_mono : Monotone yearOfEra :=
  monotone_nat_of_le_succ fun n => Nat.div_le_div_right (by omega)

/-- The formula is right on the first and on the last day of each year of an era, and so
on the days between. -/
theorem yearOfEra_eq {y doe : ℕ} (hy : y < 400) (hfirst : yearStart y ≤ doe)
    (hlast : doe < yearStart (y + 1)) : yearOfEra doe = y := by
  have hends : ∀ y < 400, yearOfEra (yearStart y) = y ∧ yearOfEra (yearStart (y + 1) - 1) = y := by
    decide +kernel
  obtain ⟨hbegin, hend⟩ := hends y hy
  have hle := yearOfEra_mono (Nat.le_sub_one_of_lt hlast)
  have hge := yearOfEra_mono hfirst
  omega

theorem dateOfYear_spec {y doy year month day : ℕ} (hdoy : doy < 365 + leapDay (y + 1))
    (h : dateOfYear y doy = (year, month, day)) :
    1 ≤ month ∧ month ≤ 12 ∧ 1 ≤ day ∧ day ≤ monthLength year month ∧
      daysOfYears year + daysOfMonths year (month - 1) + (day - 1) = 60 + yearStart y + doy := by
  have hleap : leapDay (y + 1) ≤ 1 := by
    unfold leapDay
    split_ifs <;> decide
  have hmarch := daysOfYears_march y
  have hnext : daysOfYears (y + 1) = daysOfYears y + (365 + leapDay y) := by
    rw [daysOfYears, daysOfMonths_twelve]
  rw [daysOfMonths_two] at hmarch
  unfold dateOfYear at h
  generalize hmp : (5 * doy + 2) / 153 = mp at h
  have hle : mp ≤ 11 := by omega
  -- one case for each month
  interval_cases mp <;> cases h <;> simp [daysOfMonths, monthLength] <;> omega

theorem daysOfYears_1970 : daysOfYears 1970 = 719528 := by decide +kernel

/-- **The date is exact**: it is the one date of the calendar that is as many seconds
after the beginning of 1970 as were given, if the year of that date fits 32 bits. -/
theorem unixToYmdhms_exact (secs : UInt64) :
    ∃ t : CivilTime, t.Valid ∧ t.seconds = daysOfYears 1970 * 86400 + secs.toNat ∧
      (∀ t' : CivilTime, t'.Valid → t'.seconds = daysOfYears 1970 * 86400 + secs.toNat → t' = t) ∧
      unixToYmdhms secs = { t with year := t.year % 2 ^ 32 } := by
  obtain ⟨z, hz⟩ : ∃ z, z = secs.toNat / 86400 + 719468 := ⟨_, rfl⟩
  obtain ⟨y, doy, hday, hdoy⟩ := span_exists yearStart_succ rfl (fun _ => by omega) z
  obtain ⟨era, yoe, hyoe, rfl⟩ : ∃ era yoe, yoe < 400 ∧ y = yoe + era * 400 :=
    ⟨y / 400, y % 400, by omega, by omega⟩
  have hstart := yearStart_add era yoe
  have hend := yearStart_add era (yoe + 1)
  rw [Nat.add_right_comm, yearStart_succ] at hend
  have hyear : 365 * yoe + yoe / 4 - yoe / 100 = yearStart yoe ∧
      yearStart (yoe + 1) ≤ 146097 := by
    unfold yearStart
    omega
  have hera : z / 146097 = era := by omega
  have hdoe : z - era * 146097 = yearStart yoe + doy := by omega
  have hyoe := yearOfEra_eq hyoe (Nat.le_add_right _ doy) (by omega)
  obtain ⟨⟨year, month, day⟩, hdate⟩ : ∃ date, dateOfYear (yoe + era * 400) doy = date := ⟨_, rfl⟩
  obtain ⟨hmonth, hmonth12, hday, hdayle, hdays⟩ := dateOfYear_spec hdoy hdate
  let t : CivilTime := ⟨year, month, day, secs.toNat % 86400 / 3600,
    secs.toNat % 86400 % 3600 / 60, secs.toNat % 86400 % 60⟩
  have hvalid : t.Valid := by
    constructor <;> dsimp only [t] <;> omega
  have hseconds : t.seconds = daysOfYears 1970 * 86400 + secs.toNat := by
    rw [daysOfYears_1970]
    dsimp only [t, CivilTime.seconds, CivilTime.days]
    omega
  refine ⟨t, hvalid, hseconds, fun t' ht' heq => ht'.eq_of_seconds hvalid (heq.trans hseconds.symm),
    ?_⟩
  simp only [unixToYmdhms, ← hz, hera, hdoe, hyoe, hyear.1, Nat.add_sub_cancel_left, hdate, t]

end Portl
