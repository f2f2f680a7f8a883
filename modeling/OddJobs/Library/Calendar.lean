import Mathlib.Tactic.IntervalCases

/-!
# The calendar

Dates of the Gregorian calendar, extended backwards to the year 0, and the number of a day: the
days that lie before it.
-/

namespace OddJobs.Library.Calendar

/-! ## Years and months -/

def Leap (year : Nat) : Prop :=
  year % 4 = 0 ∧ (year % 100 ≠ 0 ∨ year % 400 = 0)

instance : DecidablePred Leap := fun year =>
  inferInstanceAs (Decidable (year % 4 = 0 ∧ (year % 100 ≠ 0 ∨ year % 400 = 0)))

def leapDay (year : Nat) : Nat := if Leap year then 1 else 0

def yearLength (year : Nat) : Nat := 365 + leapDay year

def monthLength (year : Nat) : Nat → Nat
  | 2 => 28 + leapDay year
  | 4 | 6 | 9 | 11 => 30
  | _ => 31

def yearStart : Nat → Nat
  | 0 => 0
  | year + 1 => yearStart year + yearLength year

def monthStart (year : Nat) : Nat → Nat
  | 0 | 1 => 0
  | month + 2 => monthStart year (month + 1) + monthLength year (month + 1)

theorem leapDay_le (year : Nat) : leapDay year ≤ 1 := by
  unfold leapDay
  split <;> decide

theorem monthLength_pos (year month : Nat) : 1 ≤ monthLength year month := by
  unfold monthLength
  split
  · exact Nat.le_add_right_of_le (by decide)
  all_goals decide

theorem monthLength_le (year month : Nat) : monthLength year month ≤ 31 := by
  have leap := leapDay_le year
  unfold monthLength
  split <;> omega

theorem monthStart_succ (year : Nat) {month : Nat} (positive : 1 ≤ month) :
    monthStart year (month + 1) = monthStart year month + monthLength year month := by
  obtain ⟨before, rfl⟩ := Nat.exists_eq_add_of_le' positive
  rfl

theorem monthStart_thirteen (year : Nat) : monthStart year 13 = yearLength year := by
  simp only [monthStart, monthLength, yearLength]
  omega

/-! ## Dates -/

structure Date where
  year : Nat
  month : Nat
  day : Nat
  month_pos : 1 ≤ month
  month_le : month ≤ 12
  day_pos : 1 ≤ day
  day_le : day ≤ monthLength year month

namespace Date

def number (date : Date) : Nat :=
  yearStart date.year + monthStart date.year date.month + (date.day - 1)

def first (year month : Nat) (month_pos : 1 ≤ month) (month_le : month ≤ 12) : Date :=
  ⟨year, month, 1, month_pos, month_le, Nat.le_refl 1, monthLength_pos year month⟩

def next (date : Date) : Date :=
  if inside : date.day < monthLength date.year date.month then
    { date with day := date.day + 1, day_pos := Nat.le_add_left 1 date.day, day_le := inside }
  else if earlier : date.month < 12 then
    first date.year (date.month + 1) (Nat.le_add_left 1 date.month) earlier
  else
    first (date.year + 1) 1 (Nat.le_refl 1) (by decide)

theorem number_next (date : Date) : date.next.number = date.number + 1 := by
  have positive := date.day_pos
  have fits := date.day_le
  unfold next
  split
  · simp only [number]
    omega
  · split
    · have month := monthStart_succ date.year date.month_pos
      simp only [number, first]
      omega
    · have last : date.month = 12 := by
        have := date.month_le
        omega
      have year : monthStart date.year date.month + monthLength date.year date.month =
          yearLength date.year := by
        rw [← monthStart_succ date.year date.month_pos, last]
        exact monthStart_thirteen date.year
      change yearStart date.year + yearLength date.year =
        yearStart date.year + monthStart date.year date.month + (date.day - 1) + 1
      omega

/-- The days have their numbers one after the other. -/
theorem exists_number (n : Nat) : ∃ date : Date, date.number = n := by
  induction n with
  | zero => exact ⟨first 0 1 (Nat.le_refl 1) (by decide), rfl⟩
  | succ n ih =>
      obtain ⟨date, found⟩ := ih
      exact ⟨date.next, by rw [number_next, found]⟩

end Date

/-! ## Years that begin in March

The day that a leap year adds is the last one of a year that begins in March. -/

theorem leapDay_succ (year : Nat) :
    leapDay (year + 1) + year / 4 + (year + 1) / 100 + year / 400 =
      (year + 1) / 4 + year / 100 + (year + 1) / 400 := by
  unfold leapDay
  by_cases leap : Leap (year + 1)
  · rw [if_pos leap]
    unfold Leap at leap
    omega
  · rw [if_neg leap]
    unfold Leap at leap
    omega

/-- The calendar repeats after 400 years. -/
theorem leapDay_era (year era : Nat) : leapDay (year + 400 * era) = leapDay year := by
  have same : Leap (year + 400 * era) ↔ Leap year := by
    unfold Leap
    omega
  exact if_congr same rfl rfl

/-- The days before the first of March. -/
theorem march (year : Nat) :
    yearStart year + monthStart year 3 + year / 100 = 365 * year + year / 4 + year / 400 + 60 := by
  induction year with
  | zero => rfl
  | succ year ih =>
      have leap := leapDay_succ year
      simp only [yearStart, yearLength, monthStart, monthLength] at *
      omega

/-- The days between the first of March and the first of a later month of the year. -/
theorem monthStart_late (year : Nat) {month : Nat} (late : 2 < month) (le : month ≤ 12) :
    monthStart year month = monthStart year 3 + (153 * (month - 3) + 2) / 5 := by
  interval_cases month <;> simp [monthStart, monthLength]

/-- The days between the first of March and the first of January or February. -/
theorem monthStart_early (year : Nat) {month : Nat} (positive : 1 ≤ month) (early : month ≤ 2) :
    yearStart (year + 1) + monthStart (year + 1) month =
      yearStart year + monthStart year 3 + (153 * (month + 9) + 2) / 5 := by
  have rest : monthStart year 13 = monthStart year 3 + 306 := by
    simp only [monthStart, monthLength]
  have all := monthStart_thirteen year
  interval_cases month
  all_goals
    simp only [yearStart, monthStart, monthLength] at *
    omega

namespace Date

def marchYear (date : Date) : Nat := if date.month ≤ 2 then date.year - 1 else date.year

def marchMonth (date : Date) : Nat := if 2 < date.month then date.month - 3 else date.month + 9

def marchDay (date : Date) : Nat := (153 * date.marchMonth + 2) / 5 + (date.day - 1)

theorem number_lt (date : Date) : date.number < yearStart (date.year + 1) := by
  obtain ⟨year, month, day, month_pos, month_le, day_pos, day_le⟩ := date
  simp only [number, yearStart, yearLength]
  interval_cases month <;> simp only [monthLength, monthStart] at * <;> omega

/-- The days behind the year 0 belong to later years. -/
theorem year_pos {date : Date} (later : 366 ≤ date.number) : 1 ≤ date.year := by
  have inside := date.number_lt
  by_contra none
  have zero : date.year = 0 := by omega
  rw [zero] at inside
  exact absurd (Nat.lt_of_le_of_lt later inside) (by decide)

theorem marchMonth_lt (date : Date) : date.marchMonth < 12 := by
  have le := date.month_le
  unfold marchMonth
  split <;> omega

theorem number_march {date : Date} (positive : 1 ≤ date.year) :
    date.number + date.marchYear / 100 =
      365 * date.marchYear + date.marchYear / 4 + date.marchYear / 400 + 60 + date.marchDay := by
  have start := march date.marchYear
  unfold number marchDay
  by_cases early : date.month ≤ 2
  · obtain ⟨before, year⟩ := Nat.exists_eq_add_of_le' positive
    have same : date.marchYear = before := by
      unfold marchYear
      rw [if_pos early, year, Nat.add_sub_cancel]
    have month : date.marchMonth = date.month + 9 := if_neg (Nat.not_lt.mpr early)
    have inside := monthStart_early before date.month_pos early
    rw [same] at start
    rw [same, month, year]
    omega
  · have same : date.marchYear = date.year := if_neg early
    have month : date.marchMonth = date.month - 3 := if_pos (Nat.lt_of_not_le early)
    have inside := monthStart_late date.year (Nat.lt_of_not_le early) date.month_le
    rw [same] at start
    rw [same, month]
    omega

theorem day_march (date : Date) :
    (153 * date.marchMonth + 2) / 5 + date.day ≤ (153 * (date.marchMonth + 1) + 2) / 5 := by
  obtain ⟨year, month, day, month_pos, month_le, day_pos, day_le⟩ := date
  have leap := leapDay_le year
  unfold marchMonth
  interval_cases month <;> simp only [monthLength] at day_le <;> simp <;> omega

theorem marchDay_lt {date : Date} (positive : 1 ≤ date.year) :
    date.marchDay < 365 + leapDay (date.marchYear + 1) := by
  obtain ⟨year, month, day, month_pos, month_le, day_pos, day_le⟩ := date
  obtain ⟨before, rfl⟩ := Nat.exists_eq_add_of_le' positive
  unfold marchDay marchMonth marchYear
  interval_cases month <;> simp only [monthLength] at day_le <;> simp <;> omega

end Date

end OddJobs.Library.Calendar
