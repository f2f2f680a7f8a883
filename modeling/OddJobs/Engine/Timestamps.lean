import OddJobs.Agent.LogEntry
import OddJobs.Library.Calendar
import OddJobs.Library.Decimal
import OddJobs.Library.Results

/-!
# Timestamps

The engine writes the time in two places, and the reader of agent logs has the conversion back.
All three count a year from March.
-/

namespace OddJobs

open Library

/-! ## Writing -/

def paddedInt (width : Nat) : Int → List Char
  | .ofNat n => Text.padded width n
  | .negSucc n => '-' :: Text.padded (width - 1) (n + 1)

/-- The text `YYYY-MM-DDTHH:MM:SSZ`. -/
def isoText (year : Int) (month day hours minutes seconds : Nat) : String :=
  String.ofList (paddedInt 4 year ++ '-' :: (Text.padded 2 month ++ '-' :: (Text.padded 2 day ++
    'T' :: (Text.padded 2 hours ++ ':' :: (Text.padded 2 minutes ++ ':' :: (Text.padded 2 seconds ++
      ['Z']))))))

def daysToCivil (days : Nat) : Int × Nat × Nat :=
  let z : Int := days + 719468
  let era := (if 0 ≤ z then z else z - 146096).tdiv 146097
  let doe := (z - era * 146097).toNat
  let yoe := (doe - doe / 1460 + doe / 36524 - doe / 146096) / 365
  let y := yoe + era * 400
  let doy := doe - (365 * yoe + yoe / 4 - yoe / 100)
  let mp := (5 * doy + 2) / 153
  let d := doy - (153 * mp + 2) / 5 + 1
  let m := if mp < 10 then mp + 3 else mp - 9
  let y := if m ≤ 2 then y + 1 else y
  (y, m, d)

/-- Format the current time of a breadcrumb, in seconds since the epoch. -/
def formatUtcNow (secs : Nat) : String :=
  let days := secs / 86400
  let timeOfDay := secs % 86400
  let hours := timeOfDay / 3600
  let minutes := timeOfDay % 3600 / 60
  let seconds := timeOfDay % 60
  let (year, month, day) := daysToCivil days
  isoText year month day hours minutes seconds

def isoNow (secs : Nat) : String :=
  let days := secs / 86400
  let daySecs := secs % 86400
  let hour := daySecs / 3600
  let min := daySecs % 3600 / 60
  let sec := daySecs % 60
  let z : Int := days + 719468
  let era := (if 0 ≤ z then z else z - 146096).tdiv 146097
  let doe := (z - era * 146097).toNat
  let yoe := (doe - doe / 1460 + doe / 36524 - doe / 146096) / 365
  let y := yoe + era * 400
  let doy := doe - (365 * yoe + yoe / 4 - yoe / 100)
  let mp := (5 * doy + 2) / 153
  let d := doy - (153 * mp + 2) / 5 + 1
  let m := if mp < 10 then mp + 3 else mp - 9
  let y := if m ≤ 2 then y + 1 else y
  isoText y m d hour min sec

namespace Timestamps

open Calendar

def epoch : Nat := 719528

/-! ## Years of an era -/

/-- The division recovers the year of an era from the numbers of the century, of the four years
and of the year. -/
theorem yearOfEra_digits {c q r doy doe : Nat} (century : c < 4) (quad : q < 25) (year : r < 4)
    (day : doy ≤ 364 ∨ doy = 365 ∧ r = 3 ∧ (q = 24 → c = 3))
    (number : doe = 36524 * c + 1461 * q + 365 * r + doy) :
    (doe - doe / 1460 + doe / 36524 - doe / 146096) / 365 = 100 * c + 4 * q + r := by
  have centuries : doe / 36524 = if c = 3 ∧ q = 24 ∧ r = 3 ∧ doy = 365 then 4 else c := by
    split <;> omega
  have last : doe / 146096 = if c = 3 ∧ q = 24 ∧ r = 3 ∧ doy = 365 then 1 else 0 := by
    split <;> omega
  rw [centuries, last]
  interval_cases c <;> interval_cases r <;> split_ifs <;> omega

theorem yearOfEra {yoe doy doe : Nat} (era : yoe < 400) (day : doy < 365 + leapDay (yoe + 1))
    (number : doe + yoe / 100 = 365 * yoe + yoe / 4 + doy) :
    (doe - doe / 1460 + doe / 36524 - doe / 146096) / 365 = yoe := by
  have last : doy ≤ 364 ∨ doy = 365 ∧ yoe % 4 = 3 ∧ (yoe % 100 / 4 = 24 → yoe / 100 = 3) := by
    unfold leapDay at day
    by_cases leap : Leap (yoe + 1)
    · rw [if_pos leap] at day
      unfold Leap at leap
      omega
    · rw [if_neg leap] at day
      omega
  rw [yearOfEra_digits (c := yoe / 100) (q := yoe % 100 / 4) (r := yoe % 4) (by omega) (by omega)
    (by omega) last (by omega)]
  omega

/-! ## Days and dates -/

theorem monthOfYear {mp day doy : Nat}
    (inside : (153 * mp + 2) / 5 + day ≤ (153 * (mp + 1) + 2) / 5)
    (day_pos : 1 ≤ day) (month : mp < 12) (number : doy = (153 * mp + 2) / 5 + (day - 1)) :
    (5 * doy + 2) / 153 = mp ∧ doy - (153 * mp + 2) / 5 + 1 = day := by
  interval_cases mp <;> omega

theorem tdiv_era (era : Nat) {doe : Nat} (few : doe < 146097) :
    ((146097 * era + doe : Nat) : Int).tdiv 146097 = era := by
  rw [Int.tdiv_eq_ediv_of_nonneg (Int.natCast_nonneg _)]
  omega

theorem toNat_era (era doe : Nat) :
    (((146097 * era + doe : Nat) : Int) - era * 146097).toNat = doe := by
  omega

/-- The divisions of signed numbers cut off nothing here. -/
theorem daysToCivil_era {days era doe yoe doy mp day : Nat}
    (number : days + 719468 = 146097 * era + doe) (few : doe < 146097)
    (ofEra : (doe - doe / 1460 + doe / 36524 - doe / 146096) / 365 = yoe)
    (ofYear : doe - (365 * yoe + yoe / 4 - yoe / 100) = doy) (ofMonths : (5 * doy + 2) / 153 = mp)
    (ofMonth : doy - (153 * mp + 2) / 5 + 1 = day) (month : mp < 12) :
    daysToCivil days = (if mp < 10 then ((yoe + 400 * era : Nat) : Int)
      else (yoe + 400 * era : Nat) + 1,
      if mp < 10 then mp + 3 else mp - 9, day) := by
  have z : (days : Int) + 719468 = (146097 * era + doe : Nat) := congrArg Nat.cast number
  have positive : (0 : Int) ≤ (146097 * era + doe : Nat) := Int.natCast_nonneg _
  have year : (yoe : Int) + era * 400 = (yoe + 400 * era : Nat) := by
    rw [Nat.cast_add, Nat.cast_mul, Nat.cast_ofNat, mul_comm]
  unfold daysToCivil
  simp only [z]
  rw [if_pos positive, tdiv_era era few, toNat_era, ofEra, ofYear, ofMonths, ofMonth, year]
  by_cases late : mp < 10
  · have behind : ¬mp + 3 ≤ 2 := Nat.not_le_of_lt (Nat.le_add_left 3 mp)
    simp only [if_pos late, if_neg behind]
  · have before : mp - 9 ≤ 2 := Nat.sub_le_of_le_add (Nat.le_of_lt_succ month)
    simp only [if_neg late, if_pos before]

theorem daysToCivil_march {days year mp day : Nat} (month : mp < 12) (day_pos : 1 ≤ day)
    (inMonth : (153 * mp + 2) / 5 + day ≤ (153 * (mp + 1) + 2) / 5)
    (inYear : (153 * mp + 2) / 5 + (day - 1) < 365 + leapDay (year + 1))
    (number : days + 719468 + year / 100 =
      365 * year + year / 4 + year / 400 + ((153 * mp + 2) / 5 + (day - 1))) :
    daysToCivil days =
      (if mp < 10 then (year : Int) else year + 1, if mp < 10 then mp + 3 else mp - 9, day) := by
  obtain ⟨doy, day_eq⟩ : ∃ doy, doy = (153 * mp + 2) / 5 + (day - 1) := ⟨_, rfl⟩
  obtain ⟨ofMonths, ofMonth⟩ := monthOfYear inMonth day_pos month day_eq
  rw [← day_eq] at inYear number
  obtain ⟨era, yoe, small, rfl⟩ : ∃ era yoe, yoe < 400 ∧ year = yoe + 400 * era :=
    ⟨year / 400, year % 400, by omega, by omega⟩
  have hundreds : (yoe + 400 * era) / 100 = yoe / 100 + 4 * era := by omega
  have fours : (yoe + 400 * era) / 4 = yoe / 4 + 100 * era := by omega
  have eras : (yoe + 400 * era) / 400 = era := by omega
  rw [hundreds, fours, eras] at number
  rw [show yoe + 400 * era + 1 = yoe + 1 + 400 * era by omega, leapDay_era] at inYear
  obtain ⟨doe, doe_eq⟩ : ∃ doe, doe + yoe / 100 = 365 * yoe + yoe / 4 + doy :=
    ⟨365 * yoe + yoe / 4 + doy - yoe / 100, by omega⟩
  have few : doe < 146097 := by
    have day := leapDay_le (yoe + 1)
    have last := leapDay_succ yoe
    omega
  exact daysToCivil_era (by omega) few (yearOfEra small inYear doe_eq) (by omega)
    ofMonths ofMonth month

theorem year_pos {date : Date} {days : Nat} (number : date.number = epoch + days) :
    1 ≤ date.year := by
  apply Date.year_pos
  unfold epoch at number
  omega

theorem days_march {date : Date} {days : Nat} (number : date.number = epoch + days) :
    days + 719468 + date.marchYear / 100 =
      365 * date.marchYear + date.marchYear / 4 + date.marchYear / 400 + date.marchDay := by
  have counted := date.number_march (year_pos number)
  rw [number] at counted
  unfold epoch at counted
  omega

/-- The engine gives a day the date that the calendar gives it. -/
theorem daysToCivil_date {date : Date} {days : Nat} (number : date.number = epoch + days) :
    daysToCivil days = ((date.year : Int), date.month, date.day) := by
  have positive := year_pos number
  have le := date.month_le
  have first := date.month_pos
  rw [daysToCivil_march date.marchMonth_lt date.day_pos date.day_march (date.marchDay_lt positive)
    (days_march number)]
  unfold Date.marchMonth Date.marchYear
  by_cases late : 2 < date.month
  · have begins : date.month - 3 < 10 := by omega
    rw [if_pos late, if_pos begins, if_pos begins, if_neg (Nat.not_le_of_lt late),
      Nat.sub_add_cancel late]
  · have ends : ¬date.month + 9 < 10 := by omega
    have year : ((date.year - 1 : Nat) : Int) + 1 = date.year := by omega
    rw [if_neg late, if_neg ends, if_neg ends, if_pos (Nat.le_of_not_lt late), year,
      Nat.add_sub_cancel]

theorem cast_marchYear {date : Date} (positive : 1 ≤ date.year) :
    (if date.month ≤ 2 then (date.year : Int) - 1 else date.year) = date.marchYear := by
  unfold Date.marchYear
  split <;> omega

theorem toNat_year (year : Nat) : ((year : Int) - (year / 400 : Nat) * 400).toNat = year % 400 := by
  omega

theorem subtract_of_eq {first second difference : Nat} (sum : first = difference + second) :
    AgentLog.subtract first second = .ok difference := by
  subst sum
  unfold AgentLog.subtract
  rw [if_pos (Nat.le_add_left second difference), Nat.add_sub_cancel]

theorem days_of_era (year doy : Nat) :
    year / 400 * 146097 + (year % 400 * 365 + year % 400 / 4 - year % 400 / 100 + doy) +
      year / 100 =
      365 * year + year / 4 + year / 400 + doy := by
  omega

/-- The reader of agent logs gives a date the day that the calendar gives it. -/
theorem epochSeconds_date {date : Date} {days : Nat} (number : date.number = epoch + days)
    (hour min sec : Nat) :
    AgentLog.epochSeconds date.year date.month date.day hour min sec =
      .ok (days * 86400 + hour * 3600 + min * 60 + sec) := by
  have positive := year_pos number
  have counted := days_march number
  have year := cast_marchYear positive
  have months : (if date.month > 2 then date.month - 3 else date.month + 9) = date.marchMonth := rfl
  have era : (date.marchYear : Int).tdiv 400 = (date.marchYear / 400 : Nat) :=
    Int.tdiv_eq_ediv_of_nonneg (Int.natCast_nonneg _)
  have yearOfEra := toNat_year date.marchYear
  have dayOfYear : AgentLog.subtract ((153 * date.marchMonth + 2) / 5 + date.day) 1 =
      .ok date.marchDay := by
    apply subtract_of_eq
    unfold Date.marchDay
    rw [Nat.add_assoc, Nat.sub_add_cancel date.day_pos]
  have before : AgentLog.subtract (date.marchYear / 400 * 146097 + (date.marchYear % 400 * 365 +
      date.marchYear % 400 / 4 - date.marchYear % 400 / 100 + date.marchDay)) 719468 =
        .ok days := by
    have total := days_of_era date.marchYear date.marchDay
    exact subtract_of_eq (Nat.add_right_cancel (total.trans counted.symm))
  unfold AgentLog.epochSeconds
  simp only [year, months]
  rw [if_pos (Int.natCast_nonneg _), era, yearOfEra, dayOfYear, ok_bind]
  rw [if_neg (Int.not_lt.mpr (Int.natCast_nonneg _)), Int.toNat_natCast, before]
  rfl

/-! ## Fields -/

theorem parseDigits_eq {digits : List Char} (nonempty : digits ≠ [])
    (numeric : ∀ c ∈ digits, c.isDigit = true) :
    AgentLog.parseDigits digits = some (Nat.ofDigitChars 10 digits 0) := by
  have all : digits.all Char.isDigit = true := List.all_eq_true.mpr numeric
  unfold AgentLog.parseDigits
  exact if_pos ⟨nonempty, all⟩

/-- A padded number begins with a digit. -/
theorem padded_cons (width n : Nat) :
    ∃ c rest, Text.padded width n = c :: rest ∧ c ≠ '+' ∧ c ≠ '-' := by
  obtain ⟨c, rest, is⟩ := List.exists_cons_of_ne_nil (Text.padded_ne_nil width n)
  have digit : c.isDigit = true :=
    Text.isDigit_of_mem_padded _ _ c (by rw [is]; exact List.mem_cons_self)
  refine ⟨c, rest, is, ?_, ?_⟩
  · rintro rfl
    cases digit
  · rintro rfl
    cases digit

theorem parseUnsigned_padded (width n : Nat) :
    AgentLog.parseUnsigned (Text.padded width n) = some n := by
  obtain ⟨c, rest, is, noPlus, -⟩ := padded_cons width n
  have read := parseDigits_eq (Text.padded_ne_nil width n) (Text.isDigit_of_mem_padded width n)
  rw [Text.ofDigitChars_padded] at read
  unfold AgentLog.parseUnsigned
  split
  · rename_i same
    rw [is] at same
    exact absurd (List.cons.inj same).1 noPlus
  · exact read

theorem parseSigned_padded (width n : Nat) :
    AgentLog.parseSigned (Text.padded width n) = some (n : Int) := by
  obtain ⟨c, rest, is, -, noMinus⟩ := padded_cons width n
  unfold AgentLog.parseSigned
  split
  · rename_i same
    rw [is] at same
    exact absurd (List.cons.inj same).1 noMinus
  · rw [parseUnsigned_padded]
    rfl

/-- The first field of a text is read. -/
theorem numberAt_first {α : Type} (parse : List Char → Option α) {stop : Nat} {field : List Char}
    (sized : Text.size field = stop) (rest : List Char) :
    AgentLog.numberAt parse 0 stop (field ++ rest) = OptionT.mk (.ok (parse field)) := by
  have first : Text.split 0 (field ++ rest) = some ([], field ++ rest) :=
    Text.split_eq_some.mpr ⟨rfl, rfl⟩
  have second : Text.split (stop - 0) (field ++ rest) = some (field, rest) :=
    Text.split_eq_some.mpr ⟨rfl, sized⟩
  unfold AgentLog.numberAt AgentLog.slice AgentLog.sliceFrom AgentLog.sliceTo
  simp only [first, ok_bind, second]
  rfl

theorem sliceFrom_skip (front : List Char) (start : Nat) (rest : List Char) :
    AgentLog.sliceFrom (Text.size front + start) (front ++ rest) =
      AgentLog.sliceFrom start rest := by
  unfold AgentLog.sliceFrom
  cases cut : Text.split start rest with
  | some parts =>
      obtain ⟨middle, back⟩ := parts
      obtain ⟨rfl, sized⟩ := Text.split_eq_some.mp cut
      have later : Text.split (Text.size front + start) (front ++ (middle ++ back)) =
          some (front ++ middle, back) :=
        Text.split_eq_some.mpr ⟨(List.append_assoc ..).symm, by rw [Text.size_append, sized]⟩
      rw [later]
  | none =>
      have later : Text.split (Text.size front + start) (front ++ rest) = none := by
        rw [← Option.not_isSome_iff_eq_none, Text.split_isSome, Text.boundary_append,
          ← Text.split_isSome, cut]
        exact Bool.false_ne_true
      rw [later]

/-- A field and its separator are passed over. -/
theorem numberAt_skip {α : Type} (parse : List Char → Option α) {width : Nat} {field : List Char}
    {separator : Char} (sized : Text.size field = width) (byte : separator.utf8Size = 1)
    (start stop : Nat) (rest : List Char) :
    AgentLog.numberAt parse (width + 1 + start) (width + 1 + stop) (field ++ separator :: rest) =
      AgentLog.numberAt parse start stop rest := by
  have front : Text.size (field ++ [separator]) = width + 1 := by
    rw [Text.size_append, sized, Text.size_cons, byte, Text.size_nil]
  have same := sliceFrom_skip (field ++ [separator]) start rest
  rw [front, List.append_assoc, List.singleton_append] at same
  unfold AgentLog.numberAt AgentLog.slice
  rw [same, Nat.add_sub_add_left]

theorem size_padded {width n : Nat} (positive : 0 < width) (fits : n < 10 ^ width) :
    Text.size (Text.padded width n) = width :=
  (Text.size_digits (Text.isDigit_of_mem_padded _ _)).trans (Text.padded_length positive fits)

section Fields

variable {year month day hour min sec : Nat}

theorem toList_isoText : (isoText year month day hour min sec).toList =
    Text.padded 4 year ++ '-' :: (Text.padded 2 month ++ '-' :: (Text.padded 2 day ++
      'T' :: (Text.padded 2 hour ++ ':' :: (Text.padded 2 min ++ ':' :: (Text.padded 2 sec ++
        ['Z']))))) :=
  String.toList_ofList

theorem trimmed_isoText : Text.Trimmed (isoText year month day hour min sec).toList := by
  obtain ⟨c, rest, is⟩ := List.exists_cons_of_ne_nil (Text.padded_ne_nil 4 year)
  have digit : c.isDigit = true :=
    Text.isDigit_of_mem_padded _ _ c (by rw [is]; exact List.mem_cons_self)
  rw [toList_isoText]
  constructor
  · intro first begins
    simp only [is, List.cons_append, List.head?_cons, Option.some.injEq] at begins
    subst begins
    exact Text.isWhiteSpace_digit digit
  · intro last ends
    simp [List.getLast?_append, List.getLast?_cons] at ends
    subst ends
    decide

/-- The fields of a timestamp are read back. -/
theorem parseIsoEpoch_isoText (years : year < 10000) (months : month < 100) (days : day < 100)
    (hours : hour < 100) (mins : min < 100) (secs : sec < 100) :
    AgentLog.parseIsoEpoch (isoText year month day hour min sec).toList =
      OptionT.lift (AgentLog.epochSeconds year month day hour min sec) := by
  have sizeYear : Text.size (Text.padded 4 year) = 4 := size_padded (by decide) years
  have size {n : Nat} (fits : n < 100) : Text.size (Text.padded 2 n) = 2 :=
    size_padded (by decide) fits
  have number {n : Nat} (fits : n < 100) (rest : List Char) :
      AgentLog.numberAt AgentLog.parseUnsigned 0 2 (Text.padded 2 n ++ rest) = pure n := by
    rw [numberAt_first _ (size fits), parseUnsigned_padded]
    rfl
  have skipYear (start stop : Nat) (rest : List Char) :=
    numberAt_skip AgentLog.parseUnsigned sizeYear (rfl : '-'.utf8Size = 1) start stop rest
  have skip {n : Nat} (fits : n < 100) {c : Char} (byte : c.utf8Size = 1) (start stop : Nat)
      (rest : List Char) :=
    numberAt_skip AgentLog.parseUnsigned (size fits) byte start stop rest
  unfold AgentLog.parseIsoEpoch
  rw [trimmed_isoText.trim_eq, toList_isoText]
  dsimp only
  rw [if_neg]
  · rw [numberAt_first AgentLog.parseSigned sizeYear, parseSigned_padded,
      skipYear 0 2, number months, skipYear 3 5, skip months rfl 0 2, number days,
      skipYear 6 8, skip months rfl 3 5, skip days rfl 0 2, number hours,
      skipYear 9 11, skip months rfl 6 8, skip days rfl 3 5, skip hours rfl 0 2, number mins,
      skipYear 12 14, skip months rfl 9 11, skip days rfl 6 8, skip hours rfl 3 5,
      skip mins rfl 0 2, number secs]
    rfl
  · simp only [Text.size_append, Text.size_cons, sizeYear, size months, size days, size hours,
      size mins, size secs]
    decide

end Fields

/-! ## Round trip -/

theorem formatUtcNow_eq_isoNow (secs : Nat) : formatUtcNow secs = isoNow secs := rfl

theorem formatUtcNow_date {date : Date} {secs : Nat} (number : date.number = epoch + secs / 86400) :
    formatUtcNow secs = isoText date.year date.month date.day (secs % 86400 / 3600)
      (secs % 86400 % 3600 / 60) (secs % 86400 % 60) := by
  unfold formatUtcNow
  dsimp only
  rw [daysToCivil_date number]

/-- A moment is read back from its timestamp. -/
theorem parseIsoEpoch_formatUtcNow {date : Date} {secs : Nat}
    (number : date.number = epoch + secs / 86400) (year : date.year ≤ 9999) :
    (AgentLog.parseIsoEpoch (formatUtcNow secs).toList).run = .ok (some secs) := by
  have month := date.month_le
  have day := Nat.le_trans date.day_le (monthLength_le date.year date.month)
  have whole : secs / 86400 * 86400 + secs % 86400 / 3600 * 3600 + secs % 86400 % 3600 / 60 * 60 +
      secs % 86400 % 60 = secs := by
    omega
  rw [formatUtcNow_date number, parseIsoEpoch_isoText (by omega) (by omega) (by omega) (by omega)
    (by omega) (by omega), epochSeconds_date number, whole]
  rfl

end Timestamps

open Timestamps in
/-- Both timestamps of a moment are the same, they have the date that the calendar gives its day,
and up to the year 9999 the moment is read back from them. -/
theorem timestamps_inverse (secs : Nat) :
    formatUtcNow secs = isoNow secs ∧
      ∃ date : Calendar.Date, date.number = epoch + secs / 86400 ∧
        daysToCivil (secs / 86400) = ((date.year : Int), date.month, date.day) ∧
        (date.year ≤ 9999 →
          (AgentLog.parseIsoEpoch (formatUtcNow secs).toList).run = .ok (some secs)) := by
  obtain ⟨date, number⟩ := Calendar.Date.exists_number (epoch + secs / 86400)
  exact ⟨formatUtcNow_eq_isoNow secs, date, number, daysToCivil_date number,
    parseIsoEpoch_formatUtcNow number⟩

/-- The last day of a February. -/
theorem leap_inverse : (AgentLog.parseIsoEpoch (formatUtcNow 951827696).toList).run =
    .ok (some 951827696) := by
  obtain ⟨-, date, -, civil, parsed⟩ := timestamps_inverse 951827696
  have days : daysToCivil (951827696 / 86400) = (2000, 2, 29) := by decide
  rw [days] at civil
  have year : (2000 : Int) = date.year := congrArg Prod.fst civil
  exact parsed (by omega)

end OddJobs
