import OddJobs.Engine.Completion

/-!
# Durations

Runbooks are checked with `validate_duration_str`, and the engine reads the same texts
with `parse_duration`: a number, white space, and the name of a unit.
-/

namespace OddJobs

open Library

/-- `validate_duration_str`. -/
def validateDurationStr (text : String) : Except String Unit :=
  let text := Text.trim text.toList
  if text.isEmpty then .error "empty duration string"
  else
    let digits := text.takeWhile Char.isDigit
    let number := Nat.ofDigitChars 10 digits 0
    if digits.isEmpty || U64_VALUES ≤ number then
      .error ("invalid number in duration: " ++ String.ofList text)
    else
      match String.ofList (Text.trim (text.dropWhile Char.isDigit)) with
      | "" | "s" | "sec" | "secs" | "second" | "seconds" | "ms" | "millis" | "millisecond"
      | "milliseconds" | "m" | "min" | "mins" | "minute" | "minutes" | "h" | "hr" | "hrs"
      | "hour" | "hours" | "d" | "day" | "days" => .ok ()
      | other => .error ("unknown duration suffix: " ++ other)

/-! ## What a duration says -/

/-- A number counts milliseconds, or a multiple of seconds. -/
inductive DurationUnit where
  | millis
  | seconds (multiplier : Nat)

namespace DurationUnit

def named : String → Option DurationUnit
  | "ms" | "millis" | "millisecond" | "milliseconds" => some .millis
  | "" | "s" | "sec" | "secs" | "second" | "seconds" => some (.seconds 1)
  | "m" | "min" | "mins" | "minute" | "minutes" => some (.seconds 60)
  | "h" | "hr" | "hrs" | "hour" | "hours" => some (.seconds 3600)
  | "d" | "day" | "days" => some (.seconds 86400)
  | _ => none

def times (number : Nat) : DurationUnit → Nat
  | millis => number
  | seconds multiplier => number * multiplier * 1000

/-- The product as the machine computes it: seconds are multiplied in a `u64`. -/
def timesU64 (number : Nat) : DurationUnit → Nat
  | millis => number
  | seconds multiplier => number * multiplier % U64_VALUES * 1000

/-- The product of seconds is a `u64`. -/
def Fits (number : Nat) : DurationUnit → Prop
  | millis => True
  | seconds multiplier => number * multiplier < U64_VALUES

theorem timesU64_eq_iff (number : Nat) (unit : DurationUnit) :
    unit.timesU64 number = unit.times number ↔ unit.Fits number := by
  cases unit with
  | millis => exact iff_true_intro rfl
  | seconds multiplier =>
      have positive : 0 < 1000 := by decide
      refine (Nat.mul_left_inj (Nat.ne_of_gt positive)).trans ?_
      exact Nat.mod_eq_iff_lt (by decide)

end DurationUnit

/-- A text says so many of a unit: digits of a `u64`, then the name of the unit, with
white space around the two. -/
def Denotes (text : String) (number : Nat) (unit : DurationUnit) : Prop :=
  ∃ digits suffix, Text.trim text.toList = digits ++ suffix ∧ digits ≠ [] ∧
    (∀ c ∈ digits, c.isDigit = true) ∧ (∀ c, suffix.head? = some c → c.isDigit = false) ∧
    Nat.ofDigitChars 10 digits 0 = number ∧ number < U64_VALUES ∧
    DurationUnit.named (String.ofList (Text.trim suffix)) = some unit

/-- What the two parsers have in common: the number and its unit, if the text says so. -/
def readDuration (text : String) : Option (Nat × DurationUnit) :=
  let text := Text.trim text.toList
  let digits := text.takeWhile Char.isDigit
  if digits.isEmpty || U64_VALUES ≤ Nat.ofDigitChars 10 digits 0 then none
  else
    (DurationUnit.named (String.ofList (Text.trim (text.dropWhile Char.isDigit)))).map
      (Nat.ofDigitChars 10 digits 0, ·)

/-- The digits in front are the longest ones. -/
theorem span_digits {digits suffix : List Char} (numeric : ∀ c ∈ digits, c.isDigit = true)
    (stops : ∀ c, suffix.head? = some c → c.isDigit = false) :
    (digits ++ suffix).takeWhile Char.isDigit = digits ∧
      (digits ++ suffix).dropWhile Char.isDigit = suffix := by
  have none : suffix.takeWhile Char.isDigit = [] ∧ suffix.dropWhile Char.isDigit = suffix := by
    cases suffix with
    | nil => exact ⟨rfl, rfl⟩
    | cons c rest =>
        have other := stops c rfl
        exact ⟨List.takeWhile_cons_of_neg (by rw [other]; exact Bool.false_ne_true),
          List.dropWhile_cons_of_neg (by rw [other]; exact Bool.false_ne_true)⟩
  rw [List.takeWhile_append_of_pos numeric, List.dropWhile_append_of_pos numeric, none.1, none.2]
  exact ⟨List.append_nil digits, rfl⟩

theorem readDuration_eq_some_iff {text : String} {number : Nat} {unit : DurationUnit} :
    readDuration text = some (number, unit) ↔ Denotes text number unit := by
  constructor
  · intro read
    unfold readDuration at read
    obtain ⟨valid, named⟩ := Option.ite_none_left_eq_some.mp read
    obtain ⟨found, name, same⟩ := Option.map_eq_some_iff.mp named
    obtain ⟨rfl, rfl⟩ := Prod.mk.inj same
    rw [Bool.or_eq_true, not_or, decide_eq_true_eq, Nat.not_le] at valid
    refine ⟨_, _, List.takeWhile_append_dropWhile.symm, ?_, fun c => List.mem_takeWhile_imp, ?_, rfl,
      valid.2, name⟩
    · exact fun none => valid.1 (List.isEmpty_iff.mpr none)
    · intro c first
      have stops := List.head?_dropWhile_not Char.isDigit (Text.trim text.toList)
      rw [first] at stops
      exact stops
  · rintro ⟨digits, suffix, same, some, numeric, stops, rfl, bounded, name⟩
    obtain ⟨taken, left⟩ := span_digits numeric stops
    have valid : ¬(digits.isEmpty || decide (U64_VALUES ≤ Nat.ofDigitChars 10 digits 0)) = true := by
      rw [Bool.or_eq_true, not_or, decide_eq_true_eq, Nat.not_le]
      exact ⟨fun none => some (List.isEmpty_iff.mp none), bounded⟩
    unfold readDuration
    dsimp only
    rw [same, taken, left, if_neg valid, name]
    rfl

/-! ## The two parsers -/

theorem validateDurationStr_eq_ok {text : String} :
    validateDurationStr text = .ok () ↔ (readDuration text).isSome := by
  unfold validateDurationStr readDuration
  dsimp only
  by_cases none : (Text.trim text.toList).isEmpty
  · rw [List.isEmpty_iff.mp none]
    decide
  · rw [if_neg none]
    split
    · exact iff_of_false (fun same => by cases same) Bool.false_ne_true
    · rw [Option.isSome_map]
      generalize String.ofList _ = suffix
      -- the two tables hold the same names
      unfold DurationUnit.named
      split
      case h_24 =>
        refine iff_of_false (fun same => by cases same) ?_
        split <;> simp_all
      all_goals exact iff_of_true rfl rfl

theorem parseDuration_eq_ok {text : String} {duration : Nat} :
    parseDuration text = .ok duration ↔
      ∃ number unit, readDuration text = some (number, unit) ∧ unit.timesU64 number = duration := by
  unfold parseDuration readDuration
  dsimp only
  by_cases none : (Text.trim text.toList).isEmpty
  · rw [List.isEmpty_iff.mp none]
    refine iff_of_false (fun same => by cases same) ?_
    rintro ⟨number, unit, read, _⟩
    cases read
  · rw [if_neg none]
    split
    · refine iff_of_false (fun same => by cases same) ?_
      rintro ⟨number, unit, read, _⟩
      cases read
    · generalize String.ofList _ = suffix
      generalize Nat.ofDigitChars 10 _ 0 = number
      split
      case h_24 =>
        have unnamed : DurationUnit.named suffix = Option.none := by
          unfold DurationUnit.named
          split <;> simp_all
        refine iff_of_false (fun same => by cases same) ?_
        rintro ⟨found, unit, read, _⟩
        rw [unnamed] at read
        cases read
      all_goals
        constructor
        · exact fun same => ⟨number, _, rfl, Except.ok.inj same⟩
        · rintro ⟨found, unit, read, same⟩
          cases read
          exact congrArg Except.ok same

theorem Denotes.unique {text : String} {number other : Nat} {unit unit' : DurationUnit}
    (first : Denotes text number unit) (second : Denotes text other unit') :
    number = other ∧ unit = unit' := by
  have same := (readDuration_eq_some_iff.mpr first).symm.trans (readDuration_eq_some_iff.mpr second)
  exact Prod.mk.inj (Option.some.inj same)

theorem validateDurationStr_iff (text : String) :
    validateDurationStr text = .ok () ↔ ∃ number unit, Denotes text number unit := by
  rw [validateDurationStr_eq_ok, Option.isSome_iff_exists]
  constructor
  · rintro ⟨⟨number, unit⟩, read⟩
    exact ⟨number, unit, readDuration_eq_some_iff.mp read⟩
  · rintro ⟨number, unit, denotes⟩
    exact ⟨(number, unit), readDuration_eq_some_iff.mpr denotes⟩

theorem parseDuration_iff {text : String} {duration : Nat} :
    parseDuration text = .ok duration ↔
      ∃ number unit, Denotes text number unit ∧ unit.timesU64 number = duration := by
  rw [parseDuration_eq_ok]
  simp only [readDuration_eq_some_iff]

/-- Validation and evaluation accept the same texts. -/
theorem validates_iff_parses (text : String) :
    validateDurationStr text = .ok () ↔ ∃ duration, parseDuration text = .ok duration := by
  rw [validateDurationStr_iff]
  constructor
  · rintro ⟨number, unit, denotes⟩
    exact ⟨_, parseDuration_iff.mpr ⟨number, unit, denotes, rfl⟩⟩
  · rintro ⟨duration, parsed⟩
    obtain ⟨number, unit, denotes, _⟩ := parseDuration_iff.mp parsed
    exact ⟨number, unit, denotes⟩

/-- Both accept the same texts, and what is evaluated is the exact product: no
multiplication has wrapped around. -/
def DurationAgrees (text : String) : Prop :=
  (validateDurationStr text = .ok () ↔ ∃ duration, parseDuration text = .ok duration) ∧
    ∀ number unit, Denotes text number unit → parseDuration text = .ok (unit.times number)

/-- A duration is evaluated to the exact product if and only if its seconds fit. -/
theorem durationAgrees_iff (text : String) :
    DurationAgrees text ↔ ∀ number unit, Denotes text number unit → unit.Fits number := by
  refine (and_iff_right (validates_iff_parses text)).trans ?_
  refine forall_congr' fun number => forall_congr' fun unit => imp_congr_right fun denotes => ?_
  rw [← DurationUnit.timesU64_eq_iff, parseDuration_iff]
  constructor
  · rintro ⟨found, unit', denotes', same⟩
    obtain ⟨rfl, rfl⟩ := denotes.unique denotes'
    exact same
  · exact fun exact => ⟨number, unit, denotes, exact⟩

/-- Minutes that are not a `u64` of seconds are accepted, and evaluated to 44 seconds. -/
theorem minutes_overflow : validateDurationStr "307445734561825861m" = .ok () ∧
    parseDuration "307445734561825861m" = .ok 44000 ∧
      ¬DurationAgrees "307445734561825861m" := by
  have denotes : Denotes "307445734561825861m" 307445734561825861 (.seconds 60) :=
    readDuration_eq_some_iff.mp (by rfl)
  have evaluated : parseDuration "307445734561825861m" = .ok 44000 := by rfl
  refine ⟨by rfl, evaluated, ?_⟩
  intro agrees
  have exact := Except.ok.inj (evaluated.symm.trans (agrees.2 _ _ denotes))
  exact absurd exact (by decide)

example : parseDuration " 5 min " = .ok 300000 := by rfl

end OddJobs
