import OddJobs.Engine.AgentActions
import OddJobs.Library.Decimal
import OddJobs.Library.Search

/-!
# Errors of gates, read back

A failed gate is told as a text that holds the command, the exit code and the error output; the
decision that is asked for takes the text apart again.  It is the first `(exit ` that counts,
also where that stands in the command.
-/

namespace OddJobs

open Library

namespace Gate

def MARK : List Char := ['(', 'e', 'x', 'i', 't', ' ']

/-! ## What is told -/

/-- A gate error is reported as it happened: by its exit code and the trimmed error output, or
by the whole message. -/
def Reported (outcome : Except String GateOutput) (message : String) : Prop :=
  match outcome with
  | .ok output => parseGateError message =
      (output.exitCode.getD (-1), String.ofList (Text.trim output.stderr.toList))
  | .error _ => parseGateError message = (1, message)

/-- The first mark of a text stands in front of a number and a parenthesis that closes. -/
def Tells (text : List Char) (code : Int) (rest : List Char) : Prop :=
  ∃ front number, text = front ++ (MARK ++ (number ++ ')' :: rest)) ∧ ¬MARK <:+: front ∧
    ')' ∉ number ∧ Text.parseInt32 (Text.trim number) = some code

/-- The command of a gate that failed has no mark, or its first one tells of the same exit code
and no colon follows; what is told of a gate that could not be run has no number behind its
first mark. -/
def Unmistaken (command : String) : Except String GateOutput → Prop
  | .ok output => ¬MARK <:+: command.toList ∨
      ∃ rest, Tells command.toList (output.exitCode.getD (-1)) rest ∧ ':' ∉ rest
  | .error error => (∀ code rest, ¬Tells command.toList code rest) ∧
      (MARK <:+: command.toList ∨ ∀ code rest, ¬Tells error.toList code rest)

/-! ## The number behind the first mark -/

def told (text : List Char) : Option (Int × List Char) := do
  let afterExit ← Text.after MARK text
  let rest ← Text.after [')'] afterExit
  let code ← Text.parseInt32 (Text.trim (afterExit.takeWhile (· ≠ ')')))
  some (code, rest)

def toldOutput (rest : List Char) : String :=
  String.ofList (((Text.after [':'] rest).map Text.trim).getD [])

theorem parseGateError_eq (message : String) :
    parseGateError message =
      ((told message.toList).map fun told => (told.1, toldOutput told.2)).getD (1, message) := by
  have mark : "(exit ".toList = MARK := rfl
  unfold parseGateError told
  dsimp only
  rw [mark]
  cases Text.after MARK message.toList with
  | none => rfl
  | some afterExit =>
      simp only [bind, Option.bind_some]
      cases Text.after [')'] afterExit with
      | none => rfl
      | some rest =>
          simp only [Option.bind_some]
          cases Text.parseInt32 (Text.trim (afterExit.takeWhile (· ≠ ')'))) with
          | none => rfl
          | some code => rfl

theorem mark_eq : MARK = '(' :: ['e', 'x', 'i', 't', ' '] := rfl

theorem takeWhile_number {number : List Char} (free : ')' ∉ number) (rest : List Char) :
    (number ++ ')' :: rest).takeWhile (· ≠ ')') = number := by
  have inside : ∀ c ∈ number, decide (c ≠ ')') = true := by
    intro c member
    rw [decide_eq_true_eq]
    rintro rfl
    exact free member
  rw [List.takeWhile_append_of_pos inside, List.takeWhile_cons_of_neg (by simp), List.append_nil]

theorem told_eq_some {text rest : List Char} {code : Int} :
    told text = some (code, rest) ↔ Tells text code rest := by
  constructor
  · intro tells
    obtain ⟨afterExit, marked, tells⟩ := Option.bind_eq_some_iff.mp tells
    obtain ⟨rest', closed, tells⟩ := Option.bind_eq_some_iff.mp tells
    obtain ⟨code', number, tells⟩ := Option.bind_eq_some_iff.mp tells
    cases tells
    rw [mark_eq] at marked
    obtain ⟨front, whole, first⟩ := (Text.after_eq_some (by decide)).mp marked
    obtain ⟨digits, inner, free⟩ := (Text.after_eq_some List.not_mem_nil).mp closed
    have free' : ')' ∉ digits := fun member => free ((List.singleton_infix_iff _ _).mpr member)
    rw [inner, List.singleton_append, takeWhile_number free'] at number
    rw [inner] at whole
    exact ⟨front, digits, whole, first, free', number⟩
  · rintro ⟨front, number, rfl, first, free, parsed⟩
    have marked : Text.after MARK (front ++ (MARK ++ (number ++ ')' :: rest))) =
        some (number ++ ')' :: rest) :=
      (Text.after_eq_some (by decide)).mpr ⟨front, rfl, first⟩
    refine Option.bind_eq_some_iff.mpr ⟨_, marked, Option.bind_eq_some_iff.mpr
      ⟨rest, Text.after_single free rest, Option.bind_eq_some_iff.mpr ⟨code, ?_, rfl⟩⟩⟩
    rw [takeWhile_number free]
    exact parsed

theorem told_eq_none {text : List Char} :
    told text = none ↔ ∀ code rest, ¬Tells text code rest := by
  constructor
  · intro none code rest tells
    rw [told_eq_some.mpr tells] at none
    cases none
  · intro untold
    cases tells : told text with
    | none => rfl
    | some told => exact absurd (told_eq_some.mp tells) (untold told.1 told.2)

theorem told_length {text rest : List Char} {code : Int} (tells : told text = some (code, rest)) :
    rest.length < text.length := by
  obtain ⟨front, number, rfl, -, -, -⟩ := told_eq_some.mp tells
  simp only [List.length_append, List.length_cons]
  omega

/-! ## The message -/

/-- Nothing is told in front of a parenthesis that opens. -/
theorem told_skip {front : List Char} (free : '(' ∉ front) (rest : List Char) :
    told (front ++ rest) = told rest := by
  unfold told
  rw [mark_eq, Text.after_skip free]

theorem parse_none_of_quote {text : List Char} (member : '`' ∈ text) :
    Text.parseInt32 (Text.trim text) = none := by
  have kept : '`' ∈ Text.trim text := by
    obtain ⟨before, after, split, blankBefore, blankAfter⟩ := Text.exists_trim text
    rw [split, List.mem_append, List.mem_append] at member
    rcases member with (early | kept) | late
    · exact absurd (blankBefore _ early) (by decide)
    · exact kept
    · exact absurd (blankAfter _ late) (by decide)
  exact Text.parseInt32_none kept (by decide) (by decide) (by decide)

/-- The command ends with a backquote: its mark is the first of the message, and no number goes
on behind it. -/
theorem told_quoted (command behind : List Char) :
    told (command ++ '`' :: behind) =
      if MARK <:+: command then
        (told command).map fun told => (told.1, told.2 ++ '`' :: behind)
      else told behind := by
  split
  · rename_i marked
    obtain ⟨afterExit, found, goes_on⟩ := Text.after_append marked
    unfold told
    rw [found, goes_on]
    simp only [bind, Option.bind_some]
    by_cases closed : ')' ∈ afterExit
    · obtain ⟨number, rest, rfl, free⟩ := List.eq_append_cons_of_mem closed
      rw [List.append_assoc, List.cons_append, Text.after_single free, Text.after_single free,
        Option.bind_some, Option.bind_some, takeWhile_number free, takeWhile_number free]
      cases Text.parseInt32 (Text.trim number) with
      | none => rfl
      | some code => rfl
    · rw [Text.after_single_none closed]
      -- the number would reach into the backquote
      cases Text.after [')'] (afterExit ++ '`' :: behind) with
      | none => rfl
      | some rest =>
          have inside : ∀ c ∈ afterExit, decide (c ≠ ')') = true := by
            intro c member
            rw [decide_eq_true_eq]
            rintro rfl
            exact closed member
          rw [Option.bind_some, parse_none_of_quote]
          · rfl
          · rw [List.takeWhile_append_of_pos inside, List.takeWhile_cons_of_pos (by decide)]
            exact List.mem_append_right _ List.mem_cons_self
  · rename_i free
    have passed : Text.after MARK (command ++ '`' :: behind) = Text.after MARK behind := by
      have quote : '(' ∉ ['`'] := by decide
      rw [mark_eq] at free ⊢
      rw [Text.after_break free (by decide)]
      exact Text.after_skip quote behind
    unfold told
    rw [passed]

def behindCode (stderr : List Char) : List Char :=
  if stderr = [] then [] else ':' :: ' ' :: stderr

def failure (code : Int) (stderr : List Char) : List Char :=
  " failed ".toList ++ (MARK ++ ((toString code).toList ++ ')' :: behindCode stderr))

section Failures

variable {code : Int} {stderr : List Char}

theorem told_failure (lower : -2147483648 ≤ code) (upper : code ≤ 2147483647)
    (stderr : List Char) : told (failure code stderr) = some (code, behindCode stderr) := by
  have free : ')' ∉ (toString code).toList := fun member =>
    (Text.mem_toString member).elim (by decide) (by decide)
  have outside : ∀ c ∈ (toString code).toList, Text.isWhiteSpace c = false := by
    intro c member
    rcases Text.mem_toString member with rfl | digit
    · decide
    · have bounds := Char.isDigit_iff_toNat.mp digit
      simp only [Char.reduceToNat] at bounds
      unfold Text.isWhiteSpace
      simp
      omega
  have trimmed : Text.Trimmed (toString code).toList :=
    ⟨fun c first => outside c (List.mem_of_head? first),
      fun c last => outside c (List.mem_of_getLast? last)⟩
  unfold failure
  rw [told_skip (by decide)]
  refine told_eq_some.mpr ⟨[], _, rfl, by decide, free, ?_⟩
  rw [trimmed.trim_eq]
  exact Text.parseInt32_toString lower upper

/-- Where no colon stands in front, the error output is what was told. -/
theorem toldOutput_behindCode (trimmed : Text.Trimmed stderr) {front : List Char}
    (free : ':' ∉ front) : toldOutput (front ++ behindCode stderr) = String.ofList stderr := by
  unfold toldOutput behindCode
  split
  · rename_i none
    rw [List.append_nil, Text.after_single_none free, none]
    rfl
  · rename_i some
    have space : ' ' :: stderr = [' '] ++ stderr := rfl
    rw [Text.after_single free, space, Option.map_some, Text.trim_append trimmed some]
    rfl

theorem toldOutput_failure (trimmed : Text.Trimmed stderr) {rest : List Char} (free : ':' ∉ rest) :
    toldOutput (rest ++ '`' :: failure code stderr) = String.ofList stderr := by
  have split : rest ++ '`' :: failure code stderr =
      rest ++ (('`' :: " failed ".toList) ++ (MARK ++ ((toString code).toList ++ [')']))) ++
        behindCode stderr := by
    unfold failure
    simp only [List.append_assoc, List.cons_append, List.nil_append]
  rw [split]
  apply toldOutput_behindCode trimmed
  intro colon
  rcases List.mem_append.mp colon with inside | colon
  · exact free inside
  rcases List.mem_append.mp colon with inside | colon
  · exact absurd inside (by decide)
  rcases List.mem_append.mp colon with inside | colon
  · exact absurd inside (by decide)
  rcases List.mem_append.mp colon with inside | colon
  · exact (Text.mem_toString inside).elim (by decide) (by decide)
  · exact absurd colon (by decide)

theorem failure_trimmed (trimmed : Text.Trimmed stderr) :
    Text.Trimmed ('`' :: failure code stderr) := by
  refine ⟨?_, ?_⟩
  · rintro c ⟨⟩
    decide
  · intro c last
    unfold failure behindCode at last
    rw [← List.append_assoc, ← List.append_assoc, ← List.cons_append] at last
    split at last
    · rw [List.getLast?_append_of_ne_nil _ (List.cons_ne_nil _ _)] at last
      cases last
      decide
    · rename_i some
      have split : ')' :: ':' :: ' ' :: stderr = [')', ':', ' '] ++ stderr := rfl
      rw [split, ← List.append_assoc, List.getLast?_append_of_ne_nil _ some] at last
      exact trimmed.ends c last

/-- Where a colon stands in the command behind the number, more than the error output is told. -/
theorem toldOutput_colon (trimmed : Text.Trimmed stderr) {rest : List Char} (member : ':' ∈ rest) :
    toldOutput (rest ++ '`' :: failure code stderr) ≠ String.ofList stderr := by
  obtain ⟨front, late, rfl, free⟩ := List.eq_append_cons_of_mem member
  unfold toldOutput
  rw [List.append_assoc, List.cons_append, Text.after_single free, Option.map_some,
    Option.getD_some,
    Text.trim_append (failure_trimmed trimmed) (List.cons_ne_nil _ _)]
  intro same
  have longer := congrArg List.length (String.ofList_injective same)
  unfold failure behindCode at longer
  simp only [List.length_append, List.length_cons] at longer
  split at longer
  · rename_i none
    rw [none] at longer
    simp at longer
  · simp only [List.length_cons] at longer
    omega

end Failures

/-! ## The messages of the code -/

theorem told_message (command behind : List Char) :
    told ("gate `".toList ++ (command ++ '`' :: behind)) =
      if MARK <:+: command then
        (told command).map fun told => (told.1, told.2 ++ '`' :: behind)
      else told behind := by
  rw [told_skip (by decide), told_quoted]

section Messages

variable {reading : Reading} {command message : String} {dir : PathBuf}

theorem message_failed {output : GateOutput} (ran : reading.gate command dir = .ok output)
    (fails : runGateCommand reading command dir = .error message) :
    message.toList = "gate `".toList ++ (command.toList ++
      '`' :: failure (output.exitCode.getD (-1)) (Text.trim output.stderr.toList)) := by
  have mark : "` failed (exit ".toList = '`' :: (" failed ".toList ++ MARK) := by decide
  unfold runGateCommand at fails
  rw [ran] at fails
  dsimp only at fails
  split at fails
  · cases fails
  · cases fails
    unfold failure behindCode
    split
    · rename_i none
      rw [if_pos (List.isEmpty_iff.mp none)]
      simp only [String.toList_append, mark, List.append_assoc, List.cons_append]
      rfl
    · rename_i some
      rw [if_neg fun none => some (List.isEmpty_iff.mpr none)]
      simp only [String.toList_append, mark, List.append_assoc, List.cons_append,
        String.toList_ofList]
      rfl

theorem message_error {error : String} (failed : reading.gate command dir = .error error)
    (fails : runGateCommand reading command dir = .error message) :
    message.toList = "gate `".toList ++ (command.toList ++
      '`' :: (" execution error: ".toList ++ error.toList)) := by
  have quote : "` execution error: ".toList = '`' :: " execution error: ".toList := by decide
  unfold runGateCommand at fails
  rw [failed] at fails
  cases fails
  simp only [String.toList_append, quote, List.append_assoc, List.cons_append]

theorem reported_of_none (untold : told message.toList = none) :
    parseGateError message = (1, message) := by
  rw [parseGateError_eq, untold]
  rfl

theorem reported_of_some {code : Int} {rest : List Char}
    (tells : told message.toList = some (code, rest)) :
    parseGateError message = (code, toldOutput rest) := by
  rw [parseGateError_eq, tells]
  rfl

/-- What is told behind a number is shorter than the message. -/
theorem toldOutput_ne {code : Int} {rest : List Char}
    (tells : told message.toList = some (code, rest)) : toldOutput rest ≠ message := by
  intro same
  have shorter := told_length tells
  have whole := congrArg (fun text => text.toList.length) same
  unfold toldOutput at whole
  simp only [String.toList_ofList] at whole
  cases found : Text.after [':'] rest with
  | none =>
      rw [found] at whole
      change 0 = _ at whole
      omega
  | some output =>
      rw [found] at whole
      change (Text.trim output).length = _ at whole
      have inner := Text.after_length found
      have trimmed := Text.trim_length_le output
      omega

theorem failed_reported_iff {output : GateOutput} (ran : reading.gate command dir = .ok output)
    (fits : ∀ code, output.exitCode = some code → -2147483648 ≤ code ∧ code ≤ 2147483647)
    (fails : runGateCommand reading command dir = .error message) :
    Reported (.ok output) message ↔ Unmistaken command (.ok output) := by
  have bounds : -2147483648 ≤ output.exitCode.getD (-1) ∧
      output.exitCode.getD (-1) ≤ 2147483647 := by
    cases exits : output.exitCode with
    | none => decide
    | some code => exact fits code exits
  have trimmed := Text.trim_trimmed output.stderr.toList
  have whole := message_failed ran fails
  have tells := told_message command.toList
    (failure (output.exitCode.getD (-1)) (Text.trim output.stderr.toList))
  rw [← whole, told_failure bounds.1 bounds.2] at tells
  change parseGateError message = _ ↔ _ ∨ _
  by_cases marked : MARK <:+: command.toList
  · rw [if_pos marked] at tells
    rw [or_iff_right (not_not_intro marked)]
    cases inside : told command.toList with
    | none =>
        -- the whole message is longer than what it was made of
        rw [inside] at tells
        rw [reported_of_none tells]
        refine iff_of_false (fun same => ?_) ?_
        · have longer := congrArg (fun pair => pair.2.toList.length) same
          have shorter := Text.trim_length_le output.stderr.toList
          simp only [String.toList_ofList, whole, List.length_append, List.length_cons] at longer
          unfold failure behindCode at longer
          simp only [List.length_append, List.length_cons] at longer
          split at longer
          · rename_i none
            rw [none] at longer
            simp at longer
          · simp only [List.length_cons] at longer
            omega
        · rintro ⟨rest, tells, -⟩
          exact told_eq_none.mp inside _ _ tells
    | some found =>
        obtain ⟨code, rest⟩ := found
        rw [inside] at tells
        rw [reported_of_some tells]
        constructor
        · intro same
          obtain ⟨rfl, output⟩ := Prod.mk.inj same
          exact ⟨rest, told_eq_some.mp inside,
            fun colon => toldOutput_colon trimmed colon output⟩
        · rintro ⟨rest', tells', free⟩
          rw [told_eq_some.mpr tells'] at inside
          cases inside
          exact congrArg _ (toldOutput_failure trimmed free)
  · rw [if_neg marked] at tells
    refine iff_of_true ?_ (Or.inl marked)
    have none : ':' ∉ ([] : List Char) := List.not_mem_nil
    have output := toldOutput_behindCode trimmed none
    rw [List.nil_append] at output
    rw [reported_of_some tells, output]

theorem error_reported_iff {error : String} (failed : reading.gate command dir = .error error)
    (fails : runGateCommand reading command dir = .error message) :
    Reported (.error error) message ↔ Unmistaken command (.error error) := by
  have tells := told_message command.toList (" execution error: ".toList ++ error.toList)
  have skipped : told (" execution error: ".toList ++ error.toList) = told error.toList :=
    told_skip (by decide) error.toList
  rw [← message_error failed fails, skipped] at tells
  have reported : Reported (.error error) message ↔ told message.toList = none := by
    constructor
    · intro same
      cases found : told message.toList with
      | none => rfl
      | some told =>
          have output := congrArg Prod.snd same
          rw [reported_of_some found] at output
          exact absurd output (toldOutput_ne found)
    · exact reported_of_none
  change _ ↔ _ ∧ _
  rw [reported, tells, ← told_eq_none, ← told_eq_none]
  split
  · rename_i marked
    rw [Option.map_eq_none_iff]
    exact ⟨fun untold => ⟨untold, Or.inl marked⟩, And.left⟩
  · rename_i free
    have untold : told command.toList = none := by
      unfold told
      rw [mark_eq] at free ⊢
      rw [Text.after_none free]
      rfl
    exact ⟨fun none => ⟨untold, Or.inr none⟩, fun none => none.2.resolve_left free⟩

end Messages

/-- A gate error is reported as it happened exactly where the command, and what is said of a
gate that could not be run, is not mistaken for the report. -/
theorem reported_iff (reading : Reading) (command : String) (dir : PathBuf) (message : String)
    (fits : ∀ output code, reading.gate command dir = .ok output → output.exitCode = some code →
      -2147483648 ≤ code ∧ code ≤ 2147483647)
    (fails : runGateCommand reading command dir = .error message) :
    Reported (reading.gate command dir) message ↔
      Unmistaken command (reading.gate command dir) := by
  cases ran : reading.gate command dir with
  | ok output => exact failed_reported_iff ran (fun code => fits output code ran) fails
  | error error => exact error_reported_iff ran fails

def ending (outcome : Except String GateOutput) : Reading where
  uuid := ""
  bash := fun _ _ => .ok ⟨true, "", ""⟩
  gitTopLevel := fun _ => .ok ⟨true, "/", ""⟩
  userEnv := ∅
  plan := .error (.agentNotFound "")
  runbook := .ok none
  gate := fun _ _ => outcome

/-- A test that fails in a subshell, with the same exit code. -/
theorem subshell_reported :
    Reported (.ok ⟨some 2, "make: *** [test] Error 1\n"⟩)
      "gate `make test || (exit 2)` failed (exit 2): make: *** [test] Error 1" := by
  refine (reported_iff (ending (.ok ⟨some 2, "make: *** [test] Error 1\n"⟩)) "make test || (exit 2)"
    "/" _ ?_ ?_).mpr ?_
  · rintro output code ⟨⟩ ⟨⟩
    decide
  · rfl
  · exact Or.inr ⟨[], ⟨"make test || ".toList, ['2'], by decide⟩, List.not_mem_nil⟩

/-- The exit code of a subshell in the command is taken for that of the gate. -/
theorem exit_mistaken :
    ¬∀ (reading : Reading) (command : String) (dir : PathBuf) (message : String),
      (∀ output code, reading.gate command dir = .ok output → output.exitCode = some code →
        -2147483648 ≤ code ∧ code ≤ 2147483647) →
      runGateCommand reading command dir = .error message →
      Reported (reading.gate command dir) message := by
  intro all
  have reported := all (ending (.ok ⟨some 2, "ls: out: No such file or directory"⟩))
    "make || (exit 1); ls out" "/" _ (by rintro output code ⟨⟩ ⟨⟩; decide) rfl
  have code := congrArg Prod.fst reported
  exact absurd code (by decide)

end Gate

end OddJobs
