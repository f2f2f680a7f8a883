import OddJobs.Engine.DecisionContext

/-!
# Where the daemon panics

Commands, timestamps, results and messages are written by another program.  For each place that
cuts them or subtracts what they say: exactly when it does not end the process.
-/

namespace OddJobs.AgentLog

open Library

/-! ## Cuts -/

theorem succeeds_sliceFrom {start : Nat} {text : List Char} :
    Succeeds (sliceFrom start text) ↔ Text.Boundary start text := by
  rw [← Text.split_isSome, sliceFrom]
  rcases Text.split start text with _ | ⟨front, back⟩ <;> simp

theorem succeeds_sliceTo {stop : Nat} {text : List Char} :
    Succeeds (sliceTo stop text) ↔ Text.Boundary stop text := by
  rw [← Text.split_isSome, sliceTo]
  rcases Text.split stop text with _ | ⟨front, back⟩ <;> simp

theorem sliceFrom_eq_ok {start : Nat} {text back : List Char} :
    sliceFrom start text = .ok back ↔ ∃ front, text = front ++ back ∧ Text.size front = start := by
  rw [sliceFrom]
  rcases cut : Text.split start text with _ | ⟨first, later⟩
  · refine iff_of_false (fun same => ?_) ?_
    · cases same
    rintro ⟨front, split⟩
    rw [Text.split_eq_some.mpr split] at cut
    cases cut
  · obtain ⟨rfl, sized⟩ := Text.split_eq_some.mp cut
    constructor
    · intro same
      cases same
      exact ⟨first, rfl, sized⟩
    · rintro ⟨front, split⟩
      have again := Text.split_eq_some.mpr split
      rw [cut] at again
      cases again
      rfl

/-- What stands between two bytes can be cut out if a character begins at both. -/
theorem succeeds_slice {start stop : Nat} {text : List Char} (order : start ≤ stop) :
    Succeeds (slice start stop text) ↔ Text.Boundary start text ∧ Text.Boundary stop text := by
  rw [slice, succeeds_bind, succeeds_sliceFrom]
  refine and_congr_right fun ⟨front, back, split, sized⟩ => ?_
  have position : stop = Text.size front + (stop - start) := by omega
  have found : sliceFrom start text = .ok back := sliceFrom_eq_ok.mpr ⟨front, split, sized⟩
  rw [position, split, Text.boundary_append, ← position, ← succeeds_sliceTo, ← split, found]
  simp

/-! ## Timestamps -/

section Optional

variable {α β : Type}

theorem succeeds_optional_bind {first : OptionT (Except Panic) α}
    {next : α → OptionT (Except Panic) β} :
    Succeeds (first >>= next).run ↔
      Succeeds first.run ∧ ∀ value, first.run = .ok (some value) → Succeeds (next value).run := by
  rw [OptionT.run_bind, Option.elimM, succeeds_bind]
  refine and_congr_right fun _ => ⟨fun all value same => all (some value) same, ?_⟩
  rintro all (_ | value) same
  · exact succeeds_ok _
  · exact all value same

theorem succeeds_lift {first : Except Panic α} :
    Succeeds (OptionT.lift first : OptionT (Except Panic) α).run ↔ Succeeds first := by
  cases first with
  | error error => exact iff_of_false (not_succeeds_error error) (not_succeeds_error error)
  | ok value => exact iff_of_true (succeeds_ok _) (succeeds_ok value)

/-- A number can be read between two bytes, and then what follows is safe too. -/
def NumberSafe (parse : List Char → Option α) (start stop : Nat) (text : List Char)
    (later : α → Prop) : Prop :=
  (Text.Boundary start text ∧ Text.Boundary stop text) ∧
    ∀ value, (numberAt parse start stop text).run = .ok (some value) → later value

theorem succeeds_numberAt {parse : List Char → Option α} {start stop : Nat} {text : List Char}
    {next : α → OptionT (Except Panic) β} (order : start ≤ stop) :
    Succeeds (numberAt parse start stop text >>= next).run ↔
      NumberSafe parse start stop text fun value => Succeeds (next value).run := by
  rw [succeeds_optional_bind, NumberSafe, ← succeeds_slice order]
  exact and_congr_left fun _ => succeeds_map

end Optional

def dayNumber (y : Int) (month day : Nat) : Nat :=
  let era := y.tdiv 400
  let yoe := (y - era * 400).toNat
  let mp := if month > 2 then month - 3 else month + 9
  era.toNat * 146097 + (yoe * 365 + yoe / 4 - yoe / 100 + ((153 * mp + 2) / 5 + day - 1))

/-- A date that the calendar arithmetic can deal with: not before 1970, and no day 0 of March.
January and February are counted to the year before. -/
def DateSafe (year : Int) (month day : Nat) : Prop :=
  let y := if month ≤ 2 then year - 1 else year
  ¬(month = 3 ∧ day = 0) ∧ 0 ≤ y ∧ 719468 ≤ dayNumber y month day

theorem succeeds_subtract {first second : Nat} :
    Succeeds (subtract first second) ↔ second ≤ first := by
  rw [subtract]
  split <;> simp [*]

theorem succeeds_epochSeconds (year : Int) (month day hour min sec : Nat) :
    Succeeds (epochSeconds year month day hour min sec) ↔ DateSafe year month day := by
  unfold epochSeconds DateSafe
  dsimp only
  generalize (if month ≤ 2 then year - 1 else year) = y
  have march (day : Nat) : 1 ≤ (153 * (if month > 2 then month - 3 else month + 9) + 2) / 5 + day ↔
      ¬(month = 3 ∧ day = 0) := by
    split <;> omega
  rw [succeeds_bind, succeeds_subtract, march]
  refine and_congr_right fun dated => ?_
  rw [subtract, if_pos ((march day).mpr dated)]
  by_cases sign : 0 ≤ y
  · have era : ¬y.tdiv 400 < 0 := Int.not_lt.mpr (Int.tdiv_nonneg sign (by decide : (0 : Int) ≤ 400))
    rw [if_pos sign, and_iff_right sign]
    simp only [if_neg era, succeeds_bind, succeeds_subtract, dayNumber]
    constructor
    · exact fun all => (all _ rfl).1
    · rintro enough value same
      cases same
      exact ⟨enough, fun _ _ => succeeds_ok _⟩
  · have era : (y - 399).tdiv 400 < 0 := by
      rw [show y - 399 = -(399 - y) by omega, Int.neg_tdiv, Int.tdiv_eq_ediv_of_nonneg (by omega)]
      omega
    rw [if_neg sign]
    simp only [if_pos era]
    refine iff_of_false (fun all => ?_) fun both => sign both.1
    exact not_succeeds_error _ (all _ rfl)

/-- A timestamp that can be parsed, or is found to be none, without a panic. -/
def EpochSafe (timestamp : String) : Prop :=
  let s := Text.trim timestamp.toList
  19 ≤ Text.size s →
    NumberSafe parseSigned 0 4 s fun year =>
    NumberSafe parseUnsigned 5 7 s fun month =>
    NumberSafe parseUnsigned 8 10 s fun day =>
    NumberSafe parseUnsigned 11 13 s fun _ =>
    NumberSafe parseUnsigned 14 16 s fun _ =>
    NumberSafe parseUnsigned 17 19 s fun _ => DateSafe year month day

theorem succeeds_parseIsoEpoch (timestamp : String) :
    Succeeds (parseIsoEpoch timestamp.toList).run ↔ EpochSafe timestamp := by
  unfold parseIsoEpoch EpochSafe
  dsimp only
  split
  · rename_i short
    refine iff_of_true (succeeds_ok _) fun long => ?_
    omega
  · rename_i long
    rw [forall_prop_of_true (Nat.le_of_not_lt long)]
    simp only [succeeds_numberAt (show 0 ≤ 4 by decide), succeeds_numberAt (show 5 ≤ 7 by decide),
      succeeds_numberAt (show 8 ≤ 10 by decide), succeeds_numberAt (show 11 ≤ 13 by decide),
      succeeds_numberAt (show 14 ≤ 16 by decide), succeeds_numberAt (show 17 ≤ 19 by decide),
      succeeds_lift, succeeds_epochSeconds]

/-- How long a turn took can be worked out, or found to be unknown: the times at which it began and
ended are safe, as far as they are looked at. -/
def DurationSafe (start : Option String) (stop : String) : Prop :=
  ∀ began, start = some began →
    EpochSafe began ∧ ((parseIsoEpoch began.toList).run ≠ .ok none → EpochSafe stop)

theorem succeeds_computeDurationSecs (start : Option String) (stop : String) :
    Succeeds (computeDurationSecs start stop).run ↔ DurationSafe start stop := by
  rcases start with _ | began
  · exact iff_of_true (succeeds_ok _) fun began none => by cases none
  · have unfolded : computeDurationSecs (some began) stop = (parseIsoEpoch began.toList >>=
        fun startSecs => parseIsoEpoch stop.toList >>= fun endSecs =>
          pure (endSecs - startSecs)) := rfl
    rw [unfolded, succeeds_optional_bind, succeeds_parseIsoEpoch]
    constructor
    · rintro ⟨first, second⟩ other same
      cases same
      refine ⟨first, fun timed => ?_⟩
      obtain ⟨parsed, ran⟩ := (succeeds_parseIsoEpoch began).mpr first
      rcases parsed with _ | seconds
      · exact absurd ran timed
      · exact (succeeds_parseIsoEpoch stop).mp (succeeds_optional_bind.mp (second seconds ran)).1
    · intro both
      obtain ⟨first, second⟩ := both began rfl
      refine ⟨first, fun seconds ran => succeeds_optional_bind.mpr ⟨?_, fun _ _ => ⟨_, rfl⟩⟩⟩
      refine (succeeds_parseIsoEpoch stop).mpr (second ?_)
      rw [ran]
      simp

/-! ## Records -/

section Records

variable (toLowercase : List Char → List Char)

/-- The command in a block of a message can be cut. -/
def BlockSafe (block : Value) : Prop :=
  getStr block "type" = some "tool_use" → getStr block "name" = some "Bash" →
    let command := ((getStr ((block.get "input").getD .null) "command").getD "").toList
    isOjCall command = false → 80 < Text.size command → Text.Boundary 77 command

/-- The result of a tool can be cut behind the place where the exit code stands in the lower-cased
copy. -/
def ResultSafe (content : List Char) : Prop :=
  ∀ pos, Text.find "exit code:".toList (toLowercase content) = some pos →
    Text.Boundary (pos + 10) content

/-- A record that the entries can be extracted from, where the user spoke last at a time. -/
def RecordSafe (lastUserTimestamp : Option String) (json : Value) : Prop :=
  let recordType := (getStr json "type").getD ""
  extractError json = none →
    (recordType = "assistant" → ∀ message, json.get "message" = some message →
      (∀ block ∈ ((message.get "content").bind Value.asArray).getD [], BlockSafe block) ∧
        (endsTurn message = true →
          DurationSafe lastUserTimestamp ((extractTimestamp json).getD ""))) ∧
    (recordType = "result" → ∀ content, getStr json "content" = some content →
      ResultSafe toLowercase content.toList)

theorem succeeds_bashKind (command : List Char) :
    Succeeds (bashKind command) ↔
      (isOjCall command = false → 80 < Text.size command → Text.Boundary 77 command) := by
  rw [bashKind]
  split
  · rename_i own
    exact iff_of_true (succeeds_ok _) fun other => absurd own (other ▸ Bool.false_ne_true)
  · rename_i other
    rw [forall_prop_of_true (Bool.eq_false_iff.mpr other)]
    split
    · rename_i long
      rw [forall_prop_of_true long, succeeds_bind, succeeds_sliceTo]
      exact and_iff_left fun _ _ => succeeds_ok _
    · rename_i short
      exact iff_of_true (succeeds_ok _) fun long => absurd long short

theorem succeeds_toolKind (block : Value) : Succeeds (toolKind block) ↔ BlockSafe block := by
  rw [toolKind, BlockSafe]
  split
  · rename_i other
    exact iff_of_true (succeeds_ok _) fun used => absurd used other
  · rename_i used
    rw [forall_prop_of_true (not_not.mp used)]
    rcases getStr block "name" with _ | toolName
    · exact iff_of_true (succeeds_ok _) fun none => by cases none
    · dsimp only
      split
      case h_5 => rw [forall_prop_of_true rfl, succeeds_map, succeeds_bashKind]
      case h_6 other => exact iff_of_true (succeeds_ok _) fun is => absurd (Option.some.inj is) other
      all_goals exact iff_of_true (succeeds_ok _) fun is => absurd is (by decide)

theorem succeeds_extractExitCode (content : List Char) :
    Succeeds (extractExitCode toLowercase content).run ↔ ResultSafe toLowercase content := by
  rw [extractExitCode, ResultSafe]
  rcases Text.find _ _ with _ | pos
  · exact iff_of_true (succeeds_ok _) fun pos none => by cases none
  · dsimp only
    rw [succeeds_optional_bind, succeeds_lift, succeeds_sliceFrom]
    constructor
    · rintro ⟨cut, -⟩ other same
      cases same
      exact cut
    · exact fun cut => ⟨cut pos rfl, fun after _ => succeeds_ok _⟩

theorem succeeds_toolEntries (timestamp : String) (message : Value) :
    Succeeds (toolEntries timestamp message) ↔
      ∀ block ∈ ((message.get "content").bind Value.asArray).getD [], BlockSafe block := by
  rw [toolEntries, succeeds_bind, succeeds_mapM]
  simp only [succeeds_toolKind]
  exact and_iff_left fun _ _ => succeeds_ok _

theorem succeeds_turnEntries (timestamp : String) (message : Value) (last : Option String) :
    Succeeds (turnEntries timestamp message last) ↔
      (endsTurn message = true → DurationSafe last timestamp) := by
  rw [turnEntries]
  split
  · rename_i ends
    rw [forall_prop_of_true ends, ← succeeds_computeDurationSecs, succeeds_bind]
    exact and_iff_left fun _ _ => succeeds_ok _
  · rename_i goesOn
    exact iff_of_true (succeeds_ok _) fun ends => absurd ends goesOn

/-- One record. -/
theorem succeeds_extractEntries (progress : Progress) (json : Value) :
    Succeeds (extractEntries toLowercase progress json) ↔
      RecordSafe toLowercase progress.lastUserTimestamp json := by
  unfold extractEntries RecordSafe
  dsimp only
  split
  · rename_i user
    refine iff_of_true (succeeds_ok _) fun _ => ⟨fun is => ?_, fun is => ?_⟩
    · rw [user] at is
      exact absurd is (by decide)
    · rw [user] at is
      exact absurd is (by decide)
  rcases extractError json with _ | error
  · rw [forall_prop_of_true rfl]
    dsimp only
    split
    · rename_i assistant
      rw [forall_prop_of_true assistant, assistant, and_iff_left fun is => absurd is (by decide)]
      rcases json.get "message" with _ | message
      · exact iff_of_true (succeeds_ok _) fun message none => by cases none
      · constructor
        · intro goes other same
          cases same
          obtain ⟨⟨found, made⟩, later⟩ := succeeds_bind.mp goes
          exact ⟨(succeeds_toolEntries ..).mp ⟨found, made⟩,
            (succeeds_turnEntries ..).mp (succeeds_bind.mp (later found made)).1⟩
        · intro safe
          obtain ⟨tools, turn⟩ := safe message rfl
          exact succeeds_bind.mpr ⟨(succeeds_toolEntries ..).mpr tools, fun _ _ =>
            succeeds_bind.mpr ⟨(succeeds_turnEntries ..).mpr turn, fun _ _ => succeeds_ok _⟩⟩
    · rename_i other
      rw [and_iff_right fun is => absurd is other]
      split
      · rename_i result
        rw [forall_prop_of_true result]
        rcases getStr json "content" with _ | content
        · exact iff_of_true (succeeds_ok _) fun content none => by cases none
        · rw [succeeds_bind, succeeds_extractExitCode]
          constructor
          · rintro ⟨safe, -⟩ other same
            cases same
            exact safe
          · refine fun safe => ⟨safe content rfl, fun code _ => ?_⟩
            rcases code with _ | code
            · exact succeeds_ok _
            · exact succeeds_ok _
      · rename_i neither
        exact iff_of_true (succeeds_ok _) fun is => absurd is neither
  · exact iff_of_true (succeeds_ok _) fun none => by cases none

def userBehind (last : Option String) (json : Value) : Option String :=
  if (getStr json "type").getD "" = "user" then (extractTimestamp json).or last else last

theorem user_extractEntries {progress next : Progress} {json : Value}
    (extracted : extractEntries toLowercase progress json = .ok next) :
    next.lastUserTimestamp = userBehind progress.lastUserTimestamp json := by
  unfold extractEntries at extracted
  unfold userBehind
  dsimp only at extracted
  split at extracted
  · rename_i user
    cases extracted
    rw [if_pos user]
  rename_i other
  rw [if_neg other]
  rcases error : extractError json with _ | message
  · rw [error] at extracted
    dsimp only at extracted
    split at extracted
    · rcases found : json.get "message" with _ | message <;> rw [found] at extracted
      · cases extracted
        rfl
      · obtain ⟨tools, -, extracted⟩ := bind_eq_ok.mp extracted
        obtain ⟨turn, -, extracted⟩ := bind_eq_ok.mp extracted
        cases extracted
        rfl
    · split at extracted
      · rcases found : getStr json "content" with _ | content <;> rw [found] at extracted
        · cases extracted
          rfl
        · obtain ⟨_ | code, -, extracted⟩ := bind_eq_ok.mp extracted
          · cases extracted
            rfl
          · cases extracted
            rfl
      · cases extracted
        rfl
  · rw [error] at extracted
    cases extracted
    rfl

def RecordsSafe : Option String → List Value → Prop
  | _, [] => True
  | last, json :: rest => RecordSafe toLowercase last json ∧ RecordsSafe (userBehind last json) rest

theorem succeeds_records (progress : Progress) (records : List Value) :
    Succeeds (records.foldlM (extractEntries toLowercase) progress) ↔
      RecordsSafe toLowercase progress.lastUserTimestamp records := by
  induction records generalizing progress with
  | nil => exact iff_of_true (succeeds_ok _) trivial
  | cons json rest ih =>
      rw [List.foldlM_cons, succeeds_bind, succeeds_extractEntries, RecordsSafe]
      constructor
      · rintro ⟨safe, later⟩
        obtain ⟨next, extracted⟩ := (succeeds_extractEntries toLowercase progress json).mpr safe
        have goes := (ih next).mp (later next extracted)
        rw [user_extractEntries toLowercase extracted] at goes
        exact ⟨safe, goes⟩
      · rintro ⟨safe, later⟩
        refine ⟨safe, fun next extracted => (ih next).mpr ?_⟩
        rw [user_extractEntries toLowercase extracted]
        exact later

end Records

/-! ## Messages -/

def MessageSafe (trigger : EscalationTrigger) : Prop :=
  ∀ context, trigger.assistantContext = some context →
    2000 < Text.size context.toList → Text.Boundary 2000 context.toList

theorem succeeds_buildContext (displayName : String) (tail : Option String)
    (trigger : EscalationTrigger) :
    Succeeds (trigger.buildContext displayName tail) ↔ MessageSafe trigger := by
  rw [EscalationTrigger.buildContext, succeeds_bind_pure, EscalationTrigger.contextPart,
    MessageSafe]
  rcases trigger.assistantContext with _ | context
  · exact iff_of_true (succeeds_ok _) fun context none => by cases none
  · dsimp only
    split
    · rename_i blank
      refine iff_of_true (succeeds_ok _) fun other same long => ?_
      cases same
      rw [blank] at long
      exact absurd long (by decide)
    · rw [succeeds_bind_pure, EscalationTrigger.truncated]
      split
      · rename_i long
        rw [succeeds_sliceTo]
        constructor
        · intro cut other same _
          cases same
          exact cut
        · exact fun safe => safe context rfl long
      · rename_i short
        refine iff_of_true (succeeds_ok _) fun other same long => ?_
        cases same
        exact absurd long short

/-- No session log ends the process, and no last message of an agent, if and only if every cut
falls on a character boundary and every time is one that the arithmetic can deal with. -/
theorem never_panics_iff (toLowercase : List Char → List Char)
    (fromStr : List Char → Option Value) (content : List UInt8) (offset : Nat) (id : DecisionId)
    (owner : OwnerId) (displayName : String) (agentId tail : Option String) (createdAtMs : Nat)
    (ns : String) (trigger : EscalationTrigger) :
    Succeeds (parseEntriesFrom toLowercase fromStr (some content) offset) ∧
        Succeeds (trigger.buildDecision id owner displayName agentId tail createdAtMs ns) ↔
      RecordsSafe toLowercase none (SessionLog.recordsIn fromStr (content.drop offset)) ∧
        MessageSafe trigger := by
  rw [parseEntriesFrom, SessionLog.readFrom_eq, succeeds_map, succeeds_map, succeeds_records,
    EscalationTrigger.buildDecision, succeeds_bind_pure, succeeds_buildContext]

/-! ## A command that is cut inside a letter -/

/-- A command of 82 bytes, where a letter of two bytes stands around byte 77. -/
def accentedCommand : List Char := List.replicate 76 'a' ++ ['é', 'é', 'é']

def accentedLine : List Char :=
  ("\x7b\"type\":\"assistant\",\"message\":\x7b\"content\":[\x7b\"type\":\"tool_use\"," ++
    "\"name\":\"Bash\",\"input\":\x7b\"command\":\"").toList ++ accentedCommand ++
      "\"\x7d\x7d]\x7d\x7d".toList

def accentedRecord : Value :=
  .object [("type", .string "assistant"), ("message", .object [("content", .array [.object
    [("type", .string "tool_use"), ("name", .string "Bash"),
      ("input", .object [("command", .string (String.ofList accentedCommand))])]])])]

theorem accented_cut : extractEntries id ⟨[], none⟩ accentedRecord = .error .slice := by
  rfl

/-- The command cannot be cut at byte 77. -/
theorem accented_command_panics :
    ¬∀ (toLowercase : List Char → List Char) (fromStr : List Char → Option Value)
      (content : List UInt8) (offset : Nat) (id : DecisionId) (owner : OwnerId)
      (displayName : String) (agentId tail : Option String) (createdAtMs : Nat) (ns : String)
      (trigger : EscalationTrigger),
      Succeeds (parseEntriesFrom toLowercase fromStr (some content) offset) ∧
        Succeeds (trigger.buildDecision id owner displayName agentId tail createdAtMs ns) := by
  intro goes
  let fromStr (text : List Char) : Option Value :=
    if text = accentedLine then some accentedRecord else none
  have single : '\n' ∉ accentedLine := by decide +kernel
  have trimmed : Text.trim (accentedLine ++ ['\n']) = accentedLine := by decide +kernel
  have written : accentedLine ≠ [] := by decide +kernel
  have parses : SessionLog.recordOf fromStr (accentedLine ++ ['\n']) = some accentedRecord := by
    rw [SessionLog.recordOf, trimmed]
    exact (if_neg written).trans (if_pos rfl)
  have read := (goes id fromStr (SessionLog.writeLine accentedLine) 0 "d" (.job "j") "build" none
    none 0 "" (.idle none)).1
  rw [parseEntriesFrom, SessionLog.readFrom_eq, succeeds_map, succeeds_map, List.drop_zero,
    SessionLog.recordsIn_writeLine single parses, List.foldlM_cons, accented_cut] at read
  exact not_succeeds_error _ read

end OddJobs.AgentLog
