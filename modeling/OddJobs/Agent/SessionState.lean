import OddJobs.Agent.LogEntry
import OddJobs.Engine.Runtime

/-!
# States of agents

The last line of a session log says whether the agent works or waits.  The parser keeps an offset
and the line it saw last, which may be the beginning of a line that is still written.
-/

namespace OddJobs

open Library

section States

-- `str::to_lowercase` and `serde_json::from_str`
variable (toLowercase : List Char → List Char) (fromStr : List Char → Option Value)

def detectError (json : Value) : Option AgentError :=
  (AgentLog.extractError json).map fun err =>
    let lower := toLowercase err.toList
    let has := fun patterns : List String =>
      patterns.any fun pattern => (Text.find pattern.toList lower).isSome
    if has ["unauthorized", "invalid api key"] then .unauthorized
    else if has ["credit", "quota", "billing"] then .outOfCredits
    else if has ["network", "connection", "offline"] then .noInternet
    else if has ["rate limit", "too many requests"] then .rateLimited
    else .other err

/-- Both tool use and thinking say that the agent works. -/
def hasActive (message : Value) : Bool :=
  (((message.get "content").bind Value.asArray).getD []).any fun item =>
    AgentLog.getStr item "type" == some "tool_use" || AgentLog.getStr item "type" == some "thinking"

def parseStateFromLine (line : List Char) : AgentState :=
  match fromStr line with
  | none => .working
  | some json =>
      match detectError toLowercase json with
      | some failure => .failed failure
      | none =>
          if AgentLog.getStr json "type" ≠ some "assistant" then .working
          else
            match (json.get "message").bind (·.get "stop_reason") with
            | none | some .null =>
                if ((json.get "message").map hasActive).getD false then .working
                else .waitingForInput
            -- an unexpected stop reason
            | some _ => .working

structure SessionLogParser where
  lastOffset : Nat
  lastLine : List Char
  deriving DecidableEq, Repr

namespace SessionLogParser

def new : SessionLogParser := ⟨0, []⟩

def readLines : List (List UInt8) → SessionLogParser → SessionLogParser
  | [], parser => parser
  | raw :: rest, parser =>
      match Text.decode raw with
      | none => parser
      | some line =>
          let trimmed := Text.trim line
          if line.getLast? = some '\n' then
            let offset := parser.lastOffset + raw.length
            if trimmed = [] then readLines rest { parser with lastOffset := offset }
            else readLines rest ⟨offset, trimmed⟩
          else if trimmed = [] then parser
          else { parser with lastLine := trimmed }

/-- Parse the session log incrementally, reading only content appended since the last call. -/
def parse (parser : SessionLogParser) (file : Option (List UInt8)) :
    AgentState × SessionLogParser :=
  match file with
  | none => (.working, parser)
  | some content =>
      let parser := if content.length < parser.lastOffset then new else parser
      let parser :=
        if content.length = parser.lastOffset then parser
        else readLines (Lines.lines SessionLog.newline (content.drop parser.lastOffset)) parser
      (parseStateFromLine toLowercase fromStr parser.lastLine, parser)

end SessionLogParser

def parseSessionLog (file : Option (List UInt8)) : AgentState :=
  (SessionLogParser.new.parse toLowercase fromStr file).1

/-- The states that a parser returns for each content of a log. -/
def parseAll (parser : SessionLogParser) : List (List UInt8) → List AgentState
  | [] => []
  | content :: rest =>
      let (state, parser) := parser.parse toLowercase fromStr (some content)
      state :: parseAll parser rest

end States

namespace SessionLog

/-! ## The line that is still written -/

def complete (content : List UInt8) : List UInt8 := content.rdropWhile (· != newline)

def unfinished (content : List UInt8) : List UInt8 := content.rtakeWhile (· != newline)

/-- What is kept of a line; nothing where it is blank or cannot be decoded. -/
def shown (raw : List UInt8) : Option (List Char) :=
  (Text.decode raw).bind fun line => if Text.trim line = [] then none else some (Text.trim line)

def shownLast (lines : List (List UInt8)) : Option (List Char) := (lines.filterMap shown).getLast?

def settled (content : List UInt8) : List Char :=
  (shownLast (Lines.lines newline (complete content))).getD []

/-- What an earlier content, the newest first, showed of the line that is still written. -/
def stale (earlier : List (List UInt8)) (content : List UInt8) : Option (List Char) :=
  earlier.findSome? fun other =>
    if (complete other).length = (complete content).length then shown (unfinished other) else none

theorem complete_append_unfinished (content : List UInt8) :
    complete content ++ unfinished content = content :=
  List.rdropWhile_append_rtakeWhile

theorem newline_notMem_unfinished (content : List UInt8) : newline ∉ unfinished content := by
  intro member
  simpa using List.mem_rtakeWhile_imp member

theorem terminated_complete (content : List UInt8) :
    Lines.Terminated newline (complete content) := by
  rcases List.eq_nil_or_concat (complete content) with none | ⟨front, last, ends⟩
  · exact .inl none
  · have nonempty : complete content ≠ [] := by simp [ends]
    have stops := List.rdropWhile_last_not (· != newline) content nonempty
    have same : last = newline := by
      change ¬((complete content).getLast nonempty != newline) = true at stops
      simpa [ends] using stops
    rw [List.concat_eq_append, same] at ends
    exact .inr ⟨front, ends⟩

/-- Behind a line feed the parts of a content are those of the rest. -/
theorem complete_append {front : List UInt8} (ends : Lines.Terminated newline front)
    (rest : List UInt8) : complete (front ++ rest) = front ++ complete rest := by
  have whole : complete front = front := by
    refine List.rdropWhile_eq_self_iff.mpr fun nonempty => ?_
    rcases ends with rfl | ⟨line, rfl⟩
    · exact absurd rfl nonempty
    · simp
  rw [complete, List.rdropWhile, List.reverse_append, List.dropWhile_append]
  split
  · rename_i blank
    have none : complete rest = [] := by
      rw [complete, List.rdropWhile, List.isEmpty_iff.mp blank]
      rfl
    rw [none, List.append_nil]
    exact whole
  · simp [complete, List.rdropWhile]

theorem unfinished_append {front : List UInt8} (ends : Lines.Terminated newline front)
    (rest : List UInt8) : unfinished (front ++ rest) = unfinished rest := by
  have whole := complete_append_unfinished (front ++ rest)
  rw [complete_append ends, List.append_assoc, List.append_right_inj] at whole
  exact List.append_cancel_left (whole.trans (complete_append_unfinished rest).symm)

theorem complete_prefix {content next : List UInt8} (grows : content <+: next) :
    ∃ rest, next = complete content ++ rest ∧ complete next = complete content ++ complete rest ∧
      unfinished next = unfinished rest := by
  obtain ⟨more, rfl⟩ := grows
  refine ⟨unfinished content ++ more, ?_, ?_, ?_⟩
  · rw [← List.append_assoc, complete_append_unfinished]
  · rw [← complete_append (terminated_complete content), ← List.append_assoc,
      complete_append_unfinished]
  · rw [← unfinished_append (terminated_complete content) (unfinished content ++ more),
      ← List.append_assoc, complete_append_unfinished]

/-- A line that is still the same only grows. -/
theorem unfinished_grows {other next : List UInt8} (grows : other <+: next)
    (same : (complete other).length = (complete next).length) :
    unfinished other <+: unfinished next := by
  obtain ⟨rest, split, completes, leaves⟩ := complete_prefix grows
  have none : complete rest = [] := by
    rw [completes, List.length_append] at same
    exact List.length_eq_zero_iff.mp (by omega)
  have whole := complete_append_unfinished rest
  rw [none, List.nil_append] at whole
  have begins : complete other ++ unfinished other <+: complete other ++ rest := by
    rw [complete_append_unfinished, ← split]
    exact grows
  rw [leaves, whole]
  exact (List.prefix_append_right_inj _).mp begins

/-! ## Contents of a text -/

/-- The complete lines of a text are a text, wherever it is cut. -/
theorem text_of_terminated {done : List UInt8} {text : List Char}
    (ends : Lines.Terminated newline done) (within : done <+: Text.encode text) :
    ∃ front, done = Text.encode front := by
  induction text generalizing done with
  | nil => exact ⟨[], List.prefix_nil.mp within⟩
  | cons c rest ih =>
      obtain ⟨more, whole⟩ := within
      have bytes : Text.encode (c :: rest) = String.utf8EncodeChar c ++ Text.encode rest := rfl
      rw [bytes] at whole
      rcases List.append_eq_append_iff.mp whole with ⟨later, inside, -⟩ | ⟨later, rfl, after⟩
      · rcases ends with rfl | ⟨line, rfl⟩
        · exact ⟨[], rfl⟩
        · -- the character holds a line feed, so it is one
          have feed : c = '\n' := Text.newline_mem_utf8EncodeChar.mp (by simp [inside, newline])
          have one : String.utf8EncodeChar c = [newline] := by
            rw [feed]
            exact Text.encode_newline
          have length := congrArg List.length (one.symm.trans inside)
          simp only [List.length_append, List.length_singleton] at length
          have none : line = [] := List.length_eq_zero_iff.mp (by omega)
          exact ⟨['\n'], by rw [none]; rfl⟩
      · have goes_on : Lines.Terminated newline later := by
          rcases List.eq_nil_or_concat later with none | ⟨front, last, split⟩
          · exact .inl none
          · rcases ends with none | ⟨line, ends⟩
            · exact absurd (List.append_eq_nil_iff.mp none).1 String.utf8EncodeChar_ne_nil
            · rw [split, List.concat_eq_append, ← List.append_assoc] at ends
              rw [List.concat_eq_append, (List.append_inj' ends rfl).2] at split
              exact .inr ⟨front, split⟩
        obtain ⟨front, rfl⟩ := ih goes_on ⟨more, after.symm⟩
        exact ⟨c :: front, rfl⟩

/-- So each of them can be decoded. -/
theorem completeLine_of_mem {content raw : List UInt8} {text : List Char}
    (within : content <+: Text.encode text)
    (member : raw ∈ Lines.lines newline (complete content)) :
    ∃ line, Text.decode raw = some line ∧ line.getLast? = some '\n' := by
  have stops := Lines.stop_mem_of_terminated (terminated_complete content) member
  have begins := List.rdropWhile_prefix (· != newline) content
  obtain ⟨front, is⟩ :=
    text_of_terminated (terminated_complete content) (begins.trans within)
  rw [is] at member
  obtain ⟨line, listed, rfl⟩ : ∃ line, line ∈ Lines.lines '\n' front ∧ Text.encode line = raw := by
    rw [show newline = 10 from rfl, Text.lines_encode] at member
    exact List.mem_map.mp member
  refine ⟨line, Text.decode_encode line, ?_⟩
  obtain ⟨begins, inside, rfl | rfl⟩ := Lines.mem_lines_shape listed
  · exact absurd (Text.newline_mem_encode.mp stops) inside
  · simp

/-- A line of which a beginning was shown is not blank. -/
theorem shown_of_prefix {raw whole : List UInt8} {fragment line : List Char}
    (grows : raw <+: whole) (first : shown raw = some fragment)
    (decoded : Text.decode whole = some line) : shown whole = some (Text.trim line) := by
  obtain ⟨begins, read, kept⟩ := Option.bind_eq_some_iff.mp first
  have nonblank : Text.trim begins ≠ [] := by
    rintro blank
    rw [if_pos blank] at kept
    cases kept
  obtain ⟨more, rfl⟩ := grows
  have within : begins <+: line := by
    apply Text.prefix_of_encode
    rw [Text.encode_of_decode read, Text.encode_of_decode decoded]
  have goes_on : Text.trim line ≠ [] := by
    intro blank
    exact nonblank (Text.trim_of_blank fun c member =>
      Text.blank_of_trim blank c (within.subset member))
  rw [shown, decoded, Option.bind_some, if_neg goes_on]

/-! ## What an earlier content showed -/

theorem stale_eq_some {earlier : List (List UInt8)} {content : List UInt8} {fragment : List Char}
    (found : stale earlier content = some fragment) :
    ∃ other ∈ earlier, (complete other).length = (complete content).length ∧
      shown (unfinished other) = some fragment := by
  obtain ⟨other, member, shows⟩ := List.exists_of_findSome?_eq_some found
  split at shows
  · exact ⟨other, member, ‹_›, shows⟩
  · cases shows

/-- Nothing was shown of a line that is blank so far. -/
theorem stale_of_blank {earlier : List (List UInt8)} {content : List UInt8} {line : List Char}
    (older : ∀ other ∈ earlier, other <+: content) (blank : shown (unfinished content) = none)
    (decoded : Text.decode (unfinished content) = some line) : stale earlier content = none := by
  refine Option.eq_none_iff_forall_ne_some.mpr fun fragment found => ?_
  obtain ⟨other, member, same, shows⟩ := stale_eq_some found
  have kept := shown_of_prefix (unfinished_grows (older other member) same) shows decoded
  rw [kept] at blank
  cases blank

theorem shownLast_append (first second : List (List UInt8)) :
    shownLast (first ++ second) = (shownLast second).or (shownLast first) := by
  rw [shownLast, List.filterMap_append, List.getLast?_append]
  rfl

/-- Behind new lines nothing of them is known, and what was shown of the first is not blank. -/
theorem stale_of_longer {earlier : List (List UInt8)} {content next rest : List UInt8}
    {text : List Char} (older : ∀ other ∈ earlier, other <+: content) (grows : content <+: next)
    (split : next = complete content ++ rest)
    (completes : complete next = complete content ++ complete rest) (more : complete rest ≠ [])
    (within : next <+: Text.encode text) :
    stale earlier next = none ∧
      (shownLast (Lines.lines newline (complete rest)) = none → stale earlier content = none) := by
  have longer : (complete content).length < (complete next).length := by
    rw [completes, List.length_append]
    have positive := List.length_pos_iff.mpr more
    omega
  constructor
  · refine Option.eq_none_iff_forall_ne_some.mpr fun fragment found => ?_
    obtain ⟨other, member, same, -⟩ := stale_eq_some found
    obtain ⟨_, -, grown, -⟩ := complete_prefix (older other member)
    have length := congrArg List.length grown
    rw [List.length_append] at length
    omega
  · intro blank
    refine Option.eq_none_iff_forall_ne_some.mpr fun fragment found => ?_
    obtain ⟨other, member, same, shows⟩ := stale_eq_some found
    -- the line began behind the same line feed, so its beginning is one of the first new line
    have begins : unfinished other <+: rest := by
      obtain ⟨later, whole, completed, -⟩ := complete_prefix (older other member)
      have none : complete later = [] := by
        rw [completed, List.length_append] at same
        exact List.length_eq_zero_iff.mp (by omega)
      rw [none, List.append_nil] at completed
      have grown : complete content ++ unfinished other <+: complete content ++ rest := by
        rw [← split, completed, complete_append_unfinished]
        exact (older other member).trans grows
      exact (List.prefix_append_right_inj _).mp grown
    have nonempty : Lines.lines newline (complete rest) ≠ [] := Lines.lines_ne_nil more
    obtain ⟨first, others, lines⟩ := List.exists_cons_of_ne_nil nonempty
    have member' : first ∈ Lines.lines newline (complete rest) := by simp [lines]
    have stops := Lines.stop_mem_of_terminated (terminated_complete rest) member'
    have leads : first <+: rest := by
      refine ⟨others.flatten ++ unfinished rest, ?_⟩
      rw [← List.append_assoc, ← List.flatten_cons, ← lines, Lines.flatten_lines,
        complete_append_unfinished]
    have inside : unfinished other <+: first := by
      rcases List.prefix_or_prefix_of_prefix begins leads with shorter | longer
      · exact shorter
      · exact absurd (longer.subset stops) (newline_notMem_unfinished other)
    have listed : first ∈ Lines.lines newline (complete next) := by
      rw [completes, Lines.lines_append (terminated_complete content)]
      exact List.mem_append_right _ member'
    obtain ⟨line, decoded, -⟩ := completeLine_of_mem within listed
    have kept := shown_of_prefix inside shows decoded
    have none : shown first = none := by
      rw [shownLast, List.getLast?_eq_none_iff, List.filterMap_eq_nil_iff] at blank
      exact blank first member'
    rw [kept] at none
    cases none

end SessionLog

namespace SessionLogParser

open SessionLog

/-! ## One growth -/

theorem readLines_complete {full later : List (List UInt8)} {parser : SessionLogParser}
    (complete : ∀ raw ∈ full, ∃ line, Text.decode raw = some line ∧ line.getLast? = some '\n') :
    readLines (full ++ later) parser = readLines later
      ⟨parser.lastOffset + full.flatten.length, (shownLast full).getD parser.lastLine⟩ := by
  induction full generalizing parser with
  | nil => rfl
  | cons raw rest ih =>
      obtain ⟨line, decoded, ends⟩ := complete raw List.mem_cons_self
      have next := fun parser => @ih parser fun other member =>
        complete other (List.mem_cons_of_mem _ member)
      have kept : shownLast (raw :: rest) = (shownLast rest).or (shown raw) := by
        rw [← List.singleton_append, shownLast_append]
        cases shows : shown raw <;> simp [shownLast, shows]
      rw [List.cons_append, readLines, decoded]
      simp only [ends, if_true, List.flatten_cons, List.length_append, ← Nat.add_assoc, kept]
      by_cases blank : Text.trim line = []
      · simp [blank, next, shown, decoded]
      · rw [if_neg blank, next]
        cases shownLast rest <;> simp [blank, shown, decoded]

theorem readLines_unfinished {partly : List UInt8} {parser : SessionLogParser}
    (inside : newline ∉ partly) :
    readLines (Lines.lines newline partly) parser =
      { parser with lastLine := (shown partly).getD parser.lastLine } := by
  by_cases nothing : partly = []
  · subst nothing
    rfl
  rw [Lines.lines_unterminated nothing inside, readLines]
  rcases decoded : Text.decode partly with _ | line
  · simp [shown, decoded]
  · have open_ : line.getLast? ≠ some '\n' := by
      intro ends
      obtain ⟨front, rfl⟩ := List.getLast?_eq_some_iff.mp ends
      rw [← Text.encode_of_decode decoded] at inside
      exact inside (Text.newline_mem_encode.mpr (by simp))
    by_cases blank : Text.trim line = [] <;> simp [open_, blank, shown, decoded]

variable {toLowercase : List Char → List Char} {fromStr : List Char → Option Value}

/-- A parser that stands behind the complete lines of a content reads on there. -/
theorem parse_grown {parser : SessionLogParser} {next front rest : List UInt8} {text : List Char}
    (behind : parser.lastOffset = front.length) (split : next = front ++ rest)
    (ends : Lines.Terminated newline front) (within : next <+: Text.encode text) :
    let line := (shown (unfinished next)).getD
      ((shownLast (Lines.lines newline (complete rest))).getD parser.lastLine)
    parser.parse toLowercase fromStr (some next) =
      (parseStateFromLine toLowercase fromStr line, ⟨(complete next).length, line⟩) := by
  have completes : complete next = front ++ complete rest := by rw [split, complete_append ends]
  have leaves : unfinished next = unfinished rest := by rw [split, unfinished_append ends]
  have long : ¬next.length < parser.lastOffset := by
    rw [split, behind, List.length_append]
    omega
  have decodes : ∀ raw ∈ Lines.lines newline (complete rest),
      ∃ line, Text.decode raw = some line ∧ line.getLast? = some '\n' := by
    intro raw member
    refine completeLine_of_mem within ?_
    rw [completes, Lines.lines_append ends]
    exact List.mem_append_right _ member
  have lines : Lines.lines newline rest =
      Lines.lines newline (complete rest) ++ Lines.lines newline (unfinished rest) := by
    rw [← Lines.lines_append (terminated_complete rest), complete_append_unfinished]
  have read : readLines (Lines.lines newline rest) parser =
      ⟨(complete next).length, (shown (unfinished next)).getD
        ((shownLast (Lines.lines newline (complete rest))).getD parser.lastLine)⟩ := by
    rw [lines, readLines_complete decodes, readLines_unfinished (newline_notMem_unfinished rest),
      Lines.flatten_lines, behind, ← List.length_append, ← completes, leaves]
  have dropped : next.drop parser.lastOffset = rest := by rw [split, behind, List.drop_left]
  have skipped : (if next.length = parser.lastOffset then parser
      else readLines (Lines.lines newline rest) parser) =
        readLines (Lines.lines newline rest) parser := by
    split
    · rename_i same
      have none : rest = [] := by
        rw [split, behind, List.length_append] at same
        exact List.length_eq_zero_iff.mp (by omega)
      rw [none]
      rfl
    · rfl
  simp only [parse, if_neg long, dropped, skipped.trans read]

/-- What a parser knows that has seen some contents, the newest last. -/
structure Tracks (parser : SessionLogParser) (earlier : List (List UInt8)) (content : List UInt8) :
    Prop where
  behind : parser.lastOffset = (complete content).length
  line : parser.lastLine = (stale (content :: earlier) content).getD (settled content)
  older : ∀ other ∈ content :: earlier, other <+: content

end SessionLogParser

/-- The state of a log is that of its last line that can be decoded and is not blank. -/
theorem parseSessionLog_eq {content : List UInt8} {text : List Char}
    {toLowercase : List Char → List Char} {fromStr : List Char → Option Value}
    (within : content <+: Text.encode text) :
    parseSessionLog toLowercase fromStr (some content) = parseStateFromLine toLowercase fromStr
      ((SessionLog.shown (SessionLog.unfinished content)).getD (SessionLog.settled content)) := by
  have read := @SessionLogParser.parse_grown toLowercase fromStr .new content [] content text
    rfl rfl Lines.terminated_nil within
  rw [parseSessionLog, read]
  rfl

namespace SessionLogParser

open SessionLog

section Growing

variable {toLowercase : List Char → List Char} {fromStr : List Char → Option Value}

/-- A growth is read as it is, with what was shown of its last line in place of what cannot be
decoded. -/
theorem parse_tracks {parser : SessionLogParser} {earlier : List (List UInt8)}
    {content next : List UInt8} {text : List Char} (tracks : Tracks parser earlier content)
    (grows : content <+: next) (within : next <+: Text.encode text) :
    let read := parser.parse toLowercase fromStr (some next)
    read.1 = parseStateFromLine toLowercase fromStr read.2.lastLine ∧
      Tracks read.2 (content :: earlier) next := by
  obtain ⟨rest, split, completes, leaves⟩ := complete_prefix grows
  have read := @parse_grown toLowercase fromStr parser next _ rest text tracks.behind split
    (terminated_complete content) within
  dsimp only at read ⊢
  rw [read]
  refine ⟨rfl, rfl, ?_, ?_⟩
  · have own : stale (next :: content :: earlier) next =
        (shown (unfinished next)).or (stale (content :: earlier) next) := by
      rw [stale, List.findSome?_cons, if_pos rfl]
      cases shown (unfinished next) <;> rfl
    rw [own]
    cases shows : shown (unfinished next) with
    | some line => rfl
    | none =>
        rw [Option.none_or, Option.getD_none, tracks.line]
        by_cases more : complete rest = []
        · -- the line is the one that was unfinished before
          rw [more, List.append_nil] at completes
          simp only [stale, settled, completes, more]
          rfl
        · obtain ⟨unknown, fresh⟩ := stale_of_longer tracks.older grows split completes more within
          have settles : settled next =
              (shownLast (Lines.lines newline (complete rest))).getD (settled content) := by
            rw [settled, completes, Lines.lines_append (terminated_complete content),
              shownLast_append]
            cases shownLast (Lines.lines newline (complete rest)) <;> rfl
          rw [unknown, settles, Option.getD_none]
          cases newest : shownLast (Lines.lines newline (complete rest)) with
          | some line => rfl
          | none =>
              rw [fresh newest]
              rfl
  · intro other member
    rcases List.mem_cons.mp member with rfl | member
    · exact List.prefix_rfl
    · exact (tracks.older other member).trans grows

end Growing

end SessionLogParser

section Runs

variable (toLowercase : List Char → List Char) (fromStr : List Char → Option Value)

/-- Where a content is cut inside a character, what was shown of the same line before says the same
as the last complete line. -/
def Undisturbed (earlier : List (List UInt8)) : List (List UInt8) → Prop
  | [] => True
  | content :: rest =>
      (Text.decode (SessionLog.unfinished content) = none →
        ∀ fragment, SessionLog.stale earlier content = some fragment →
          parseStateFromLine toLowercase fromStr fragment =
            parseStateFromLine toLowercase fromStr (SessionLog.settled content)) ∧
      Undisturbed (content :: earlier) rest

variable {toLowercase fromStr}

/-- The state of a line with what was shown of it before is that of the log if and only if the log
is not disturbed there. -/
theorem state_iff {earlier : List (List UInt8)} {content : List UInt8} {text : List Char}
    (older : ∀ other ∈ content :: earlier, other <+: content)
    (within : content <+: Text.encode text) :
    parseStateFromLine toLowercase fromStr
        ((SessionLog.stale (content :: earlier) content).getD (SessionLog.settled content)) =
      parseSessionLog toLowercase fromStr (some content) ↔
    (Text.decode (SessionLog.unfinished content) = none →
      ∀ fragment, SessionLog.stale earlier content = some fragment →
        parseStateFromLine toLowercase fromStr fragment =
          parseStateFromLine toLowercase fromStr (SessionLog.settled content)) := by
  rw [parseSessionLog_eq within, SessionLog.stale, List.findSome?_cons, if_pos rfl]
  cases shows : SessionLog.shown (SessionLog.unfinished content) with
  | some line =>
      refine iff_of_true rfl fun undecoded => ?_
      rw [SessionLog.shown, undecoded] at shows
      cases shows
  | none =>
      change parseStateFromLine toLowercase fromStr
        ((SessionLog.stale earlier content).getD _) = _ ↔ _
      cases known : SessionLog.stale earlier content with
      | none => exact iff_of_true rfl fun _ _ found => by cases found
      | some fragment =>
          have undecoded : Text.decode (SessionLog.unfinished content) = none := by
            refine Option.eq_none_iff_forall_ne_some.mpr fun line decoded => ?_
            have unknown := SessionLog.stale_of_blank (fun other member =>
              older other (List.mem_cons_of_mem _ member)) shows decoded
            rw [known] at unknown
            cases unknown
          simp [undecoded]

theorem parseAll_tracks {parser : SessionLogParser} {earlier contents : List (List UInt8)}
    {content : List UInt8} {text : List Char} (tracks : parser.Tracks earlier content)
    (grows : (content :: contents).IsChain (· <+: ·))
    (within : ∀ next ∈ contents, next <+: Text.encode text) :
    parseAll toLowercase fromStr parser contents =
        contents.map (fun content => parseSessionLog toLowercase fromStr (some content)) ↔
      Undisturbed toLowercase fromStr (content :: earlier) contents := by
  induction contents generalizing parser earlier content with
  | nil => exact iff_of_true rfl trivial
  | cons next rest ih =>
      obtain ⟨first, later⟩ := List.isChain_cons_cons.mp grows
      have inside := within next List.mem_cons_self
      obtain ⟨state, tracks⟩ := @SessionLogParser.parse_tracks toLowercase fromStr parser earlier
        content next text tracks first inside
      rw [parseAll, List.map_cons, List.cons.injEq, Undisturbed]
      refine and_congr ?_ (ih tracks later fun other member =>
        within other (List.mem_cons_of_mem _ member))
      rw [state, tracks.line]
      exact state_iff tracks.older inside

/-- An empty log shows nothing. -/
theorem undisturbed_empty {earlier contents : List (List UInt8)} :
    Undisturbed toLowercase fromStr (earlier ++ [[]]) contents ↔
      Undisturbed toLowercase fromStr earlier contents := by
  induction contents generalizing earlier with
  | nil => exact Iff.rfl
  | cons content rest ih =>
      have known : SessionLog.stale (earlier ++ [[]]) content =
          SessionLog.stale earlier content := by
        have nothing : SessionLog.shown (SessionLog.unfinished []) = none := rfl
        rw [SessionLog.stale, List.findSome?_append, ← SessionLog.stale]
        simp [nothing]
      rw [Undisturbed, Undisturbed, known, ← List.cons_append, ih]

/-- The states that a parser returns while a log grows are the states of the log if and only if
nothing that it showed of a line disturbs it where the line is cut inside a character. -/
theorem parseAll_iff {contents : List (List UInt8)} {text : List Char}
    (grows : contents.IsChain (· <+: ·))
    (within : ∀ content ∈ contents, content <+: Text.encode text) :
    parseAll toLowercase fromStr .new contents =
        contents.map (fun content => parseSessionLog toLowercase fromStr (some content)) ↔
      Undisturbed toLowercase fromStr [] contents := by
  have begun : SessionLogParser.new.Tracks [] [] :=
    ⟨rfl, rfl, fun other member => by simp [List.mem_singleton.mp member]⟩
  have chained : ([] :: contents).IsChain (· <+: ·) := by
    cases contents with
    | nil => exact .singleton _
    | cons content rest => exact List.isChain_cons_cons.mpr ⟨List.nil_prefix, grows⟩
  rw [parseAll_tracks begun chained within]
  exact @undisturbed_empty toLowercase fromStr [] contents

end Runs

/-! ## A line that is cut inside a character -/

namespace IdleLog

def idleLine : List Char := "\x7b\"type\":\"assistant\"\x7d".toList

def userLine : List Char := "\x7b\"type\":\"user\",\"text\":\"é\"\x7d".toList

/-- How the two lines are parsed; no beginning of them is JSON. -/
def parseLine (text : List Char) : Option Value :=
  if text = idleLine then some (.object [("type", .string "assistant")])
  else if text = userLine then some (.object [("type", .string "user"), ("text", .string "é")])
  else none

def text : List Char := idleLine ++ '\n' :: userLine

def upTo (length : Nat) : List UInt8 := (Text.encode text).take length

theorem upTo_within {lengths : List Nat} :
    ∀ content ∈ lengths.map upTo, content <+: Text.encode text := by
  intro content member
  obtain ⟨length, -, rfl⟩ := List.mem_map.mp member
  exact List.take_prefix ..

theorem upTo_grows {first second : Nat} (le : first ≤ second) : upTo first <+: upTo second :=
  List.take_prefix_take_left le

end IdleLog

open IdleLog in
/-- Nothing was shown of the second line before it is cut. -/
theorem idleLog_followed :
    parseAll id parseLine .new ([21, 45, 48].map upTo) =
      ([21, 45, 48].map upTo).map fun content => parseSessionLog id parseLine (some content) := by
  have grows : ([21, 45, 48].map upTo).IsChain (· <+: ·) := by simp [upTo_grows]
  refine (parseAll_iff grows upTo_within).mpr ⟨?_, ?_, ?_, trivial⟩
  · intro _ fragment shown
    cases shown
  · intro _ fragment shown
    have nothing : SessionLog.stale [upTo 21] (upTo 45) = none := by decide +kernel
    rw [nothing] at shown
    cases shown
  · intro undecoded
    have whole : Text.decode (SessionLog.unfinished (upTo 48)) = some userLine := by decide +kernel
    rw [whole] at undecoded
    cases undecoded

open IdleLog in
/-- An agent that waits is taken to work while the next line is cut inside a character. -/
theorem idleLog_stale :
    ¬∀ (toLowercase : List Char → List Char) (fromStr : List Char → Option Value)
      (contents : List (List UInt8)) (text : List Char), contents.IsChain (· <+: ·) →
        (∀ content ∈ contents, content <+: Text.encode text) →
          parseAll toLowercase fromStr .new contents =
            contents.map fun content => parseSessionLog toLowercase fromStr (some content) := by
  intro same
  have states := same id parseLine ([21, 30, 45].map upTo) text (by simp [upTo_grows]) upTo_within
  revert states
  decide +kernel

end OddJobs
