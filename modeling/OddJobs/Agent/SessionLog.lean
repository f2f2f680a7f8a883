import OddJobs.Core.Event
import OddJobs.Library.Lines
import OddJobs.Library.Results
import OddJobs.Library.Text

/-!
# Session logs

An agent writes its session log one JSON record a line.  The log grows while it is read: the
readers take the complete lines behind an offset and return the offset behind them.
-/

namespace OddJobs.SessionLog

open Library

def newline : UInt8 := 10

/-- The text of a line that has been written to its end, up to its line feed, if it is UTF-8. -/
def completeLine (raw : List UInt8) : Option (List Char) :=
  match Text.decode raw with
  | none => none
  | some line => if line.getLast? = some '\n' then some line else none

section Reading

-- `serde_json::from_str` for any value
variable (fromStr : List Char → Option Value)

def recordOf (line : List Char) : Option Value :=
  let trimmed := Text.trim line
  if trimmed = [] then none else fromStr trimmed

section Folding

variable {S ε : Type} (step : S → Value → Except ε S)

/-- Read lines from an offset on, up to the first that is not complete or cannot be decoded, and
carry their records on. -/
def readLines : List (List UInt8) → S → Nat → Except ε (S × Nat)
  | [], state, offset => .ok (state, offset)
  | raw :: rest, state, offset =>
      match completeLine raw with
      | none => .ok (state, offset)
      | some line =>
          match recordOf fromStr line with
          | none => readLines rest state (offset + raw.length)
          | some record => do
              let state ← step state record
              readLines rest state (offset + raw.length)

def readFrom (file : Option (List UInt8)) (offset : Nat) (initial : S) : Except ε (S × Nat) :=
  match file with
  | none => .ok (initial, offset)
  | some content => readLines fromStr step (Lines.lines newline (content.drop offset)) initial offset

end Folding

/-! ## The lines that are read -/

/-- The lines before the first that is not complete or cannot be decoded. -/
def readable (content : List UInt8) : List (List UInt8) :=
  (Lines.lines newline content).takeWhile fun raw => (completeLine raw).isSome

def readableLength (content : List UInt8) : Nat := (readable content).flatten.length

def records (lines : List (List UInt8)) : List Value :=
  lines.filterMap fun raw => (completeLine raw).bind (recordOf fromStr)

def recordsIn (content : List UInt8) : List Value := records fromStr (readable content)

variable {fromStr} {S ε : Type} {step : S → Value → Except ε S}

theorem readLines_eq (lines : List (List UInt8)) (state : S) (offset : Nat) :
    let read := lines.takeWhile fun raw => (completeLine raw).isSome
    readLines fromStr step lines state offset =
      ((records fromStr read).foldlM step state).map (·, offset + read.flatten.length) := by
  induction lines generalizing state offset with
  | nil => rfl
  | cons raw rest ih =>
      rw [readLines]
      rcases complete : completeLine raw with _ | line
      · simp [complete, records, Except.map, pure, Except.pure]
      · have taken : (raw :: rest).takeWhile (fun raw => (completeLine raw).isSome) =
            raw :: rest.takeWhile fun raw => (completeLine raw).isSome := by
          rw [List.takeWhile_cons_of_pos]
          rw [complete, Option.isSome_some]
        dsimp only at ih ⊢
        rw [taken, List.flatten_cons, List.length_append, ← Nat.add_assoc]
        rcases record : recordOf fromStr line with _ | value
        · rw [ih]
          simp [records, complete, record]
        · have listed : records fromStr (raw :: rest.takeWhile fun raw =>
              (completeLine raw).isSome) =
                value :: records fromStr (rest.takeWhile fun raw => (completeLine raw).isSome) := by
            simp [records, complete, record]
          rw [listed, List.foldlM_cons]
          dsimp only
          rcases step state value with error | next
          · rfl
          · exact ih next _

/-- A reader folds over the records behind its offset, and stops behind their lines. -/
theorem readFrom_eq (content : List UInt8) (offset : Nat) (initial : S) :
    readFrom fromStr step (some content) offset initial =
      ((recordsIn fromStr (content.drop offset)).foldlM step initial).map
        (·, offset + readableLength (content.drop offset)) :=
  readLines_eq _ _ _

/-! ## Growing logs -/

theorem terminated_of_complete {raw : List UInt8} (complete : (completeLine raw).isSome) :
    Lines.Terminated newline raw := by
  obtain ⟨line, is⟩ := Option.isSome_iff_exists.mp complete
  rw [completeLine] at is
  split at is
  · cases is
  · rename_i text decoded
    split at is
    · rename_i ends
      obtain ⟨front, rfl⟩ := List.getLast?_eq_some_iff.mp ends
      rw [← Text.encode_of_decode decoded, Text.encode_append, Text.encode_newline]
      exact .inr ⟨_, rfl⟩
    · cases is

/-- What is read of a longer content is what is read of its beginning, and then what is read behind
that. -/
theorem readable_append (content more : List UInt8) :
    readable (content ++ more) =
      readable content ++ readable ((content ++ more).drop (readableLength content)) := by
  obtain ⟨later, split⟩ : ∃ later, Lines.lines newline content = readable content ++ later :=
    ⟨_, (List.takeWhile_append_dropWhile ..).symm⟩
  have bytes : content = (readable content).flatten ++ later.flatten := by
    rw [← List.flatten_append, ← split, Lines.flatten_lines]
  have complete : ∀ raw ∈ readable content, (completeLine raw).isSome = true := fun raw member =>
    List.mem_takeWhile_imp (p := fun raw => (completeLine raw).isSome) member
  have ends : Lines.Terminated newline (readable content).flatten :=
    Lines.Terminated.flatten fun raw member => terminated_of_complete (complete raw member)
  have whole : content ++ more = (readable content).flatten ++ (later.flatten ++ more) := by
    rw [← List.append_assoc, ← bytes]
  have again : Lines.lines newline (readable content).flatten = readable content := by
    have shape : ∀ raw ∈ readable content, ∃ front, newline ∉ front ∧ raw = front ++ [newline] := by
      intro raw member
      have line : raw ∈ Lines.lines newline content :=
        split ▸ List.mem_append_left later member
      obtain ⟨front, inside, rfl | written⟩ := Lines.mem_lines_shape line
      · rcases terminated_of_complete (complete raw member) with rfl | ⟨front, rfl⟩
        · exact absurd rfl (Lines.ne_nil_of_mem_lines line)
        · simp at inside
      · exact ⟨front, inside, written⟩
    have read := @Lines.lines_flatMap _ _ newline _ (readable content) id shape []
    simpa [List.flatMap_id, Lines.lines] using read
  rw [readableLength, whole, List.drop_left', readable, Lines.lines_append ends, again,
    List.takeWhile_append_of_pos complete]
  · rfl
  · rfl

theorem recordsIn_append (content more : List UInt8) :
    recordsIn fromStr (content ++ more) = recordsIn fromStr content ++
      recordsIn fromStr ((content ++ more).drop (readableLength content)) := by
  rw [recordsIn, readable_append, records, List.filterMap_append]
  rfl

theorem readableLength_append (content more : List UInt8) :
    readableLength (content ++ more) = readableLength content +
      readableLength ((content ++ more).drop (readableLength content)) := by
  rw [readableLength, readable_append, List.flatten_append, List.length_append]
  rfl

/-- No more is read than there is. -/
theorem readableLength_le (content : List UInt8) : readableLength content ≤ content.length := by
  have whole : (readable content).flatten ++ ((Lines.lines newline content).dropWhile fun raw =>
      (completeLine raw).isSome).flatten = content := by
    rw [← List.flatten_append, readable, List.takeWhile_append_dropWhile, Lines.flatten_lines]
  have length := congrArg List.length whole
  rw [List.length_append] at length
  exact Nat.le.intro length

/-! ## Written lines -/

def writeLine (text : List Char) : List UInt8 := Text.encode text ++ [newline]

theorem completeLine_writeLine (text : List Char) :
    completeLine (writeLine text) = some (text ++ ['\n']) := by
  have bytes : writeLine text = Text.encode (text ++ ['\n']) := by
    rw [Text.encode_append, Text.encode_newline]
    rfl
  rw [completeLine, bytes, Text.decode_encode]
  simp

theorem lines_written {texts : List (List Char)} (single : ∀ text ∈ texts, '\n' ∉ text) :
    Lines.lines newline (texts.flatMap writeLine) = texts.map writeLine := by
  have shape : ∀ text ∈ texts, ∃ front, newline ∉ front ∧ writeLine text = front ++ [newline] :=
    fun text member => ⟨_, mt Text.newline_mem_encode.mp (single text member), rfl⟩
  have read := Lines.lines_flatMap shape []
  simpa [Lines.lines] using read

/-- What is written line by line is read, up to its end. -/
theorem readable_written {texts : List (List Char)} (single : ∀ text ∈ texts, '\n' ∉ text) :
    readable (texts.flatMap writeLine) = texts.map writeLine := by
  rw [readable, lines_written single, List.takeWhile_eq_self_iff]
  intro raw member
  obtain ⟨text, -, rfl⟩ := List.mem_map.mp member
  simp [completeLine_writeLine]

theorem readableLength_written {texts : List (List Char)} (single : ∀ text ∈ texts, '\n' ∉ text) :
    readableLength (texts.flatMap writeLine) = (texts.flatMap writeLine).length := by
  rw [readableLength, readable_written single, List.flatMap_def]

theorem recordsIn_written {texts : List (List Char)} (single : ∀ text ∈ texts, '\n' ∉ text) :
    recordsIn fromStr (texts.flatMap writeLine) =
      texts.filterMap fun text => recordOf fromStr (text ++ ['\n']) := by
  rw [recordsIn, readable_written single, records, List.filterMap_map]
  refine List.filterMap_congr fun text _ => ?_
  simp [completeLine_writeLine]

theorem readableLength_writeLine {line : List Char} (single : '\n' ∉ line) :
    readableLength (writeLine line) = (writeLine line).length := by
  have read := @readableLength_written [line] (by simpa using single)
  rwa [List.flatMap_singleton] at read

theorem recordsIn_writeLine {line : List Char} {record : Value} (single : '\n' ∉ line)
    (parses : recordOf fromStr (line ++ ['\n']) = some record) :
    recordsIn fromStr (writeLine line) = [record] := by
  have read := @recordsIn_written fromStr [line] (by simpa using single)
  rw [List.flatMap_singleton] at read
  simp [read, parses]

end Reading

end OddJobs.SessionLog
