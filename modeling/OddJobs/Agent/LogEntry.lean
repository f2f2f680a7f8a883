import Mathlib.Control.Monad.Basic
import OddJobs.Agent.SessionLog
import OddJobs.Library.Patterns
import OddJobs.Library.Slices

/-!
# Entries of agent logs

What the records of a session log say an agent did.  Commands, timestamps and results are cut at
fixed bytes; a cut that the text does not allow, and a difference of unsigned numbers that would
be negative, end the process.
-/

namespace OddJobs

open Library

namespace Value

/-- `value.as_array()`. -/
def asArray : Value → Option (List Value)
  | array items => some items
  | _ => none

/-- `value.as_u64()`. -/
def asU64 : Value → Option Nat
  | number text =>
      let digits := text.toList
      let value := Nat.ofDigitChars 10 digits 0
      if digits ≠ [] ∧ digits.all Char.isDigit ∧ value < 2 ^ 64 then some value else none
  | _ => none

end Value

inductive EntryKind where
  | fileRead (path : String)
  | fileWrite (path : String) (new : Bool) (lines : Nat)
  | fileEdit (path : String)
  | notebookEdit (path : String)
  | bashCommand (command : String) (exitCode : Option Int)
  | ojCall (args : List String)
  | turnComplete (durationSecs tokens : Option Nat)
  | error (message : String)
  deriving DecidableEq, Repr

structure AgentLogEntry where
  timestamp : String
  kind : EntryKind
  deriving DecidableEq, Repr

inductive Panic where
  | slice
  | subtraction
  | multiplication
  deriving DecidableEq, Repr

namespace AgentLog

/-! ## Slices and numbers -/

/-- `&text[..stop]`. -/
def sliceTo (stop : Nat) (text : List Char) : Except Panic (List Char) :=
  match Text.split stop text with
  | some (front, _) => .ok front
  | none => .error .slice

/-- `&text[start..]`. -/
def sliceFrom (start : Nat) (text : List Char) : Except Panic (List Char) :=
  match Text.split start text with
  | some (_, back) => .ok back
  | none => .error .slice

/-- `&text[start..stop]`. -/
def slice (start stop : Nat) (text : List Char) : Except Panic (List Char) := do
  let back ← sliceFrom start text
  sliceTo (stop - start) back

def subtract (first second : Nat) : Except Panic Nat :=
  if second ≤ first then .ok (first - second) else .error .subtraction

def parseDigits (text : List Char) : Option Nat :=
  if text ≠ [] ∧ text.all Char.isDigit then
    some (Nat.ofDigitChars 10 text 0)
  else none

def parseUnsigned : List Char → Option Nat
  | '+' :: rest => parseDigits rest
  | text => parseDigits text

def parseSigned : List Char → Option Int
  | '-' :: rest => (parseDigits rest).map fun value => -value
  | text => (parseUnsigned text).map fun value => value

/-! ## Timestamps -/

def epochSeconds (year : Int) (month day hour min sec : Nat) : Except Panic Nat := do
  let y := if month ≤ 2 then year - 1 else year
  let era := (if 0 ≤ y then y else y - 399).tdiv 400
  let yoe := (y - era * 400).toNat
  let mp := if month > 2 then month - 3 else month + 9
  let doy ← subtract ((153 * mp + 2) / 5 + day) 1
  let doe := yoe * 365 + yoe / 4 - yoe / 100 + doy
  -- a negative era is a number close to 2 ^ 64 here
  if era < 0 then .error .multiplication
  else do
    let days ← subtract (era.toNat * 146097 + doe) 719468
    return days * 86400 + hour * 3600 + min * 60 + sec

def numberAt {α : Type} (parse : List Char → Option α) (start stop : Nat) (text : List Char) :
    OptionT (Except Panic) α :=
  OptionT.mk ((slice start stop text).map parse)

def parseIsoEpoch (s : List Char) : OptionT (Except Panic) Nat := do
  let s := Text.trim s
  if Text.size s < 19 then failure
  else do
    let year ← numberAt parseSigned 0 4 s
    let month ← numberAt parseUnsigned 5 7 s
    let day ← numberAt parseUnsigned 8 10 s
    let hour ← numberAt parseUnsigned 11 13 s
    let min ← numberAt parseUnsigned 14 16 s
    let sec ← numberAt parseUnsigned 17 19 s
    OptionT.lift (epochSeconds year month day hour min sec)

def computeDurationSecs (start : Option String) (stop : String) : OptionT (Except Panic) Nat := do
  let start ← OptionT.mk (.ok start)
  let startSecs ← parseIsoEpoch start.toList
  let endSecs ← parseIsoEpoch stop.toList
  return endSecs - startSecs

/-! ## Fields of records -/

def getStr (obj : Value) (key : String) : Option String := (obj.get key).bind Value.asStr

def extractTimestamp (json : Value) : Option String :=
  ((getStr json "timestamp").or ((json.get "message").bind (getStr · "created_at"))).or
    (getStr json "isoTimestamp")

def extractError (json : Value) : Option String :=
  (getStr json "error").or ((json.get "message").bind (getStr · "error"))

section Entries

-- `str::to_lowercase`
variable (toLowercase : List Char → List Char)

def extractExitCode (content : List Char) : OptionT (Except Panic) Int :=
  match Text.find "exit code:".toList (toLowercase content) with
  | none => failure
  | some pos => do
      let after ← OptionT.lift (sliceFrom (pos + 10) content)
      let number := (Text.trim after).takeWhile fun c => c.isDigit || c == '-'
      OptionT.mk (.ok (Text.parseInt32 number))

/-! ## Tools -/

/-- A command that runs `oj` itself. -/
def isOjCall (command : List Char) : Bool :=
  let trimmed := Text.trim command
  trimmed == "oj".toList || "oj ".toList.isPrefixOf trimmed || "./oj ".toList.isPrefixOf trimmed

def bashKind (command : List Char) : Except Panic EntryKind :=
  if isOjCall command then
    let trimmed := Text.trim command
    let rest := (Pattern.literal "./oj ".toList trimmed).or (Pattern.literal "oj ".toList trimmed)
    .ok (.ojCall ((rest.map fun rest => (Text.splitWhitespace rest).map String.ofList).getD []))
  else if Text.size command > 80 then do
    let front ← sliceTo 77 command
    return .bashCommand (String.ofList front ++ "...") none
  else .ok (.bashCommand (String.ofList command) none)

def toolKind (block : Value) : Except Panic (Option EntryKind) :=
  if getStr block "type" ≠ some "tool_use" then .ok none
  else
    match getStr block "name" with
    | none => .ok none
    | some toolName =>
        let input := (block.get "input").getD .null
        match toolName with
        | "Read" => .ok ((getStr input "file_path").map .fileRead)
        | "Edit" => .ok ((getStr input "file_path").map .fileEdit)
        | "NotebookEdit" => .ok ((getStr input "notebook_path").map .notebookEdit)
        | "Write" =>
            let lines := (Lines.lines '\n' ((getStr input "content").getD "").toList).length
            .ok ((getStr input "file_path").map fun path => .fileWrite path true lines)
        | "Bash" => (bashKind ((getStr input "command").getD "").toList).map some
        | _ => .ok none

def toolEntries (timestamp : String) (message : Value) : Except Panic (List AgentLogEntry) := do
  let blocks := ((message.get "content").bind Value.asArray).getD []
  let kinds ← blocks.mapM toolKind
  return kinds.filterMap fun kind => kind.map (⟨timestamp, ·⟩)

def endsTurn (message : Value) : Bool := (getStr message "stop_reason").getD "" == "end_turn"

def turnEntries (timestamp : String) (message : Value) (lastUserTimestamp : Option String) :
    Except Panic (List AgentLogEntry) :=
  if endsTurn message then do
    let tokens := ((message.get "usage").bind (·.get "output_tokens")).bind Value.asU64
    let durationSecs ← (computeDurationSecs lastUserTimestamp timestamp).run
    return [⟨timestamp, .turnComplete durationSecs tokens⟩]
  else .ok []

def completeFirst (code : Int) : List AgentLogEntry → List AgentLogEntry
  | [] => []
  | entry :: rest =>
      match entry.kind with
      | .bashCommand command none =>
          { entry with kind := .bashCommand command (some code) } :: rest
      | _ => entry :: completeFirst code rest

def completeLast (code : Int) (entries : List AgentLogEntry) : List AgentLogEntry :=
  (completeFirst code entries.reverse).reverse

/-- The entries so far, and the time of the last record of the user. -/
structure Progress where
  entries : List AgentLogEntry
  lastUserTimestamp : Option String
  deriving DecidableEq, Repr

def extractEntries (progress : Progress) (json : Value) : Except Panic Progress :=
  let recordType := (getStr json "type").getD ""
  let timestamp := (extractTimestamp json).getD ""
  if recordType = "user" then
    .ok { progress with lastUserTimestamp := (extractTimestamp json).or progress.lastUserTimestamp }
  else
    match extractError json with
    | some error =>
        .ok { progress with entries := progress.entries ++ [⟨timestamp, .error error⟩] }
    | none =>
        if recordType = "assistant" then
          match json.get "message" with
          | none => .ok progress
          | some message => do
              let tools ← toolEntries timestamp message
              let turn ← turnEntries timestamp message progress.lastUserTimestamp
              return { progress with entries := progress.entries ++ tools ++ turn }
        else if recordType = "result" then do
          let content := getStr json "content"
          let code ← match content with
            | none => .ok none
            | some content => (extractExitCode toLowercase content.toList).run
          match code with
          | none => return progress
          | some code => return { progress with entries := completeLast code progress.entries }
        else .ok progress

-- `serde_json::from_str`
variable (fromStr : List Char → Option Value)

/-- Parse new log entries from a session log starting at the given byte offset. -/
def parseEntriesFrom (file : Option (List UInt8)) (offset : Nat) :
    Except Panic (List AgentLogEntry × Nat) :=
  (SessionLog.readFrom fromStr (extractEntries toLowercase) file offset ⟨[], none⟩).map
    fun (progress, offset) => (progress.entries, offset)

end Entries

end AgentLog

end OddJobs
