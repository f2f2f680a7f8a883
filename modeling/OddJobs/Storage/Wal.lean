import OddJobs.Core.Event
import OddJobs.Library.Lines
import OddJobs.Library.Text

/-!
# The write-ahead log

The log file as bytes, and the operations of `Wal` on it.  A record is one line
of JSON.  Serialization is left to the JSON library: a function from entries to
texts, which fails on events that are never written, and one back.
-/

namespace OddJobs

open Library.Lines Library.Text

structure WalEntry where
  seq : Nat
  event : Event

structure SerdeJson where
  toVec : WalEntry → Option (List Char)
  fromStr : List Char → Option WalEntry

/-- What `read_line`, `trim` and `from_str` make of one line. -/
inductive ReadLine where
  | invalidData
  | blank
  | unparsable
  | record (trimmed : List Char) (entry : WalEntry)

abbrev newline : UInt8 := 10

def writeLine (text : List Char) : List UInt8 := encode text ++ [newline]

def SerdeJson.readLine (serde : SerdeJson) (raw : List UInt8) : ReadLine :=
  match decode raw with
  | none => .invalidData
  | some line =>
      let trimmed := trim line
      if trimmed = [] then .blank
      else
        match serde.fromStr trimmed with
        | none => .unparsable
        | some entry => .record trimmed entry

/-- The open log.  Both file handles see the same contents. -/
structure Wal where
  file : List UInt8
  /-- The sequence number of the last appended entry. -/
  writeSeq : Nat
  processedSeq : Nat
  /-- Lines waiting to be flushed, without their line feed. -/
  writeBuffer : List (List UInt8)
  readOffset : Nat
  deriving DecidableEq, Repr

structure Scan where
  maxSeq : Nat
  readOffset : Nat
  corrupt : Bool
  deriving DecidableEq, Repr

namespace Wal

variable (serde : SerdeJson)

/-- The loop of `scan_wal`.  The offset 0 stands for "no unprocessed entry found
yet"; if none is found the offset is where the scan stopped. -/
def scanLines (processedSeq : Nat) :
    List (List UInt8) → (maxSeq readOffset currentOffset : Nat) → Scan
  | [], maxSeq, readOffset, currentOffset =>
      { maxSeq
        readOffset := if readOffset = 0 then currentOffset else readOffset
        corrupt := false }
  | raw :: rest, maxSeq, readOffset, currentOffset =>
      match serde.readLine raw with
      | .invalidData | .unparsable =>
          { maxSeq
            readOffset := if readOffset = 0 then currentOffset else readOffset
            corrupt := true }
      | .blank => scanLines processedSeq rest maxSeq readOffset (currentOffset + raw.length)
      | .record _ entry =>
          scanLines processedSeq rest (max maxSeq entry.seq)
            (if processedSeq < entry.seq ∧ readOffset = 0 then currentOffset else readOffset)
            (currentOffset + raw.length)

def scanWal (file : List UInt8) (processedSeq : Nat) : Scan :=
  scanLines serde processedSeq (lines newline file) 0 0 0

def validLines : List (List UInt8) → List (List Char)
  | [] => []
  | raw :: rest =>
      match serde.readLine raw with
      | .invalidData | .unparsable => []
      | .blank => validLines rest
      | .record trimmed _ => trimmed :: validLines rest

def readValidLines (file : List UInt8) : List (List Char) := validLines serde (lines newline file)

def cleanFile (file : List UInt8) : List UInt8 := (readValidLines serde file).flatMap writeLine

/-- `Wal::open`: a corrupt log is moved to a backup (the second component) and
replaced by its valid lines. -/
def openFile (file : List UInt8) (processedSeq : Nat) : Wal × Option (List UInt8) :=
  let scan := scanWal serde file processedSeq
  if scan.corrupt then
    let clean := cleanFile serde file
    let scan := scanWal serde clean processedSeq
    ({ file := clean
       writeSeq := scan.maxSeq
       processedSeq
       writeBuffer := []
       readOffset := scan.readOffset }, some file)
  else
    ({ file
       writeSeq := scan.maxSeq
       processedSeq
       writeBuffer := []
       readOffset := scan.readOffset }, none)

/-- The number of the next entry: `write_seq` is a `u64`, and its increment wraps. -/
def nextSeq (wal : Wal) : Nat := (wal.writeSeq + 1) % U64_VALUES

/-- Append an event to the write buffer.  The number is used up even if the
event cannot be serialized. -/
def append (wal : Wal) (event : Event) : Option Nat × Wal :=
  let seq := wal.nextSeq
  match serde.toVec { seq, event } with
  | none => (none, { wal with writeSeq := seq })
  | some json =>
      (some seq, { wal with writeSeq := seq, writeBuffer := wal.writeBuffer ++ [encode json] })

/-- A number below the last `u64` is followed by the next. -/
theorem nextSeq_eq {wal : Wal} (below : wal.writeSeq + 1 < U64_VALUES) :
    wal.nextSeq = wal.writeSeq + 1 := Nat.mod_eq_of_lt below

def flush (wal : Wal) : Wal :=
  { wal with
    file := wal.file ++ wal.writeBuffer.flatMap (· ++ [newline])
    writeBuffer := [] }

/-- The entry at the read position.  A corrupt line is passed over, a blank or
undecodable one is not. -/
def nextUnprocessed (wal : Wal) : Option WalEntry × Wal :=
  let wal := wal.flush
  match (lines newline (wal.file.drop wal.readOffset)).head? with
  | none => (none, wal)
  | some raw =>
      match serde.readLine raw with
      | .invalidData | .blank => (none, wal)
      | .unparsable => (none, { wal with readOffset := wal.readOffset + raw.length })
      | .record _ entry => (some entry, { wal with readOffset := wal.readOffset + raw.length })

def markProcessed (wal : Wal) (seq : Nat) : Wal := { wal with processedSeq := seq }

/-- The lines `truncate_before` keeps, up to the first corrupt one. -/
def keptLines (seq : Nat) : List (List UInt8) → List (Nat × List Char)
  | [] => []
  | raw :: rest =>
      match serde.readLine raw with
      | .invalidData | .unparsable => []
      | .blank => keptLines seq rest
      | .record trimmed entry =>
          if seq ≤ entry.seq then (entry.seq, trimmed) :: keptLines seq rest
          else keptLines seq rest

def unprocessedOffset (processedSeq : Nat) : List (Nat × List Char) → Nat
  | [] => 0
  | (seq, text) :: rest =>
      if processedSeq < seq then 0
      else (writeLine text).length + unprocessedOffset processedSeq rest

/-- Drop the entries before the given sequence number.  The read position is
rebuilt from `processedSeq`. -/
def truncateBefore (wal : Wal) (seq : Nat) : Wal :=
  let wal := wal.flush
  let kept := keptLines serde seq (lines newline wal.file)
  { wal with
    file := kept.flatMap fun line => writeLine line.2
    readOffset := unprocessedOffset wal.processedSeq kept }

/-- The entries after a sequence number, up to the first corrupt line. -/
def entriesFrom (seq : Nat) : List (List UInt8) → List WalEntry
  | [] => []
  | raw :: rest =>
      match serde.readLine raw with
      | .invalidData | .unparsable => []
      | .blank => entriesFrom seq rest
      | .record _ entry =>
          if seq < entry.seq then entry :: entriesFrom seq rest else entriesFrom seq rest

def entriesAfter (wal : Wal) (seq : Nat) : List WalEntry :=
  entriesFrom serde seq (lines newline wal.file)

/-- Call `next_unprocessed` until it returns nothing. -/
def drain : Nat → Wal → List WalEntry
  | 0, _ => []
  | fuel + 1, wal =>
      match wal.nextUnprocessed serde with
      | (none, _) => []
      | (some entry, wal) => entry :: drain fuel wal

end Wal

/-! ## The JSON library -/

/-- What the log relies on: records are written as one JSON object on one line,
they are read back, and a text with a second document after the first is
refused. -/
structure SerdeJson.Lawful (serde : SerdeJson) : Prop where
  roundTrip : ∀ entry json, serde.toVec entry = some json → serde.fromStr json = some entry
  object : ∀ entry json, serde.toVec entry = some json → ∃ inner, json = '{' :: inner ++ ['}']
  oneLine : ∀ entry json, serde.toVec entry = some json → '\n' ∉ json
  trailing : ∀ text space entry json, serde.fromStr text ≠ none →
    (∀ c ∈ space, isWhiteSpace c = true) → serde.toVec entry = some json →
    serde.fromStr (text ++ space ++ json) = none

/-- A written line is read as its text. -/
theorem SerdeJson.readLine_writeLine {serde : SerdeJson} {text : List Char} {entry : WalEntry}
    (trimmed : Trimmed text) (nonempty : text ≠ []) (reads : serde.fromStr text = some entry) :
    serde.readLine (writeLine text) = .record text entry := by
  have decoded : decode (writeLine text) = some (text ++ ['\n']) := by
    rw [writeLine, ← encode_newline, ← encode_append, decode_encode]
  have trims : trim (text ++ ['\n']) = text := by
    exact @trim_space text [] ['\n'] trimmed nonempty nofun newline_white
  simp only [SerdeJson.readLine, decoded, trims, nonempty, ↓reduceIte, reads]

/-- A text without a line feed is one line. -/
theorem newline_notMem_encode {text : List Char} (oneLine : '\n' ∉ text) :
    newline ∉ encode text := fun member => oneLine (newline_mem_encode.mp member)

namespace SerdeJson.Lawful

variable {serde : SerdeJson} {entry : WalEntry} {json : List Char}

theorem trimmed (lawful : serde.Lawful) (writes : serde.toVec entry = some json) :
    Trimmed json := by
  obtain ⟨inner, rfl⟩ := lawful.object entry json writes
  constructor
  · intro c first
    cases first
    decide
  · intro c last
    rw [List.getLast?_append_of_ne_nil _ (List.cons_ne_nil _ _)] at last
    cases last
    decide

theorem nonempty (lawful : serde.Lawful) (writes : serde.toVec entry = some json) :
    json ≠ [] := by
  obtain ⟨inner, rfl⟩ := lawful.object entry json writes
  simp

theorem readLine_writeLine (lawful : serde.Lawful) (writes : serde.toVec entry = some json) :
    serde.readLine (writeLine json) = .record json entry :=
  SerdeJson.readLine_writeLine (lawful.trimmed writes) (lawful.nonempty writes)
    (lawful.roundTrip entry json writes)

theorem line (lawful : serde.Lawful) (writes : serde.toVec entry = some json) :
    newline ∉ encode json := newline_notMem_encode (lawful.oneLine entry json writes)

end SerdeJson.Lawful

def shutdownText (digit : Char) : List Char :=
  "\x7b\"seq\":".toList ++ digit :: ",\"event\":\x7b\"type\":\"system:shutdown\"\x7d\x7d".toList

def shutdownJson : SerdeJson where
  toVec
    | { seq := 1, event := .shutdown } => some (shutdownText '1')
    | { seq := 2, event := .shutdown } => some (shutdownText '2')
    | { seq := 3, event := .shutdown } => some (shutdownText '3')
    | _ => none
  fromStr text :=
    if text = shutdownText '1' then some { seq := 1, event := .shutdown }
    else if text = shutdownText '2' then some { seq := 2, event := .shutdown }
    else if text = shutdownText '3' then some { seq := 3, event := .shutdown }
    else none

theorem shutdownText_length (digit : Char) : (shutdownText digit).length = 44 := by
  have sum : ∀ left right : List Char, left.length = 7 → right.length = 36 →
      (left ++ digit :: right).length = 44 := by
    intro left right opens closes
    rw [List.length_append, List.length_cons, opens, closes]
  exact sum _ _ (by decide) (by decide)

theorem shutdownText_shape (digit : Char) :
    ∃ inner, shutdownText digit = '{' :: inner ++ ['}'] := by
  have join : ∀ {left inside right front : List Char}, left = '{' :: inside →
      right = front ++ ['}'] → ∃ inner, left ++ digit :: right = '{' :: inner ++ ['}'] := by
    rintro _ inside _ front rfl rfl
    exact ⟨inside ++ digit :: front, by simp⟩
  have opens : "\x7b\"seq\":".toList = '{' :: "\"seq\":".toList := by decide
  have closes : ",\"event\":\x7b\"type\":\"system:shutdown\"\x7d\x7d".toList =
      ",\"event\":\x7b\"type\":\"system:shutdown\"\x7d".toList ++ ['}'] := by decide
  exact join opens closes

/-- The written entries and their texts. -/
theorem shutdownJson_written {entry : WalEntry} {json : List Char}
    (writes : shutdownJson.toVec entry = some json) :
    ∃ digit ∈ ['1', '2', '3'], json = shutdownText digit ∧
      shutdownJson.fromStr json = some entry := by
  simp only [shutdownJson] at writes
  split at writes
  · cases writes
    exact ⟨'1', by decide, rfl, by rfl⟩
  · cases writes
    exact ⟨'2', by decide, rfl, by rfl⟩
  · cases writes
    exact ⟨'3', by decide, rfl, by rfl⟩
  · cases writes

theorem shutdownJson_read {text : List Char} (reads : shutdownJson.fromStr text ≠ none) :
    text.length = 44 := by
  simp only [shutdownJson] at reads
  split at reads
  next same => rw [same, shutdownText_length]
  next =>
    split at reads
    next same => rw [same, shutdownText_length]
    next =>
      split at reads
      next same => rw [same, shutdownText_length]
      next => exact absurd rfl reads

theorem shutdownJson_lawful : shutdownJson.Lawful where
  roundTrip := by
    intro entry json writes
    obtain ⟨_, _, _, reads⟩ := shutdownJson_written writes
    exact reads
  object := by
    intro entry json writes
    obtain ⟨digit, _, rfl, _⟩ := shutdownJson_written writes
    exact shutdownText_shape digit
  oneLine := by
    intro entry json writes
    obtain ⟨digit, member, rfl, _⟩ := shutdownJson_written writes
    simp only [List.mem_cons, List.not_mem_nil, or_false] at member
    rcases member with rfl | rfl | rfl
    · exact by decide
    · exact by decide
    · exact by decide
  trailing := by
    intro text space entry json reads _ writes
    obtain ⟨digit, _, rfl, _⟩ := shutdownJson_written writes
    by_contra parsed
    have whole := shutdownJson_read parsed
    have first := shutdownJson_read reads
    simp only [List.length_append, shutdownText_length] at whole
    omega

end OddJobs
