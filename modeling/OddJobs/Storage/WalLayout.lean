import OddJobs.Storage.WalOpen

/-!
# A log written by one process

A log that has held nothing but its own records: those before the read position,
those after it, and those still in the write buffer.  Each operation keeps that
shape.
-/

namespace OddJobs

open Library.Lines Library.Text

variable {serde : SerdeJson}

abbrev Written := WalEntry × List Char

def writtenFile (records : List Written) : List UInt8 := records.flatMap (writeLine ·.2)

theorem writtenFile_append (left right : List Written) :
    writtenFile (left ++ right) = writtenFile left ++ writtenFile right :=
  List.flatMap_append

namespace Wal

/-- The records of a log: read, waiting in the file, and waiting in the buffer. -/
structure Laid (serde : SerdeJson) (wal : Wal) (read late buffered : List Written) : Prop where
  file : wal.file = writtenFile (read ++ late)
  buffer : wal.writeBuffer = buffered.map (encode ·.2)
  position : wal.readOffset = (writtenFile read).length
  written : ∀ record ∈ read ++ late ++ buffered, serde.toVec record.1 = some record.2

variable {wal : Wal} {read late buffered : List Written}

/-- A flush moves the buffer to the end of the file. -/
theorem Laid.flush (laid : Laid serde wal read late buffered) :
    Laid serde wal.flush read (late ++ buffered) [] where
  file := by
    have lines : (buffered.map (encode ·.2)).flatMap (· ++ [newline]) = writtenFile buffered := by
      rw [List.flatMap_map]
      rfl
    simp only [Wal.flush, laid.file, laid.buffer, lines, writtenFile_append, List.append_assoc]
  buffer := rfl
  position := laid.position
  written := by
    rw [List.append_nil, ← List.append_assoc]
    exact laid.written

/-- A written event waits at the end of the buffer. -/
theorem Laid.append (laid : Laid serde wal read late buffered) {event : Event} {json : List Char}
    (writes : serde.toVec { seq := wal.nextSeq, event } = some json) :
    wal.append serde event = (some wal.nextSeq, (wal.append serde event).2) ∧
      Laid serde (wal.append serde event).2 read late
        (buffered ++ [({ seq := wal.nextSeq, event }, json)]) := by
  have after : wal.append serde event =
      (some wal.nextSeq,
        { wal with
          writeSeq := wal.nextSeq
          writeBuffer := wal.writeBuffer ++ [encode json] }) := by
    simp only [Wal.append, writes]
  rw [after]
  refine ⟨rfl, laid.file, ?_, laid.position, ?_⟩
  · simp [laid.buffer]
  · intro record member
    rw [← List.append_assoc] at member
    rcases List.mem_append.mp member with before | new
    · exact laid.written record before
    · rw [List.mem_singleton.mp new]
      exact writes

theorem Laid.ahead (lawful : serde.Lawful) (laid : Laid serde wal read late []) :
    lines newline (wal.file.drop wal.readOffset) = late.map (writeLine ·.2) := by
  have writable : ∀ record ∈ late, serde.toVec record.1 = some record.2 := fun record member =>
    laid.written record (by simp [member])
  rw [laid.file, laid.position, writtenFile_append, List.drop_left]
  exact lines_written lawful writable

theorem Laid.next_none (lawful : serde.Lawful) (laid : Laid serde wal read [] []) :
    wal.nextUnprocessed serde = (none, wal.flush) := by
  have ahead := laid.flush.ahead lawful
  simp only [nextUnprocessed, ahead, List.append_nil, List.map_nil, List.head?_nil]

/-- Reading returns the first record that waits, and passes it. -/
theorem Laid.next_some (lawful : serde.Lawful) {record : Written} {rest : List Written}
    (laid : Laid serde wal read late buffered) (waiting : late ++ buffered = record :: rest) :
    ∃ after, wal.nextUnprocessed serde = (some record.1, after) ∧
      after.processedSeq = wal.processedSeq ∧ after.writeSeq = wal.writeSeq ∧
      Laid serde after (read ++ [record]) rest [] := by
  have flushed := laid.flush
  rw [waiting] at flushed
  have writes := flushed.written record (by simp)
  have ahead := flushed.ahead lawful
  refine ⟨{ wal.flush with
    readOffset := wal.flush.readOffset + (writeLine record.2).length }, ?_, rfl, rfl, ?_⟩
  · simp only [nextUnprocessed, ahead, List.map_cons, List.head?_cons,
      lawful.readLine_writeLine writes]
  · refine ⟨?_, rfl, ?_, ?_⟩
    · simp only [flushed.file, List.append_assoc, List.singleton_append]
    · simp only [flushed.position, writtenFile_append, List.length_append]
      simp [writtenFile]
    · intro other member
      exact flushed.written other (by simpa using member)

/-- The entries a truncation keeps. -/
theorem keptLines_written (lawful : serde.Lawful) {records : List Written}
    (written : ∀ record ∈ records, serde.toVec record.1 = some record.2) (seq : Nat) :
    keptLines serde seq (records.map (writeLine ·.2)) =
      (records.filter (seq ≤ ·.1.seq)).map fun record => (record.1.seq, record.2) := by
  induction records with
  | nil => rfl
  | cons record rest ih =>
      obtain ⟨writes, later⟩ := List.forall_mem_cons.mp written
      by_cases kept : seq ≤ record.1.seq
      · simp [keptLines, lawful.readLine_writeLine writes, kept, ih later]
      · simp [keptLines, lawful.readLine_writeLine writes, kept, ih later]

/-- The read position a truncation computes: after the processed records it
meets before the first unprocessed one. -/
theorem unprocessedOffset_written (processedSeq : Nat) (records : List Written) :
    unprocessedOffset processedSeq (records.map fun record => (record.1.seq, record.2)) =
      (writtenFile (records.takeWhile (·.1.seq ≤ processedSeq))).length := by
  induction records with
  | nil => rfl
  | cons record rest ih =>
      by_cases fresh : processedSeq < record.1.seq
      · have stops : ¬record.1.seq ≤ processedSeq := Nat.not_le.mpr fresh
        simp [unprocessedOffset, fresh, stops, writtenFile]
      · have passes : record.1.seq ≤ processedSeq := Nat.not_lt.mp fresh
        simp only [List.map_cons, unprocessedOffset, fresh, ↓reduceIte, ih, List.takeWhile_cons,
          passes, decide_true]
        simp [writtenFile]

/-- A truncation drops the records below its number and reads on at the first
one that is not processed. -/
theorem Laid.truncateBefore (lawful : serde.Lawful) (laid : Laid serde wal read late buffered)
    (seq : Nat) :
    let kept := (read ++ late ++ buffered).filter (seq ≤ ·.1.seq)
    Laid serde (wal.truncateBefore serde seq) (kept.takeWhile (·.1.seq ≤ wal.processedSeq))
      (kept.dropWhile (·.1.seq ≤ wal.processedSeq)) [] := by
  intro kept
  have flushed := laid.flush
  have file : wal.flush.file = writtenFile (read ++ late ++ buffered) := by
    rw [flushed.file, List.append_assoc]
  have keeps : keptLines serde seq (lines newline wal.flush.file) =
      kept.map fun record => (record.1.seq, record.2) := by
    rw [file, writtenFile, lines_written lawful laid.written]
    exact keptLines_written lawful laid.written seq
  refine ⟨?_, rfl, ?_, ?_⟩
  · simp only [Wal.truncateBefore, keeps, List.takeWhile_append_dropWhile, List.flatMap_map]
    rfl
  · simp only [Wal.truncateBefore, keeps]
    exact unprocessedOffset_written wal.processedSeq kept
  · intro record member
    rw [List.append_nil, List.takeWhile_append_dropWhile] at member
    exact laid.written record (List.mem_filter.mp member).1

end Wal

end OddJobs
