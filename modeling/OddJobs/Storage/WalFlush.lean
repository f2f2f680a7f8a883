import OddJobs.Storage.WalLayout
import OddJobs.Storage.WalRestart

/-!
# Flushes that fail

`flush` drains the buffer while it writes.  A write may stop inside a line, and the sync
may fail after all writes; the drained lines do not come back.
-/

namespace OddJobs

open Library.Lines Library.Text

/-- What becomes of the writes of one flush, and of its sync. -/
structure Disk where
  /-- The bytes that a write leaves behind when it fails. -/
  stops : Nat → Option Nat
  syncs : Bool

namespace Wal

/-- The loop of `flush`: what is written, and whether all of it is.  A write that fails
leaves out at least one byte of its line. -/
def writeLines (disk : Disk) : Nat → List (List UInt8) → List UInt8 × Bool
  | _, [] => ([], true)
  | n, json :: rest =>
      match disk.stops n with
      | some bytes => ((json ++ [newline]).take (min bytes json.length), false)
      | none =>
          let (written, ok) := writeLines disk (n + 1) rest
          (json ++ [newline] ++ written, ok)

/-- `Wal::flush`.  The buffer is empty afterwards, also when a write failed: what a
`drain` has not handed out is dropped with it. -/
def tryFlush (disk : Disk) (wal : Wal) : Bool × Wal :=
  if wal.writeBuffer.isEmpty then (true, wal)
  else
    let (written, ok) := writeLines disk 0 wal.writeBuffer
    (ok && disk.syncs, { wal with
      file := wal.file ++ written
      writeBuffer := [] })

def bufferLines (buffer : List (List UInt8)) : List UInt8 := buffer.flatMap (· ++ [newline])

/-- Every write goes through, or there is a first one that stops inside its line. -/
theorem writeLines_spec (disk : Disk) (n : Nat) (buffer : List (List UInt8)) :
    (writeLines disk n buffer = (bufferLines buffer, true) ∧
      ∀ i < buffer.length, disk.stops (n + i) = none) ∨
    ∃ early json late bytes, buffer = early ++ json :: late ∧ bytes ≤ json.length ∧
      disk.stops (n + early.length) ≠ none ∧
      writeLines disk n buffer = (bufferLines early ++ (json ++ [newline]).take bytes, false) := by
  induction buffer generalizing n with
  | nil => exact .inl ⟨rfl, fun i below => absurd below (Nat.not_lt_zero i)⟩
  | cons json rest ih =>
      cases stops : disk.stops n with
      | some bytes =>
          refine .inr ⟨[], json, rest, min bytes json.length, rfl, Nat.min_le_right _ _, ?_, ?_⟩
          · rw [List.length_nil, Nat.add_zero, stops]
            exact Option.some_ne_none _
          · rw [writeLines, stops]
            rfl
      | none =>
          have unfolded : writeLines disk n (json :: rest) =
              (json ++ [newline] ++ (writeLines disk (n + 1) rest).1,
                (writeLines disk (n + 1) rest).2) := by
            rw [writeLines, stops]
          rcases ih (n + 1) with ⟨written, through⟩ |
            ⟨early, line, late, bytes, same, within, stopped, written⟩
          · refine .inl ⟨?_, ?_⟩
            · rw [unfolded, written]
              rfl
            · intro i below
              cases i with
              | zero => exact stops
              | succ i =>
                  have later := through i (Nat.lt_of_succ_lt_succ below)
                  rwa [Nat.add_right_comm] at later
          · refine .inr ⟨json :: early, line, late, bytes, by rw [same]; rfl, within, ?_, ?_⟩
            · rw [List.length_cons, ← Nat.add_assoc, Nat.add_right_comm]
              exact stopped
            · rw [unfolded, written]
              simp only [bufferLines, List.flatMap_cons, List.append_assoc]

/-- On a disk without faults, `flush` is the flush of the other operations. -/
theorem tryFlush_eq_flush {disk : Disk} (writes : ∀ n, disk.stops n = none)
    (syncs : disk.syncs = true) (wal : Wal) : wal.tryFlush disk = (true, wal.flush) := by
  unfold tryFlush
  split
  · next empty => rw [flush_flushed (List.isEmpty_iff.mp empty)]
  · rcases writeLines_spec disk 0 wal.writeBuffer with ⟨written, _⟩ | ⟨_, _, _, _, _, _, stopped, _⟩
    · rw [written, syncs]
      rfl
    · exact absurd (writes _) stopped

/-! ## Accepted events -/

/-- A log of complete, readable lines, with accepted events in its buffer. -/
structure Holding (serde : SerdeJson) (wal : Wal) (accepted : List Written) : Prop where
  clean : serde.Clean wal.file
  complete : Terminated newline wal.file
  buffer : wal.writeBuffer = accepted.map (encode ·.2)
  written : ∀ record ∈ accepted, serde.toVec record.1 = some record.2
  numbered : ∀ record ∈ accepted, 0 < record.1.seq
  increasing : Increasing (survivors serde wal.file ++ accepted.map (·.1))
  bounded : ∀ entry ∈ survivors serde wal.file ++ accepted.map (·.1), entry.seq ≤ wal.writeSeq

/-- Each of the accepted events is a line of the file or still in the buffer, the file
is made of complete lines, and after one more flush all of the events are read back. -/
structure NothingLost (serde : SerdeJson) (accepted : List Written) (wal : Wal) : Prop where
  kept : ∀ record ∈ accepted,
    writeLine record.2 ∈ lines newline wal.file ∨ encode record.2 ∈ wal.writeBuffer
  complete : Terminated newline wal.file
  readable : ∀ record ∈ accepted, ∀ seq < record.1.seq,
    record.1 ∈ wal.flush.entriesAfter serde seq

variable {serde : SerdeJson} {wal : Wal} {accepted : List Written}

/-- An event that `append` accepts is held, as long as the numbers do not wrap. -/
theorem Holding.append (holding : Holding serde wal accepted) {event : Event} {seq : Nat}
    (below : wal.writeSeq + 1 < U64_VALUES) (accepts : (wal.append serde event).1 = some seq) :
    ∃ json, Holding serde (wal.append serde event).2 (accepted ++ [(⟨seq, event⟩, json)]) := by
  have next := nextSeq_eq below
  cases writes : serde.toVec { seq := wal.writeSeq + 1, event } with
  | none =>
      simp only [Wal.append, next, writes, reduceCtorEq] at accepts
  | some json =>
      have after : wal.append serde event = (some (wal.writeSeq + 1), { wal with
          writeSeq := wal.writeSeq + 1
          writeBuffer := wal.writeBuffer ++ [encode json] }) := by
        simp only [Wal.append, next, writes]
      rw [after] at accepts ⊢
      cases accepts
      let record : Written := ({ seq := wal.writeSeq + 1, event }, json)
      have entries : survivors serde wal.file ++ (accepted ++ [record]).map (·.1) =
          (survivors serde wal.file ++ accepted.map (·.1)) ++ [record.1] := by
        rw [List.map_append, List.append_assoc, List.map_singleton]
      refine ⟨json, holding.clean, holding.complete, ?_, ?_, ?_, ?_, ?_⟩
      · dsimp only
        rw [holding.buffer, List.map_append]
        rfl
      · intro record member
        rcases List.mem_append.mp member with earlier | last
        · exact holding.written record earlier
        · rw [List.mem_singleton.mp last]
          exact writes
      · intro record member
        rcases List.mem_append.mp member with earlier | last
        · exact holding.numbered record earlier
        · rw [List.mem_singleton.mp last]
          exact Nat.succ_pos _
      · rw [entries]
        refine List.pairwise_append.mpr ⟨holding.increasing, List.pairwise_singleton _ _, ?_⟩
        intro entry member other last
        rw [List.mem_singleton.mp last]
        exact Nat.lt_succ_of_le (holding.bounded entry member)
      · rw [entries]
        intro entry member
        rcases List.mem_append.mp member with earlier | last
        · exact Nat.le_succ_of_le (holding.bounded entry earlier)
        · rw [List.mem_singleton.mp last]

theorem holding_new (serde : SerdeJson) (processedSeq : Nat) :
    Holding serde (openFile serde [] processedSeq).1 [] where
  clean := fun raw member => by cases member
  complete := terminated_nil
  buffer := rfl
  written := fun record member => by cases member
  numbered := fun record member => by cases member
  increasing := List.Pairwise.nil
  bounded := fun entry member => by cases member

theorem closed_of_terminated {file : List UInt8} (complete : Terminated newline file) :
    serde.Closed file := by
  have closed := @closed_of_tail serde file [] complete (fun never => absurd rfl never)
    List.not_mem_nil
  rwa [List.append_nil] at closed

theorem bufferLines_encode (records : List Written) :
    bufferLines (records.map (encode ·.2)) = writtenFile records := by
  unfold bufferLines
  rw [List.flatMap_map]
  rfl

theorem writtenFile_terminated (records : List Written) :
    Terminated newline (writtenFile records) := by
  refine Terminated.flatten fun piece member => ?_
  obtain ⟨record, _, rfl⟩ := List.mem_map.mp member
  exact terminated_line (encode record.2)

/-- All lines of the buffer have reached the file. -/
theorem Holding.nothingLost (lawful : serde.Lawful) (holding : Holding serde wal accepted) :
    NothingLost serde accepted
      { wal with
        file := wal.file ++ writtenFile accepted
        writeBuffer := [] } where
  kept := by
    intro record member
    left
    change _ ∈ lines newline (wal.file ++ writtenFile accepted)
    have written : lines newline (writtenFile accepted) = accepted.map (writeLine ·.2) :=
      lines_written lawful holding.written
    rw [lines_append holding.complete, written]
    exact List.mem_append_right _ (List.mem_map_of_mem member)
  complete := holding.complete.append (writtenFile_terminated accepted)
  readable := by
    intro record member seq before
    rw [mem_entriesAfter]
    refine ⟨?_, before⟩
    have found := survivors_written lawful holding.clean (closed_of_terminated holding.complete)
      holding.written
    change _ ∈ survivors serde (wal.file ++ writtenFile accepted ++ [])
    rw [List.append_nil, writtenFile, found]
    exact List.mem_append_right _ (List.mem_map_of_mem member)

/-- A file whose last line was begun has no complete lines. -/
theorem not_terminated_begun {front line : List UInt8} (begun : line ≠ [])
    (inside : newline ∉ line) : ¬Terminated newline (front ++ line) := by
  rintro (empty | ⟨others, same⟩)
  · exact begun (List.append_eq_nil_iff.mp empty).2
  · have last := congrArg List.getLast? same
    rw [List.getLast?_append_of_ne_nil _ begun, List.getLast?_concat] at last
    exact inside (List.mem_of_getLast? last)

/-- A write that failed has lost its event. -/
theorem Holding.lost (lawful : serde.Lawful) {early late : List Written} {record : Written}
    (holding : Holding serde wal (early ++ record :: late)) {bytes : Nat}
    (within : bytes ≤ (encode record.2).length) :
    ¬NothingLost serde (early ++ record :: late)
      { wal with
        file := wal.file ++ (writtenFile early ++ (encode record.2 ++ [newline]).take bytes)
        writeBuffer := [] } := by
  intro nothing
  have member : record ∈ early ++ record :: late := List.mem_append_right _ List.mem_cons_self
  have writes := holding.written record member
  rw [List.take_append_of_le_length within] at nothing
  cases bytes with
  | succ n =>
      -- the file ends inside the line
      have complete := nothing.complete
      rw [← List.append_assoc] at complete
      refine not_terminated_begun ?_ ?_ complete
      · intro empty
        have long := congrArg List.length empty
        rw [List.length_take_of_le within] at long
        cases long
      · exact fun inside => lawful.line writes (List.mem_of_mem_take inside)
  | zero =>
      -- the event is not in the file, and its number is above those that are
      have earlier : ∀ other ∈ early, serde.toVec other.1 = some other.2 := fun other present =>
        holding.written other (List.mem_append_left _ present)
      have found := survivors_written lawful holding.clean (closed_of_terminated holding.complete)
        earlier
      have increasing := holding.increasing
      rw [List.map_append, ← List.append_assoc] at increasing
      have above := (List.pairwise_append.mp increasing).2.2
      have positive := holding.numbered record member
      have read := nothing.readable record member (record.1.seq - 1) (Nat.sub_lt positive Nat.one_pos)
      obtain ⟨survives, _⟩ := mem_entriesAfter.mp read
      have same : record.1 ∈ survivors serde (wal.file ++ early.flatMap (writeLine ·.2)) := by
        have flushed : wal.file ++ (writtenFile early ++ (encode record.2).take 0) ++
            ([] : List (List UInt8)).flatMap (· ++ [newline]) =
              wal.file ++ early.flatMap (writeLine ·.2) := by
          rw [List.take_zero, List.append_nil, List.flatMap_nil, List.append_nil]
          rfl
        rw [← flushed]
        exact survives
      rw [found] at same
      exact Nat.lt_irrefl _ (above record.1 same record.1 List.mem_cons_self)

/-- After a flush that failed, nothing is lost if and only if every write went through
and only the sync failed. -/
theorem failed_flush_iff (lawful : serde.Lawful) (holding : Holding serde wal accepted)
    {disk : Disk} (failed : (wal.tryFlush disk).1 = false) :
    NothingLost serde accepted (wal.tryFlush disk).2 ↔
      ∀ n < accepted.length, disk.stops n = none := by
  have filled : wal.writeBuffer.isEmpty = false := by
    cases empty : wal.writeBuffer.isEmpty with
    | false => rfl
    | true =>
        rw [tryFlush, if_pos empty] at failed
        cases failed
  have ran : (wal.tryFlush disk).2 = { wal with
      file := wal.file ++ (writeLines disk 0 wal.writeBuffer).1
      writeBuffer := [] } := by
    rw [tryFlush, if_neg (by rw [filled]; exact Bool.false_ne_true)]
  rw [ran]
  rcases writeLines_spec disk 0 wal.writeBuffer with
    ⟨written, through⟩ | ⟨early, json, late, bytes, buffer, within, stopped, written⟩
  · rw [written, holding.buffer, bufferLines_encode]
    refine iff_of_true (holding.nothingLost lawful) fun n below => ?_
    have went := through n (by rw [holding.buffer, List.length_map]; exact below)
    rwa [Nat.zero_add] at went
  · rw [holding.buffer] at buffer
    obtain ⟨before, rest, rfl, rfl, after⟩ := List.map_eq_append_iff.mp buffer
    obtain ⟨record, others, rfl, rfl, rfl⟩ := List.map_eq_cons_iff.mp after
    rw [written, bufferLines_encode]
    refine iff_of_false (holding.lost lawful within) fun through => ?_
    rw [Nat.zero_add, List.length_map] at stopped
    refine stopped (through before.length ?_)
    rw [List.length_append, List.length_cons]
    omega

def oneShutdown : Wal := ((openFile shutdownJson [] 0).1.append shutdownJson .shutdown).2

theorem oneShutdown_holding :
    Holding shutdownJson oneShutdown [(shutdownEntry 1, shutdownText '1')] := by
  obtain ⟨json, holding⟩ := @Holding.append shutdownJson _ [] (holding_new shutdownJson 0)
    .shutdown 1 (by decide) rfl
  have written := holding.written _ (List.mem_singleton_self _)
  cases written
  exact holding

/-- The first write fails before its first byte: the event is neither in the file nor in
the buffer. -/
theorem failed_flush_loses : ¬∀ (serde : SerdeJson) (wal : Wal) (accepted : List Written)
    (disk : Disk), serde.Lawful → Holding serde wal accepted → (wal.tryFlush disk).1 = false →
      NothingLost serde accepted (wal.tryFlush disk).2 := by
  intro nothing
  have lost := @Holding.lost shutdownJson oneShutdown shutdownJson_lawful [] [] _
    oneShutdown_holding 0 (Nat.zero_le _)
  exact lost (nothing shutdownJson oneShutdown _ ⟨fun _ => some 0, true⟩ shutdownJson_lawful
    oneShutdown_holding rfl)

/-- The sync fails. -/
theorem failed_sync_keeps :
    NothingLost shutdownJson [(shutdownEntry 1, shutdownText '1')]
      (oneShutdown.tryFlush ⟨fun _ => none, false⟩).2 :=
  (failed_flush_iff shutdownJson_lawful oneShutdown_holding rfl).mpr fun _ _ => rfl

end Wal

end OddJobs
