import OddJobs.Storage.Wal

/-!
# Opening a log

What `Wal::open` makes of a log file: the read position on a file of records,
and the sequence numbers given to events appended later.
-/

namespace OddJobs

open Library.Lines Library.Text

variable {serde : SerdeJson}

def SerdeJson.Holds (serde : SerdeJson) (raw : List UInt8) (entry : WalEntry) : Prop :=
  ∃ trimmed, serde.readLine raw = .record trimmed entry

/-- The lines of the file are records, which hold the entries in order. -/
def SerdeJson.Records (serde : SerdeJson) (file : List UInt8) (entries : List WalEntry) : Prop :=
  List.Forall₂ serde.Holds (lines newline file) entries

/-- The entries have strictly increasing sequence numbers. -/
def Increasing (entries : List WalEntry) : Prop :=
  entries.Pairwise fun earlier later => earlier.seq < later.seq

instance (entries : List WalEntry) : Decidable (Increasing entries) :=
  inferInstanceAs (Decidable (entries.Pairwise fun earlier later => earlier.seq < later.seq))

namespace Wal

/-! ## A file of records -/

theorem lines_written (lawful : serde.Lawful) {records : List (WalEntry × List Char)}
    (written : ∀ record ∈ records, serde.toVec record.1 = some record.2) :
    lines newline (records.flatMap (writeLine ·.2)) = records.map (writeLine ·.2) := by
  have shape : ∀ record ∈ records,
      ∃ front, newline ∉ front ∧ writeLine record.2 = front ++ [newline] :=
    fun record member => ⟨_, lawful.line (written record member), rfl⟩
  have split := lines_flatMap shape []
  rwa [List.append_nil, lines, List.append_nil] at split

theorem holds_written (lawful : serde.Lawful) {records : List (WalEntry × List Char)}
    (written : ∀ record ∈ records, serde.toVec record.1 = some record.2) :
    List.Forall₂ serde.Holds (records.map (writeLine ·.2)) (records.map (·.1)) := by
  induction records with
  | nil => exact List.Forall₂.nil
  | cons record rest ih =>
      refine List.Forall₂.cons ?_ (ih fun other member => written other (List.mem_cons_of_mem _ member))
      exact ⟨record.2, lawful.readLine_writeLine (written record List.mem_cons_self)⟩

theorem records_written (lawful : serde.Lawful) {records : List (WalEntry × List Char)}
    (written : ∀ record ∈ records, serde.toVec record.1 = some record.2) :
    serde.Records (records.flatMap (writeLine ·.2)) (records.map (·.1)) := by
  rw [SerdeJson.Records, lines_written lawful written]
  exact holds_written lawful written

def shutdownEntry (seq : Nat) : WalEntry := { seq, event := .shutdown }

def twoShutdowns : List UInt8 :=
  [(shutdownEntry 1, shutdownText '1'), (shutdownEntry 2, shutdownText '2')].flatMap
    (writeLine ·.2)

theorem twoShutdowns_written :
    ∀ record ∈ [(shutdownEntry 1, shutdownText '1'), (shutdownEntry 2, shutdownText '2')],
      shutdownJson.toVec record.1 = some record.2 := by
  intro record member
  rcases List.mem_cons.mp member with rfl | later
  · rfl
  · rw [List.mem_singleton.mp later]
    rfl

theorem twoShutdowns_records :
    shutdownJson.Records twoShutdowns [shutdownEntry 1, shutdownEntry 2] :=
  records_written shutdownJson_lawful twoShutdowns_written

theorem entriesFrom_records {raws : List (List UInt8)} {entries : List WalEntry}
    (records : List.Forall₂ serde.Holds raws entries) (seq : Nat) :
    entriesFrom serde seq raws = entries.filter (seq < ·.seq) := by
  induction records with
  | nil => rfl
  | cons held rest ih =>
      obtain ⟨trimmed, read⟩ := held
      simp only [entriesFrom, read, ih, List.filter_cons, decide_eq_true_eq]

/-- A scan of records that has found its offset keeps it. -/
theorem scanLines_found {raws : List (List UInt8)} {entries : List WalEntry}
    (records : List.Forall₂ serde.Holds raws entries) (processedSeq maxSeq : Nat)
    {readOffset : Nat} (found : readOffset ≠ 0) (currentOffset : Nat) :
    (scanLines serde processedSeq raws maxSeq readOffset currentOffset).readOffset = readOffset ∧
      (scanLines serde processedSeq raws maxSeq readOffset currentOffset).corrupt = false := by
  induction records generalizing maxSeq currentOffset with
  | nil => simp [scanLines, found]
  | cons held rest ih =>
      obtain ⟨trimmed, read⟩ := held
      simp only [scanLines, read, found, and_false, ↓reduceIte]
      exact ih _ _

/-- Processed records move the scan on. -/
theorem scanLines_processed {raws : List (List UInt8)} {entries : List WalEntry}
    (records : List.Forall₂ serde.Holds raws entries) {processedSeq : Nat}
    (processed : ∀ entry ∈ entries, entry.seq ≤ processedSeq) (later : List (List UInt8))
    (maxSeq currentOffset : Nat) :
    ∃ newMax, scanLines serde processedSeq (raws ++ later) maxSeq 0 currentOffset =
      scanLines serde processedSeq later newMax 0 (currentOffset + raws.flatten.length) := by
  induction records generalizing maxSeq currentOffset with
  | nil => exact ⟨maxSeq, rfl⟩
  | @cons raw entry raws entries held rest ih =>
      obtain ⟨trimmed, read⟩ := held
      have old : ¬processedSeq < entry.seq := Nat.not_lt.mpr (processed entry List.mem_cons_self)
      obtain ⟨newMax, eq⟩ := ih (fun other member => processed other (List.mem_cons_of_mem _ member))
        (max maxSeq entry.seq) (currentOffset + raw.length)
      refine ⟨newMax, ?_⟩
      simp only [List.cons_append, scanLines, read, old, false_and, ↓reduceIte]
      rw [eq, List.flatten_cons, List.length_append, Nat.add_assoc]

/-- Unprocessed records give the offset of the first, unless that offset is 0:
then it is the offset of the second, or the end of the file. -/
theorem scanLines_unprocessed {raw : List UInt8} {entry : WalEntry} {raws : List (List UInt8)}
    {entries : List WalEntry} (held : serde.Holds raw entry)
    (records : List.Forall₂ serde.Holds raws entries) {processedSeq : Nat}
    (fresh : ∀ other ∈ entry :: entries, processedSeq < other.seq) (nonempty : raw ≠ [])
    (maxSeq currentOffset : Nat) :
    let scan := scanLines serde processedSeq (raw :: raws) maxSeq 0 currentOffset
    scan.readOffset = (if currentOffset = 0 then raw.length else currentOffset) ∧
      scan.corrupt = false := by
  obtain ⟨trimmed, read⟩ := held
  have first : processedSeq < entry.seq := fresh entry List.mem_cons_self
  have length : raw.length ≠ 0 := fun zero => nonempty (List.length_eq_zero_iff.mp zero)
  by_cases start : currentOffset = 0
  · subst start
    simp only [scanLines, read, first, true_and, ↓reduceIte, Nat.zero_add]
    cases records with
    | nil => simp [scanLines]
    | @cons second other raws entries held rest =>
        obtain ⟨trimmed', read'⟩ := held
        have later : processedSeq < other.seq :=
          fresh other (List.mem_cons_of_mem _ List.mem_cons_self)
        simp only [scanLines, read', later, true_and, ↓reduceIte]
        exact scanLines_found rest processedSeq _ length _
  · simp only [scanLines, read, first, true_and, ↓reduceIte, start]
    exact scanLines_found records processedSeq _ start _

theorem scanLines_clean {raws : List (List UInt8)} {entries : List WalEntry}
    (records : List.Forall₂ serde.Holds raws entries)
    (processedSeq maxSeq readOffset currentOffset : Nat) :
    (scanLines serde processedSeq raws maxSeq readOffset currentOffset).corrupt = false := by
  induction records generalizing maxSeq readOffset currentOffset with
  | nil => rfl
  | cons held rest ih =>
      obtain ⟨trimmed, read⟩ := held
      simp only [scanLines, read]
      exact ih _ _ _

theorem flush_flushed {wal : Wal} (flushed : wal.writeBuffer = []) : wal.flush = wal := by
  cases wal
  simp_all [flush]

/-- Reading from the start of some records returns them, and then nothing. -/
theorem drain_records {raws : List (List UInt8)} {entries : List WalEntry}
    (records : List.Forall₂ serde.Holds raws entries) {wal : Wal} (flushed : wal.writeBuffer = [])
    (position : lines newline (wal.file.drop wal.readOffset) = raws) {fuel : Nat}
    (enough : entries.length < fuel) : drain serde fuel wal = entries := by
  induction records generalizing wal fuel with
  | nil =>
      cases fuel with
      | zero => exact absurd enough (Nat.not_lt_zero _)
      | succ fuel =>
          simp only [drain, nextUnprocessed, flush_flushed flushed, position, List.head?_nil]
  | @cons raw entry raws entries held rest ih =>
      obtain ⟨trimmed, read⟩ := held
      cases fuel with
      | zero => exact absurd enough (Nat.not_lt_zero _)
      | succ fuel =>
          have later : lines newline (wal.file.drop (wal.readOffset + raw.length)) = raws := by
            rw [← List.drop_drop]
            exact lines_drop_line position
          have step : wal.nextUnprocessed serde =
              (some entry, { wal with readOffset := wal.readOffset + raw.length }) := by
            simp only [nextUnprocessed, flush_flushed flushed, position, List.head?_cons, read]
          have rest_eq : drain serde fuel { wal with readOffset := wal.readOffset + raw.length } =
              entries := by
            refine ih ?_ ?_ (Nat.lt_of_succ_lt_succ enough)
            · exact flushed
            · exact later
          simp only [drain, step, rest_eq]

/-- An increasing list of entries splits at a sequence number. -/
theorem exists_split {entries : List WalEntry} (increasing : Increasing entries) (seq : Nat) :
    ∃ early late, entries = early ++ late ∧ (∀ entry ∈ early, entry.seq ≤ seq) ∧
      ∀ entry ∈ late, seq < entry.seq := by
  induction entries with
  | nil => exact ⟨[], [], rfl, by simp, by simp⟩
  | cons entry rest ih =>
      obtain ⟨before, later⟩ := List.pairwise_cons.mp increasing
      by_cases old : entry.seq ≤ seq
      · obtain ⟨early, late, split, processed, fresh⟩ := ih later
        refine ⟨entry :: early, late, by rw [split]; rfl, ?_, fresh⟩
        intro other member
        rcases List.mem_cons.mp member with rfl | inside
        · exact old
        · exact processed other inside
      · refine ⟨[], entry :: rest, rfl, by simp, ?_⟩
        intro other member
        have above := Nat.lt_of_not_le old
        rcases List.mem_cons.mp member with rfl | inside
        · exact above
        · exact Nat.lt_trans above (before other inside)

theorem filter_split {early late : List WalEntry} {seq : Nat}
    (processed : ∀ entry ∈ early, entry.seq ≤ seq) (fresh : ∀ entry ∈ late, seq < entry.seq) :
    (early ++ late).filter (seq < ·.seq) = late := by
  rw [List.filter_append]
  have none : early.filter (seq < ·.seq) = [] :=
    List.filter_eq_nil_iff.mpr fun entry member => by simpa using processed entry member
  have all : late.filter (seq < ·.seq) = late :=
    List.filter_eq_self.mpr fun entry member => by simpa using fresh entry member
  rw [none, all]
  rfl

/-- The open of a file of records, whose scan finds no corruption. -/
theorem openFile_clean {file : List UInt8} {processedSeq : Nat}
    (clean : (scanWal serde file processedSeq).corrupt = false) :
    openFile serde file processedSeq =
      ({ file
         writeSeq := (scanWal serde file processedSeq).maxSeq
         processedSeq
         writeBuffer := []
         readOffset := (scanWal serde file processedSeq).readOffset }, none) := by
  simp [openFile, clean]

/-- On a file of records with increasing numbers, the reader returns the
unprocessed ones, without the first one where that is the first of the file. -/
theorem drain_openFile {file : List UInt8} {entries : List WalEntry}
    (records : serde.Records file entries) (increasing : Increasing entries)
    (processedSeq : Nat) {fuel : Nat} (enough : entries.length < fuel) :
    drain serde fuel (openFile serde file processedSeq).1 =
      if (entries.head?).any (processedSeq < ·.seq) then entries.tail
      else entries.filter (processedSeq < ·.seq) := by
  obtain ⟨early, late, rfl, processed, fresh⟩ := exists_split increasing processedSeq
  have earlyRecords := List.forall₂_take_append _ early late records
  have lateRecords := List.forall₂_drop_append _ early late records
  have split : lines newline file = (lines newline file).take early.length ++
      (lines newline file).drop early.length := (List.take_append_drop _ _).symm
  revert earlyRecords lateRecords split
  generalize (lines newline file).take early.length = rawsEarly
  generalize (lines newline file).drop early.length = rawsLate
  intro earlyRecords lateRecords split
  obtain ⟨newMax, scan⟩ := scanLines_processed earlyRecords processed rawsLate 0 0
  rw [← split, Nat.zero_add] at scan
  have nonempty : ∀ raw ∈ rawsEarly ++ rawsLate, raw ≠ [] := fun raw member =>
    ne_nil_of_mem_lines (split ▸ member)
  have first_old : early ≠ [] → ((early ++ late).head?).any (processedSeq < ·.seq) = false := by
    intro some_early
    cases early with
    | nil => exact absurd rfl some_early
    | cons entry rest => simpa using processed entry List.mem_cons_self
  have length_early : late.length < fuel := by
    rw [List.length_append] at enough
    omega
  rw [filter_split processed fresh]
  -- a scan of the whole file that stops at an offset with the given lines after it
  have drains : ∀ {remaining : List WalEntry} {raws : List (List UInt8)} {offset : Nat},
      List.Forall₂ serde.Holds raws remaining → remaining.length < fuel →
      (scanWal serde file processedSeq).readOffset = offset →
      (scanWal serde file processedSeq).corrupt = false →
      lines newline (file.drop offset) = raws →
      drain serde fuel (openFile serde file processedSeq).1 = remaining := by
    intro remaining raws offset held below stops clean position
    rw [openFile_clean clean, stops]
    exact drain_records held rfl position below
  cases lateRecords with
  | nil =>
      have any_false : ((early ++ ([] : List WalEntry)).head?).any
          (fun entry : WalEntry => processedSeq < entry.seq) = false := by
        cases early with
        | nil => rfl
        | cons entry rest => exact first_old (List.cons_ne_nil _ _)
      rw [any_false]
      refine drains List.Forall₂.nil length_early ?_ ?_ (lines_drop_lines split)
      · rw [scanWal, scan]
        rfl
      · rw [scanWal, scan]
        rfl
  | @cons raw entry raws rest held restRecords =>
      have raw_nonempty := nonempty raw (List.mem_append_right _ List.mem_cons_self)
      have stops := scanLines_unprocessed held restRecords fresh raw_nonempty newMax
        rawsEarly.flatten.length
      rw [← scan] at stops
      obtain ⟨stopsAt, clean⟩ := stops
      cases early with
      | nil =>
          cases earlyRecords
          have any_true : (([] ++ entry :: rest).head?).any
              (fun entry : WalEntry => processedSeq < entry.seq) = true := by
            simpa using fresh entry List.mem_cons_self
          rw [any_true]
          have offset : (scanWal serde file processedSeq).readOffset = raw.length :=
            stopsAt.trans (if_pos rfl)
          exact drains restRecords (Nat.lt_of_succ_lt length_early) offset clean
            (lines_drop_line split)
      | cons first others =>
          rw [first_old (List.cons_ne_nil _ _)]
          cases earlyRecords with
          | @cons rawFirst _ rawsOthers _ heldFirst recordsOthers =>
              have positive : (rawFirst :: rawsOthers).flatten.length ≠ 0 := by
                have lead := nonempty rawFirst (List.mem_append_left _ List.mem_cons_self)
                rw [List.flatten_cons, List.length_append]
                have := List.length_pos_iff.mpr lead
                omega
              have offset : (scanWal serde file processedSeq).readOffset =
                  (rawFirst :: rawsOthers).flatten.length := stopsAt.trans (if_neg positive)
              exact drains (.cons held restRecords) length_early offset clean
                (lines_drop_lines split)

/-- The reader is placed on the unprocessed suffix exactly when the first record
of the file, if there is one, is processed. -/
theorem open_reads_suffix_iff {file : List UInt8} {entries : List WalEntry}
    (records : serde.Records file entries) (increasing : Increasing entries)
    (processedSeq : Nat) {fuel : Nat} (enough : entries.length < fuel) :
    (drain serde fuel (openFile serde file processedSeq).1 =
          entries.filter (processedSeq < ·.seq) ∧
        (openFile serde file processedSeq).1.entriesAfter serde processedSeq =
          entries.filter (processedSeq < ·.seq)) ↔
      ∀ first, entries.head? = some first → first.seq ≤ processedSeq := by
  have after : (openFile serde file processedSeq).1.entriesAfter serde processedSeq =
      entries.filter (processedSeq < ·.seq) := by
    rw [openFile_clean (scanLines_clean records processedSeq 0 0 0)]
    exact entriesFrom_records records processedSeq
  rw [drain_openFile records increasing processedSeq enough, after]
  cases entries with
  | nil => simp
  | cons entry rest =>
      by_cases new : processedSeq < entry.seq
      · have missing : rest ≠ (entry :: rest).filter (processedSeq < ·.seq) := by
          intro same
          have count := congrArg List.length same
          have all : (entry :: rest).filter (processedSeq < ·.seq) = entry :: rest := by
            refine List.filter_eq_self.mpr fun other member => ?_
            rcases List.mem_cons.mp member with rfl | inside
            · simpa using new
            · have above := (List.pairwise_cons.mp increasing).1 other inside
              simpa using Nat.lt_trans new above
          rw [all, List.length_cons] at count
          omega
        refine iff_of_false ?_ ?_
        · intro reads
          exact missing (by simpa [new] using reads.1)
        · intro processed
          exact absurd (processed entry rfl) (Nat.not_le.mpr new)
      · refine iff_of_true ⟨by simp [new], rfl⟩ ?_
        intro first head
        cases head
        exact Nat.not_lt.mp new

theorem open_reads_suffix_second :
    drain shutdownJson 3 (openFile shutdownJson twoShutdowns 1).1 =
        [shutdownEntry 1, shutdownEntry 2].filter (1 < ·.seq) ∧
      (openFile shutdownJson twoShutdowns 1).1.entriesAfter shutdownJson 1 =
        [shutdownEntry 1, shutdownEntry 2].filter (1 < ·.seq) := by
  refine (open_reads_suffix_iff twoShutdowns_records (by decide) 1 (by decide)).mpr ?_
  intro first head
  cases head
  exact Nat.le_refl 1

/-- The first record of a log is not read if it is unprocessed. -/
theorem open_skips_first :
    shutdownJson.Records twoShutdowns [shutdownEntry 1, shutdownEntry 2] ∧
      Increasing [shutdownEntry 1, shutdownEntry 2] ∧
      (openFile shutdownJson twoShutdowns 0).1.entriesAfter shutdownJson 0 =
        [shutdownEntry 1, shutdownEntry 2] ∧
      drain shutdownJson 3 (openFile shutdownJson twoShutdowns 0).1 = [shutdownEntry 2] := by
  refine ⟨twoShutdowns_records, by decide, ?_, ?_⟩
  · rw [openFile_clean (scanLines_clean twoShutdowns_records 0 0 0 0)]
    exact entriesFrom_records twoShutdowns_records 0
  · have reads := @drain_openFile shutdownJson _ _ twoShutdowns_records (by decide) 0 3 (by decide)
    have unread : ([shutdownEntry 1, shutdownEntry 2].head?).any (0 < ·.seq) = true := by decide
    rw [unread] at reads
    exact reads

end Wal

end OddJobs
