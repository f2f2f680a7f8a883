import OddJobs.Storage.WalOpen

/-!
# Restarting on a log

What survives an open of any file, the sequence numbers of the events appended
afterwards, and what a second open makes of them.
-/

namespace OddJobs

open Library.Lines Library.Text

variable {serde : SerdeJson}

def SerdeJson.Readable (serde : SerdeJson) (raw : List UInt8) : Prop :=
  serde.readLine raw ≠ .invalidData ∧ serde.readLine raw ≠ .unparsable

/-- Every line of the file is blank or a record. -/
def SerdeJson.Clean (serde : SerdeJson) (file : List UInt8) : Prop :=
  ∀ raw ∈ lines newline file, serde.Readable raw

/-- The last line of the file has its line feed, or is blank. -/
def SerdeJson.Closed (serde : SerdeJson) (file : List UInt8) : Prop :=
  ∀ raw ∈ lines newline file, newline ∉ raw → serde.readLine raw = .blank

namespace Wal

/-! ## The surviving records -/

def survivorsOf (serde : SerdeJson) : List (List UInt8) → List WalEntry
  | [] => []
  | raw :: rest =>
      match serde.readLine raw with
      | .invalidData | .unparsable => []
      | .blank => survivorsOf serde rest
      | .record _ entry => entry :: survivorsOf serde rest

def survivors (serde : SerdeJson) (file : List UInt8) : List WalEntry :=
  survivorsOf serde (lines newline file)

/-- The greatest sequence number of some entries, starting from a number. -/
def maxSeqFrom : Nat → List WalEntry → Nat
  | maxSeq, [] => maxSeq
  | maxSeq, entry :: rest => maxSeqFrom (max maxSeq entry.seq) rest

theorem le_maxSeqFrom_start (maxSeq : Nat) (entries : List WalEntry) :
    maxSeq ≤ maxSeqFrom maxSeq entries := by
  induction entries generalizing maxSeq with
  | nil => exact Nat.le_refl _
  | cons entry rest ih => exact Nat.le_trans (Nat.le_max_left _ _) (ih _)

theorem seq_le_maxSeqFrom {entries : List WalEntry} {entry : WalEntry} (member : entry ∈ entries)
    (maxSeq : Nat) : entry.seq ≤ maxSeqFrom maxSeq entries := by
  induction entries generalizing maxSeq with
  | nil => cases member
  | cons first rest ih =>
      rcases List.mem_cons.mp member with rfl | later
      · exact Nat.le_trans (Nat.le_max_right _ _) (le_maxSeqFrom_start _ rest)
      · exact ih later _

/-- The greatest number is the start or that of an entry. -/
theorem maxSeqFrom_eq (maxSeq : Nat) (entries : List WalEntry) :
    maxSeqFrom maxSeq entries = maxSeq ∨
      ∃ entry ∈ entries, maxSeqFrom maxSeq entries = entry.seq := by
  induction entries generalizing maxSeq with
  | nil => exact Or.inl rfl
  | cons first rest ih =>
      rcases ih (max maxSeq first.seq) with start | ⟨entry, member, found⟩
      · rcases Nat.le_total maxSeq first.seq with below | above
        · exact Or.inr ⟨first, List.mem_cons_self, start.trans (Nat.max_eq_right below)⟩
        · exact Or.inl (start.trans (Nat.max_eq_left above))
      · exact Or.inr ⟨entry, List.mem_cons_of_mem _ member, found⟩

theorem entriesFrom_eq (seq : Nat) (raws : List (List UInt8)) :
    entriesFrom serde seq raws = (survivorsOf serde raws).filter (seq < ·.seq) := by
  induction raws with
  | nil => rfl
  | cons raw rest ih =>
      cases read : serde.readLine raw with
      | invalidData => simp only [entriesFrom, survivorsOf, read, List.filter_nil]
      | unparsable => simp only [entriesFrom, survivorsOf, read, List.filter_nil]
      | blank => simp only [entriesFrom, survivorsOf, read, ih]
      | record trimmed entry =>
          simp only [entriesFrom, survivorsOf, read, ih, List.filter_cons, decide_eq_true_eq]

theorem mem_entriesAfter {wal : Wal} {seq : Nat} {entry : WalEntry} :
    entry ∈ wal.entriesAfter serde seq ↔ entry ∈ survivors serde wal.file ∧ seq < entry.seq := by
  simp only [entriesAfter, entriesFrom_eq, List.mem_filter, decide_eq_true_eq, survivors]

theorem scanLines_maxSeq (processedSeq : Nat) (raws : List (List UInt8))
    (maxSeq readOffset currentOffset : Nat) :
    (scanLines serde processedSeq raws maxSeq readOffset currentOffset).maxSeq =
      maxSeqFrom maxSeq (survivorsOf serde raws) := by
  induction raws generalizing maxSeq readOffset currentOffset with
  | nil => rfl
  | cons raw rest ih =>
      cases read : serde.readLine raw with
      | invalidData => simp only [scanLines, survivorsOf, read, maxSeqFrom]
      | unparsable => simp only [scanLines, survivorsOf, read, maxSeqFrom]
      | blank => simp only [scanLines, survivorsOf, read, ih]
      | record trimmed entry => simp only [scanLines, survivorsOf, read, ih, maxSeqFrom]

theorem scanLines_corrupt_iff (processedSeq : Nat) (raws : List (List UInt8))
    (maxSeq readOffset currentOffset : Nat) :
    (scanLines serde processedSeq raws maxSeq readOffset currentOffset).corrupt = false ↔
      ∀ raw ∈ raws, serde.Readable raw := by
  induction raws generalizing maxSeq readOffset currentOffset with
  | nil => simp [scanLines]
  | cons raw rest ih =>
      rw [List.forall_mem_cons]
      cases read : serde.readLine raw with
      | invalidData => simp [scanLines, SerdeJson.Readable, read]
      | unparsable => simp [scanLines, SerdeJson.Readable, read]
      | blank => simp [scanLines, SerdeJson.Readable, read, ih]
      | record trimmed entry => simp [scanLines, SerdeJson.Readable, read, ih]

theorem scanWal_clean_iff {file : List UInt8} {processedSeq : Nat} :
    (scanWal serde file processedSeq).corrupt = false ↔ serde.Clean file :=
  scanLines_corrupt_iff processedSeq _ 0 0 0

theorem survivorsOf_append {left right : List (List UInt8)}
    (readable : ∀ raw ∈ left, serde.Readable raw) :
    survivorsOf serde (left ++ right) = survivorsOf serde left ++ survivorsOf serde right := by
  induction left with
  | nil => rfl
  | cons raw rest ih =>
      obtain ⟨first, later⟩ := List.forall_mem_cons.mp readable
      cases read : serde.readLine raw with
      | invalidData => exact absurd read first.1
      | unparsable => exact absurd read first.2
      | blank => simp only [List.cons_append, survivorsOf, read, ih later]
      | record trimmed entry => simp only [List.cons_append, survivorsOf, read, ih later]

/-- The text of a record, as `read_valid_lines` keeps it. -/
structure Kept (serde : SerdeJson) (text : List Char) (entry : WalEntry) : Prop where
  trimmed : Trimmed text
  nonempty : text ≠ []
  oneLine : '\n' ∉ text
  reads : serde.fromStr text = some entry

theorem readLine_record {raw : List UInt8} {trimmed : List Char} {entry : WalEntry}
    (read : serde.readLine raw = .record trimmed entry) :
    ∃ line, decode raw = some line ∧ trimmed = trim line ∧ trimmed ≠ [] ∧
      serde.fromStr trimmed = some entry := by
  unfold SerdeJson.readLine at read
  cases decoded : decode raw with
  | none => simp [decoded] at read
  | some line =>
      by_cases blank : trim line = []
      · simp [decoded, blank] at read
      · cases parsed : serde.fromStr (trim line) with
        | none => simp [decoded, blank, parsed] at read
        | some found =>
            simp only [decoded, blank, ↓reduceIte, parsed, ReadLine.record.injEq] at read
            obtain ⟨rfl, rfl⟩ := read
            exact ⟨line, rfl, rfl, blank, parsed⟩

theorem kept_of_mem_lines {log raw : List UInt8} (member : raw ∈ lines newline log)
    {text : List Char} {entry : WalEntry} (read : serde.readLine raw = .record text entry) :
    Kept serde text entry := by
  obtain ⟨line, decoded, rfl, nonempty, reads⟩ := readLine_record read
  obtain ⟨front, inside, shape⟩ := mem_lines_shape member
  refine ⟨trim_trimmed line, nonempty, newline_notMem_trim inside ?_, reads⟩
  rw [encode_of_decode decoded]
  exact shape

theorem kept_validLines {raws : List (List UInt8)} {log : List UInt8}
    (within : ∀ raw ∈ raws, raw ∈ lines newline log) :
    List.Forall₂ (Kept serde) (validLines serde raws) (survivorsOf serde raws) := by
  induction raws with
  | nil => exact List.Forall₂.nil
  | cons raw rest ih =>
      obtain ⟨first, later⟩ := List.forall_mem_cons.mp within
      cases read : serde.readLine raw with
      | invalidData =>
          simp only [validLines, survivorsOf, read]
          exact List.Forall₂.nil
      | unparsable =>
          simp only [validLines, survivorsOf, read]
          exact List.Forall₂.nil
      | blank =>
          simp only [validLines, survivorsOf, read]
          exact ih later
      | record trimmed entry =>
          simp only [validLines, survivorsOf, read]
          exact List.Forall₂.cons (kept_of_mem_lines first read) (ih later)

theorem Kept.readLine {text : List Char} {entry : WalEntry} (kept : Kept serde text entry) :
    serde.readLine (writeLine text) = .record text entry :=
  SerdeJson.readLine_writeLine kept.trimmed kept.nonempty kept.reads

theorem lines_kept {texts : List (List Char)} {entries : List WalEntry}
    (kept : List.Forall₂ (Kept serde) texts entries) (rest : List UInt8) :
    lines newline (texts.flatMap writeLine ++ rest) =
      texts.map writeLine ++ lines newline rest := by
  have oneLine : ∀ text ∈ texts, '\n' ∉ text := by
    induction kept with
    | nil => simp
    | cons held rest ih => exact List.forall_mem_cons.mpr ⟨held.oneLine, ih⟩
  refine lines_flatMap (fun text member => ?_) rest
  exact ⟨encode text, newline_notMem_encode (oneLine text member), rfl⟩

theorem kept_clean {texts : List (List Char)} {entries : List WalEntry}
    (kept : List.Forall₂ (Kept serde) texts entries) :
    (∀ raw ∈ texts.map writeLine, serde.Readable raw) ∧
      survivorsOf serde (texts.map writeLine) = entries := by
  induction kept with
  | nil => exact ⟨by simp, rfl⟩
  | cons held rest ih =>
      obtain ⟨readable, survive⟩ := ih
      constructor
      · rw [List.map_cons, List.forall_mem_cons]
        exact ⟨by simp [SerdeJson.Readable, held.readLine], readable⟩
      · simp only [List.map_cons, survivorsOf, held.readLine, survive]

theorem cleanFile_lines (serde : SerdeJson) (file : List UInt8) :
    lines newline (cleanFile serde file) = (readValidLines serde file).map writeLine := by
  have kept := @kept_validLines serde (lines newline file) file fun _ member => member
  have split := lines_kept kept []
  rwa [List.append_nil, lines, List.append_nil] at split

/-- The clean file keeps the surviving records and nothing else. -/
theorem cleanFile_clean (serde : SerdeJson) (file : List UInt8) :
    serde.Clean (cleanFile serde file) ∧
      survivors serde (cleanFile serde file) = survivors serde file := by
  rw [SerdeJson.Clean, survivors, cleanFile_lines]
  exact kept_clean (kept_validLines fun _ member => member)

theorem cleanFile_closed (serde : SerdeJson) (file : List UInt8) :
    serde.Closed (cleanFile serde file) := by
  intro raw member outside
  rw [cleanFile_lines] at member
  obtain ⟨text, _, rfl⟩ := List.mem_map.mp member
  exact absurd (List.mem_append_right _ List.mem_cons_self) outside

/-! ## The opened log -/

/-- What an open makes of a file. -/
structure Opened (serde : SerdeJson) (file : List UInt8) (wal : Wal) : Prop where
  flushed : wal.writeBuffer = []
  clean : serde.Clean wal.file
  survives : survivors serde wal.file = survivors serde file
  writeSeq : wal.writeSeq = maxSeqFrom 0 (survivors serde file)
  closed : serde.Closed wal.file ↔ ¬serde.Clean file ∨ serde.Closed file

theorem openFile_opened (serde : SerdeJson) (file : List UInt8) (processedSeq : Nat) :
    Opened serde file (openFile serde file processedSeq).1 := by
  by_cases clean : serde.Clean file
  · rw [openFile_clean (scanWal_clean_iff.mpr clean)]
    exact {
      flushed := rfl
      clean := clean
      survives := rfl
      writeSeq := scanLines_maxSeq processedSeq (lines newline file) 0 0 0
      closed := by simp [clean] }
  · have corrupt : (scanWal serde file processedSeq).corrupt = true :=
      Bool.not_eq_false _ |>.mp fun same => clean (scanWal_clean_iff.mp same)
    obtain ⟨cleaned, survives⟩ := cleanFile_clean serde file
    rw [openFile, if_pos corrupt]
    exact {
      flushed := rfl
      clean := cleaned
      survives := survives
      writeSeq := by
        rw [← survives]
        exact scanLines_maxSeq processedSeq (lines newline (cleanFile serde file)) 0 0 0
      closed := iff_of_true (cleanFile_closed serde file) (Or.inl clean) }

/-! ## Appending to an opened log -/

/-- A call on an open log that does not truncate it. -/
inductive Call where
  | append (event : Event)
  | flush
  | nextUnprocessed
  | markProcessed (seq : Nat)

def Call.run (serde : SerdeJson) (wal : Wal) : Call → List WalEntry × Wal
  | .append event =>
      match wal.append serde event with
      | (none, wal) => ([], wal)
      | (some seq, wal) => ([{ seq, event }], wal)
  | .flush => ([], wal.flush)
  | .nextUnprocessed => ([], (wal.nextUnprocessed serde).2)
  | .markProcessed seq => ([], wal.markProcessed seq)

/-- The entries appended by some calls, and the log after them. -/
def runCalls (serde : SerdeJson) (wal : Wal) : List Call → List WalEntry × Wal
  | [] => ([], wal)
  | call :: later =>
      let (appended, wal) := call.run serde wal
      let (rest, wal) := runCalls serde wal later
      (appended ++ rest, wal)

def contents (wal : Wal) : List UInt8 := wal.flush.file

/-- Reading flushes the log and moves the read position. -/
theorem nextUnprocessed_frame (serde : SerdeJson) (wal : Wal) :
    ∃ readOffset, (wal.nextUnprocessed serde).2 = { wal.flush with readOffset } := by
  simp only [nextUnprocessed]
  split
  next => exact ⟨wal.flush.readOffset, rfl⟩
  next raw _ =>
    split
    next => exact ⟨wal.flush.readOffset, rfl⟩
    next => exact ⟨wal.flush.readOffset, rfl⟩
    next => exact ⟨wal.flush.readOffset + raw.length, rfl⟩
    next => exact ⟨wal.flush.readOffset + raw.length, rfl⟩

/-- What one call writes: the record of the entry it appends, if there is one. -/
theorem Call.run_writes (call : Call) (wal : Wal) :
    ∃ records : List (WalEntry × List Char),
      (call.run serde wal).1 = records.map (·.1) ∧
        (call.run serde wal).2.contents = wal.contents ++ records.flatMap (writeLine ·.2) ∧
        ∀ record ∈ records, serde.toVec record.1 = some record.2 := by
  cases call with
  | append event =>
      cases written : serde.toVec { seq := wal.nextSeq, event } with
      | none => exact ⟨[], by simp [Call.run, Wal.append, written, contents, Wal.flush]⟩
      | some json =>
          refine ⟨[({ seq := wal.nextSeq, event }, json)], ?_⟩
          simp [Call.run, Wal.append, written, contents, Wal.flush, writeLine]
  | flush => exact ⟨[], by simp [Call.run, contents, Wal.flush]⟩
  | nextUnprocessed =>
      obtain ⟨readOffset, same⟩ := nextUnprocessed_frame serde wal
      exact ⟨[], by simp [Call.run, same, contents, Wal.flush]⟩
  | markProcessed seq =>
      exact ⟨[], by simp [Call.run, Wal.markProcessed, contents, Wal.flush]⟩

theorem runCalls_writes (calls : List Call) (wal : Wal) :
    ∃ records : List (WalEntry × List Char),
      (runCalls serde wal calls).1 = records.map (·.1) ∧
        (runCalls serde wal calls).2.contents =
          wal.contents ++ records.flatMap (writeLine ·.2) ∧
        ∀ record ∈ records, serde.toVec record.1 = some record.2 := by
  induction calls generalizing wal with
  | nil => exact ⟨[], by simp [runCalls]⟩
  | cons call later ih =>
      obtain ⟨first, appended, written, fresh⟩ := @Call.run_writes serde call wal
      obtain ⟨rest, laterAppended, laterWritten, laterFresh⟩ := ih (call.run serde wal).2
      refine ⟨first ++ rest, ?_, ?_, List.forall_mem_append.mpr ⟨fresh, laterFresh⟩⟩
      · simp [runCalls, appended, laterAppended]
      · simp [runCalls, laterWritten, written]

def Call.isAppend : Call → Bool
  | append _ => true
  | _ => false

/-- No call of `append` returns an error. -/
def Accepts (serde : SerdeJson) : Wal → List Call → Prop
  | _, [] => True
  | wal, call :: later =>
      (∀ event, call = .append event → (wal.append serde event).1 ≠ none) ∧
        Accepts serde (call.run serde wal).2 later

/-- The numbers of the appended entries follow each other, and wrap. -/
theorem runCalls_numbers {calls : List Call} {wal : Wal} (accepts : Accepts serde wal calls) :
    (runCalls serde wal calls).1.map (·.seq) =
      (List.range (calls.countP Call.isAppend)).map fun i =>
        (wal.writeSeq + 1 + i) % U64_VALUES := by
  induction calls generalizing wal with
  | nil => rfl
  | cons call later ih =>
      obtain ⟨accepted, rest⟩ := accepts
      have split : (runCalls serde wal (call :: later)).1 =
          (call.run serde wal).1 ++ (runCalls serde (call.run serde wal).2 later).1 := rfl
      rw [split, List.map_append, ih rest]
      cases call with
      | append event =>
          cases written : serde.toVec { seq := wal.nextSeq, event } with
          | none =>
              refine absurd ?_ (accepted event rfl)
              simp only [Wal.append, written]
          | some json =>
              have ran : (Call.append event).run serde wal =
                  ([{ seq := wal.nextSeq, event }], { wal with
                    writeSeq := wal.nextSeq
                    writeBuffer := wal.writeBuffer ++ [encode json] }) := by
                simp only [Call.run, Wal.append, written]
              rw [ran, List.countP_cons_of_pos rfl, List.range_succ_eq_map, List.map_singleton,
                List.singleton_append, List.map_cons, List.map_map]
              congr 1
              refine List.map_congr_left fun i _ => ?_
              change ((wal.writeSeq + 1) % U64_VALUES + 1 + i) % U64_VALUES =
                (wal.writeSeq + 1 + (i + 1)) % U64_VALUES
              rw [Nat.add_assoc, Nat.mod_add_mod, Nat.add_comm 1 i]
      | flush => rfl
      | nextUnprocessed =>
          obtain ⟨readOffset, same⟩ := nextUnprocessed_frame serde wal
          have kept : (Call.nextUnprocessed.run serde wal).2.writeSeq = wal.writeSeq := by
            simp only [Call.run, same, Wal.flush]
          rw [kept]
          rfl
      | markProcessed seq => rfl

/-! ## The second open -/

/-- What a line without a line feed becomes when a record is written after it. -/
theorem readLine_glued (lawful : serde.Lawful) {tail : List UInt8} {line : List Char}
    (decoded : decode tail = some line) {entry : WalEntry} {json : List Char}
    (writes : serde.toVec entry = some json) :
    ∃ before after, line = before ++ trim line ++ after ∧ (∀ c ∈ after, isWhiteSpace c = true) ∧
      serde.readLine (tail ++ writeLine json) =
        if trim line = [] then .record json entry
        else match serde.fromStr (trim line ++ after ++ json) with
          | none => .unparsable
          | some found => .record (trim line ++ after ++ json) found := by
  obtain ⟨before, after, split, blankBefore, blankAfter⟩ := exists_trim line
  refine ⟨before, after, split, blankAfter, ?_⟩
  have whole : decode (tail ++ writeLine json) = some (line ++ json ++ ['\n']) := by
    rw [← encode_of_decode decoded, writeLine, ← encode_newline, ← encode_append, ← encode_append,
      decode_encode, List.append_assoc]
  have trimmed := lawful.trimmed writes
  have nonempty := lawful.nonempty writes
  by_cases blank : trim line = []
  · have trims : trim (line ++ json ++ ['\n']) = json :=
      trim_space trimmed nonempty (blank_of_trim blank) newline_white
    simp only [SerdeJson.readLine, whole, trims, nonempty, ↓reduceIte, blank,
      lawful.roundTrip entry json writes]
  · have bounded : Trimmed (trim line ++ after ++ json) := by
      constructor
      · intro c first
        rw [List.append_assoc, List.head?_append_of_ne_nil _ blank] at first
        exact (trim_trimmed line).starts c first
      · intro c last
        rw [List.getLast?_append_of_ne_nil _ nonempty] at last
        exact trimmed.ends c last
    have some_text : trim line ++ after ++ json ≠ [] := by simp [nonempty]
    have trims : trim (line ++ json ++ ['\n']) = trim line ++ after ++ json := by
      have shape : line ++ json ++ ['\n'] =
          before ++ (trim line ++ after ++ json) ++ ['\n'] := by
        conv_lhs => rw [split]
        simp only [List.append_assoc]
      rw [shape]
      exact trim_space bounded some_text blankBefore newline_white
    cases read : serde.fromStr (trim line ++ after ++ json) with
    | none => simp only [SerdeJson.readLine, whole, trims, some_text, ↓reduceIte, blank, read]
    | some found => simp only [SerdeJson.readLine, whole, trims, some_text, ↓reduceIte, blank, read]

theorem readLine_blank {raw : List UInt8} (blank : serde.readLine raw = .blank) :
    ∃ line, decode raw = some line ∧ trim line = [] := by
  unfold SerdeJson.readLine at blank
  cases decoded : decode raw with
  | none => simp [decoded] at blank
  | some line =>
      refine ⟨line, rfl, ?_⟩
      by_contra filled
      cases parsed : serde.fromStr (trim line) with
      | none => simp [decoded, filled, parsed] at blank
      | some entry => simp [decoded, filled, parsed] at blank

/-- A blank line without a line feed takes up the record written after it. -/
theorem readLine_blank_glued (lawful : serde.Lawful) {tail : List UInt8}
    (blank : serde.readLine tail = .blank) {entry : WalEntry} {json : List Char}
    (writes : serde.toVec entry = some json) :
    serde.readLine (tail ++ writeLine json) = .record json entry := by
  obtain ⟨line, decoded, none⟩ := readLine_blank blank
  obtain ⟨_, _, _, _, read⟩ := readLine_glued lawful decoded writes
  rw [read, if_pos none]

/-- A record without a line feed spoils the record written after it. -/
theorem readLine_record_glued (lawful : serde.Lawful) {tail : List UInt8} {text : List Char}
    {last : WalEntry} (read : serde.readLine tail = .record text last) {entry : WalEntry}
    {json : List Char} (writes : serde.toVec entry = some json) :
    serde.readLine (tail ++ writeLine json) = .unparsable := by
  obtain ⟨line, decoded, rfl, nonempty, reads⟩ := readLine_record read
  obtain ⟨_, after, _, blank, glued⟩ := readLine_glued lawful decoded writes
  have parses : serde.fromStr (trim line) ≠ none := by simp [reads]
  rw [glued, if_neg nonempty, lawful.trailing _ after entry json parses blank writes]

theorem survivorsOf_holds {raws : List (List UInt8)} {entries : List WalEntry}
    (records : List.Forall₂ serde.Holds raws entries) : survivorsOf serde raws = entries := by
  induction records with
  | nil => rfl
  | cons held rest ih =>
      obtain ⟨trimmed, read⟩ := held
      simp only [survivorsOf, read, ih]

/-- A file is closed where nothing but a blank follows its delimited lines. -/
theorem closed_of_tail {front tail : List UInt8} (ends : Terminated newline front)
    (blank : tail ≠ [] → serde.readLine tail = .blank) (inside : newline ∉ tail) :
    serde.Closed (front ++ tail) := by
  intro raw member outside
  rw [lines_append ends] at member
  rcases List.mem_append.mp member with early | late
  · exact absurd (stop_mem_of_terminated ends early) outside
  · by_cases none : tail = []
    · rw [none] at late
      cases late
    · rw [lines_unterminated none inside] at late
      rw [List.mem_singleton.mp late]
      exact blank none

/-- Records written to a clean and closed file are found after those it had. -/
theorem survivors_written (lawful : serde.Lawful) {file : List UInt8} (clean : serde.Clean file)
    (closed : serde.Closed file) {records : List (WalEntry × List Char)}
    (written : ∀ record ∈ records, serde.toVec record.1 = some record.2) :
    survivors serde (file ++ records.flatMap (writeLine ·.2)) =
      survivors serde file ++ records.map (·.1) := by
  obtain ⟨front, tail, rfl, ends, inside⟩ := @exists_tail _ _ newline file
  have split := lines_append ends tail
  have readable : ∀ raw ∈ lines newline front, serde.Readable raw := fun raw member =>
    clean raw (by rw [split]; exact List.mem_append_left _ member)
  simp only [survivors, List.append_assoc, lines_append ends, survivorsOf_append readable]
  congr 1
  by_cases none : tail = []
  · rw [none, List.nil_append, lines_written lawful written]
    exact survivorsOf_holds (holds_written lawful written)
  · have alone := lines_unterminated none inside
    have blank : serde.readLine tail = .blank :=
      closed tail (by rw [split, alone]; simp) inside
    cases records with
    | nil => simp
    | cons record rest =>
        obtain ⟨writes, later⟩ := List.forall_mem_cons.mp written
        have glued : lines newline (tail ++ (record :: rest).flatMap (writeLine ·.2)) =
            (tail ++ writeLine record.2) :: rest.map (writeLine ·.2) := by
          have outside : newline ∉ tail ++ encode record.2 := by
            simp only [List.mem_append, not_or]
            exact ⟨inside, lawful.line writes⟩
          have shape : tail ++ (record :: rest).flatMap (writeLine ·.2) =
              (tail ++ encode record.2) ++ newline :: rest.flatMap (writeLine ·.2) := by
            simp [writeLine]
          rw [shape, lines_cons_line outside, lines_written lawful later]
          simp [writeLine]
        rw [glued, alone]
        simp only [survivorsOf, readLine_blank_glued lawful blank writes, blank,
          survivorsOf_holds (holds_written lawful later), List.map_cons, List.nil_append]

/-- On a clean file whose last line is an unfinished record, that record and all
that is written after it are lost. -/
theorem survivors_lost (lawful : serde.Lawful) {file : List UInt8} (clean : serde.Clean file)
    (unfinished : ¬serde.Closed file) {record : WalEntry × List Char}
    {later : List (WalEntry × List Char)}
    (written : ∀ other ∈ record :: later, serde.toVec other.1 = some other.2) :
    survivors serde (file ++ (record :: later).flatMap (writeLine ·.2)) =
      (survivors serde file).dropLast := by
  obtain ⟨front, tail, rfl, ends, inside⟩ := @exists_tail _ _ newline file
  have split := lines_append ends tail
  have readable : ∀ raw ∈ lines newline front, serde.Readable raw := fun raw member =>
    clean raw (by rw [split]; exact List.mem_append_left _ member)
  have filled : tail ≠ [] ∧ serde.readLine tail ≠ .blank := by
    by_contra blank
    rw [not_and_or, not_not, not_not] at blank
    refine unfinished (closed_of_tail ends (fun nonempty => ?_) inside)
    exact blank.resolve_left nonempty
  have alone := lines_unterminated filled.1 inside
  have readableTail := clean tail (by rw [split, alone]; simp)
  have writes := written record List.mem_cons_self
  have glued : lines newline (tail ++ (record :: later).flatMap (writeLine ·.2)) =
      (tail ++ writeLine record.2) :: lines newline (later.flatMap (writeLine ·.2)) := by
    have outside : newline ∉ tail ++ encode record.2 := by
      simp only [List.mem_append, not_or]
      exact ⟨inside, lawful.line writes⟩
    have shape : tail ++ (record :: later).flatMap (writeLine ·.2) =
        (tail ++ encode record.2) ++ newline :: later.flatMap (writeLine ·.2) := by
      simp [writeLine]
    rw [shape, lines_cons_line outside]
    simp [writeLine]
  simp only [survivors, List.append_assoc, lines_append ends, survivorsOf_append readable, glued,
    alone]
  cases read : serde.readLine tail with
  | invalidData => exact absurd read readableTail.1
  | unparsable => exact absurd read readableTail.2
  | blank => exact absurd read filled.2
  | record text last =>
      simp only [survivorsOf, readLine_record_glued lawful read writes, read, List.append_nil,
        List.dropLast_concat]

/-- The survivors hold every processed entry's number or a greater one. -/
theorem le_maxSeqFrom_iff {seq : Nat} {entries : List WalEntry} :
    seq ≤ maxSeqFrom 0 entries ↔ seq = 0 ∨ ∃ entry ∈ entries, seq ≤ entry.seq := by
  constructor
  · intro below
    rcases maxSeqFrom_eq 0 entries with start | ⟨entry, member, found⟩
    · exact Or.inl (Nat.le_zero.mp (start ▸ below))
    · exact Or.inr ⟨entry, member, found ▸ below⟩
  · rintro (rfl | ⟨entry, member, below⟩)
    · exact Nat.zero_le _
    · exact Nat.le_trans below (seq_le_maxSeqFrom member 0)

theorem Opened.contents_eq {file : List UInt8} {wal : Wal} (opened : Opened serde file wal) :
    wal.contents = wal.file := by
  rw [contents, flush_flushed opened.flushed]

/-- The numbers that are read are those of a `u64`. -/
def SerdeJson.Bounded (serde : SerdeJson) : Prop :=
  ∀ text entry, serde.fromStr text = some entry → entry.seq < U64_VALUES

theorem survivorsOf_bounded (bounded : SerdeJson.Bounded serde) {raws : List (List UInt8)} :
    ∀ entry ∈ survivorsOf serde raws, entry.seq < U64_VALUES := by
  induction raws with
  | nil => exact nofun
  | cons raw rest ih =>
      intro entry member
      cases read : serde.readLine raw with
      | invalidData | unparsable =>
          rw [survivorsOf, read] at member
          cases member
      | blank =>
          rw [survivorsOf, read] at member
          exact ih entry member
      | record trimmed first =>
          rw [survivorsOf, read] at member
          rcases List.mem_cons.mp member with rfl | later
          · obtain ⟨_, _, _, _, reads⟩ := readLine_record read
            exact bounded _ _ reads
          · exact ih entry later

theorem Opened.bounded (bounded : SerdeJson.Bounded serde) {file : List UInt8} {wal : Wal}
    (opened : Opened serde file wal) : wal.writeSeq < U64_VALUES := by
  rw [opened.writeSeq]
  rcases maxSeqFrom_eq 0 (survivors serde file) with start | ⟨entry, member, same⟩
  · rw [start]
    decide
  · rw [same]
    exact survivorsOf_bounded bounded entry member

/-- Each event that these calls append to the opened log has a number above the
snapshot's, and is found after it when the log is opened again. -/
def AppendsFound (serde : SerdeJson) (file : List UInt8) (processedSeq : Nat)
    (calls : List Call) : Prop :=
  let ran := runCalls serde (openFile serde file processedSeq).1 calls
  ∀ entry ∈ ran.1, processedSeq < entry.seq ∧
    entry ∈ (openFile serde ran.2.contents processedSeq).1.entriesAfter serde processedSeq

section Appends

variable {file : List UInt8} {processedSeq : Nat} {calls : List Call}

/-- The number of an appended entry. -/
theorem exists_number {wal : Wal} (accepts : Accepts serde wal calls) {i : Nat}
    (below : i < calls.countP Call.isAppend) :
    ∃ entry ∈ (runCalls serde wal calls).1, entry.seq = (wal.writeSeq + 1 + i) % U64_VALUES := by
  have member : (wal.writeSeq + 1 + i) % U64_VALUES ∈
      (runCalls serde wal calls).1.map (·.seq) := by
    rw [runCalls_numbers accepts]
    exact List.mem_map.mpr ⟨i, List.mem_range.mpr below, rfl⟩
  exact List.mem_map.mp member

/-- Numbers that do not wrap are above the last one of the file. -/
theorem number_above {wal : Wal} (accepts : Accepts serde wal calls)
    (fits : wal.writeSeq + calls.countP Call.isAppend < U64_VALUES) {entry : WalEntry}
    (member : entry ∈ (runCalls serde wal calls).1) : wal.writeSeq < entry.seq := by
  have number : entry.seq ∈ (runCalls serde wal calls).1.map (·.seq) :=
    List.mem_map.mpr ⟨entry, member, rfl⟩
  rw [runCalls_numbers accepts] at number
  obtain ⟨i, inside, same⟩ := List.mem_map.mp number
  have below := List.mem_range.mp inside
  rw [← same, Nat.mod_eq_of_lt (by omega)]
  omega

/-- All that is appended to an opened log is found again, exactly when nothing is
appended, or the surviving records reach the snapshot's number, the file was
rewritten or is closed, and the numbers do not wrap. -/
theorem appended_found_iff (lawful : serde.Lawful) (bounded : SerdeJson.Bounded serde)
    (accepts : Accepts serde (openFile serde file processedSeq).1 calls) :
    AppendsFound serde file processedSeq calls ↔
      calls.countP Call.isAppend = 0 ∨
        (processedSeq = 0 ∨ ∃ entry ∈ survivors serde file, processedSeq ≤ entry.seq) ∧
          (¬serde.Clean file ∨ serde.Closed file) ∧
          maxSeqFrom 0 (survivors serde file) + calls.countP Call.isAppend < U64_VALUES := by
  have opened := openFile_opened serde file processedSeq
  unfold AppendsFound
  generalize (openFile serde file processedSeq).1 = wal at opened accepts ⊢
  have limit := opened.bounded bounded
  rw [← le_maxSeqFrom_iff, ← opened.writeSeq, ← opened.closed]
  obtain ⟨records, appended, written, writable⟩ := @runCalls_writes serde calls wal
  dsimp only
  constructor
  · intro found
    rcases Nat.eq_zero_or_pos (calls.countP Call.isAppend) with none | some
    · exact .inl none
    right
    have fits : wal.writeSeq + calls.countP Call.isAppend < U64_VALUES := by
      by_contra wraps
      -- the number after the last one is 0
      obtain ⟨entry, member, same⟩ := exists_number accepts
        (show U64_VALUES - 1 - wal.writeSeq < calls.countP Call.isAppend by omega)
      have whole : wal.writeSeq + 1 + (U64_VALUES - 1 - wal.writeSeq) = U64_VALUES := by omega
      rw [whole, Nat.mod_self] at same
      have above := (found entry member).1
      rw [same] at above
      exact Nat.not_lt_zero _ above
    obtain ⟨entry, member, number⟩ := exists_number accepts some
    rw [Nat.add_zero, Nat.mod_eq_of_lt (by omega)] at number
    obtain ⟨above, kept⟩ := found entry member
    refine ⟨by omega, ?_, fits⟩
    by_contra unfinished
    rw [appended] at member
    cases records with
    | nil => cases member
    | cons record later =>
        obtain ⟨survives, _⟩ := mem_entriesAfter.mp kept
        rw [(openFile_opened serde _ processedSeq).survives, written, opened.contents_eq,
          survivors_lost lawful opened.clean unfinished writable, opened.survives] at survives
        have below := seq_le_maxSeqFrom (List.dropLast_subset _ survives) 0
        rw [← opened.writeSeq, number] at below
        exact Nat.not_succ_le_self _ below
  · rintro (none | ⟨reaches, closed, fits⟩)
    · have numbers := runCalls_numbers accepts
      rw [none, List.range_zero, List.map_nil, List.map_eq_nil_iff] at numbers
      rw [numbers]
      exact nofun
    · intro entry member
      have above := Nat.lt_of_le_of_lt reaches (number_above accepts fits member)
      refine ⟨above, mem_entriesAfter.mpr ⟨?_, above⟩⟩
      rw [(openFile_opened serde _ processedSeq).survives, written, opened.contents_eq,
        survivors_written lawful opened.clean closed writable, ← appended]
      exact List.mem_append_right _ member

end Appends

theorem closed_written (lawful : serde.Lawful) {records : List (WalEntry × List Char)}
    (written : ∀ record ∈ records, serde.toVec record.1 = some record.2) :
    serde.Closed (records.flatMap (writeLine ·.2)) := by
  intro raw member outside
  rw [lines_written lawful written] at member
  obtain ⟨record, _, rfl⟩ := List.mem_map.mp member
  exact absurd (List.mem_append_right _ List.mem_cons_self) outside

theorem twoShutdowns_survivors :
    survivors shutdownJson twoShutdowns = [shutdownEntry 1, shutdownEntry 2] :=
  survivorsOf_holds twoShutdowns_records

theorem twoShutdowns_writeSeq : (openFile shutdownJson twoShutdowns 2).1.writeSeq = 2 := by
  rw [(openFile_opened shutdownJson twoShutdowns 2).writeSeq, twoShutdowns_survivors]
  rfl

theorem twoShutdowns_closed : shutdownJson.Closed twoShutdowns :=
  closed_written shutdownJson_lawful twoShutdowns_written

theorem shutdownJson_bounded : SerdeJson.Bounded shutdownJson := by
  intro text entry reads
  simp only [shutdownJson] at reads
  split at reads
  · cases reads
    decide
  · split at reads
    · cases reads
      decide
    · split at reads
      · cases reads
        decide
      · cases reads
/-- A third shutdown written after two processed ones, before the log is flushed and read. -/
theorem appended_found_after_two :
    AppendsFound shutdownJson twoShutdowns 2
      [Call.append .shutdown, Call.flush, Call.nextUnprocessed, Call.markProcessed 3] := by
  have accepts : Accepts shutdownJson (openFile shutdownJson twoShutdowns 2).1
      [Call.append .shutdown, Call.flush, Call.nextUnprocessed, Call.markProcessed 3] := by
    refine ⟨fun event same => ?_, nofun, nofun, nofun, trivial⟩
    cases same
    have next : (openFile shutdownJson twoShutdowns 2).1.nextSeq = 3 := by
      rw [nextSeq, twoShutdowns_writeSeq]
      rfl
    have written : shutdownJson.toVec { seq := 3, event := .shutdown } =
        some (shutdownText '3') := rfl
    simp only [append, next, written, ne_eq, reduceCtorEq, not_false_eq_true]
  refine (appended_found_iff shutdownJson_lawful shutdownJson_bounded accepts).mpr
    (.inr ⟨.inr ?_, .inr twoShutdowns_closed, ?_⟩)
  · rw [twoShutdowns_survivors]
    exact ⟨shutdownEntry 2, by simp, Nat.le_refl 2⟩
  · rw [twoShutdowns_survivors]
    decide

/-- An empty log starts again from 1, whatever the snapshot says. -/
theorem appended_lost_on_empty :
    (runCalls shutdownJson (openFile shutdownJson [] 5).1 [Call.append .shutdown]).1 =
        [shutdownEntry 1] ∧
      ¬5 < (shutdownEntry 1).seq ∧
      (openFile shutdownJson
        (runCalls shutdownJson (openFile shutdownJson [] 5).1 [Call.append .shutdown]).2.contents
        5).1.entriesAfter shutdownJson 5 = [] := by
  have opened : openFile shutdownJson [] 5 =
      ({ file := [], writeSeq := 0, processedSeq := 5, writeBuffer := [], readOffset := 0 },
        none) := rfl
  have written : (runCalls shutdownJson (openFile shutdownJson [] 5).1
      [Call.append .shutdown]).2.contents =
        [(shutdownEntry 1, shutdownText '1')].flatMap (writeLine ·.2) := by
    rw [opened]
    rfl
  have writes : ∀ record ∈ [(shutdownEntry 1, shutdownText '1')],
      shutdownJson.toVec record.1 = some record.2 := by
    intro record member
    rw [List.mem_singleton.mp member]
    rfl
  have survive := survivorsOf_holds (records_written shutdownJson_lawful writes)
  refine ⟨by rw [opened]; rfl, by decide, ?_⟩
  rw [written]
  refine List.eq_nil_iff_forall_not_mem.mpr fun entry member => ?_
  obtain ⟨kept, above⟩ := mem_entriesAfter.mp member
  rw [(openFile_opened shutdownJson _ 5).survives, survivors, survive] at kept
  rw [List.mem_singleton.mp kept] at above
  exact absurd above (by decide)

end Wal

end OddJobs
