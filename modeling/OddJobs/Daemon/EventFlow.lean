import OddJobs.Storage.WalLayout

/-!
# The flow of events

The senders, the engine loop and the checkpoint task around one log, in any
interleaving.  The engine loop marks an entry before it reads the next one; the
checkpoint task reads the processed number, writes its snapshot, and truncates
later.
-/

namespace OddJobs

open Wal

/-- The log and its users, with everything appended and handed out so far. -/
structure EventFlow where
  wal : Wal
  /-- The number of the entry the engine loop is at work on. -/
  handling : Option Nat
  /-- The number of the checkpoint under way. -/
  checkpoint : Option Nat
  appended : List WalEntry
  delivered : List WalEntry

inductive FlowStep where
  /-- `EventBus::send`. -/
  | send (event : Event)
  | flush
  /-- One call of `next_unprocessed` in `EventReader::recv`. -/
  | recv
  /-- The engine loop is done with its entry. -/
  | markProcessed
  | startCheckpoint
  | failCheckpoint
  /-- The snapshot is durable. -/
  | finishCheckpoint

namespace EventFlow

variable (serde : SerdeJson)

def start (processedSeq : Nat) : EventFlow where
  wal := (openFile serde [] processedSeq).1
  handling := none
  checkpoint := none
  appended := []
  delivered := []

def step (flow : EventFlow) : FlowStep → Option EventFlow
  | .send event =>
      match flow.wal.append serde event with
      | (none, wal) => some { flow with wal }
      | (some seq, wal) =>
          some { flow with
            wal
            appended := flow.appended ++ [{ seq, event }] }
  | .flush => some { flow with wal := flow.wal.flush }
  | .recv =>
      match flow.handling with
      | some _ => none
      | none =>
          match flow.wal.nextUnprocessed serde with
          | (none, wal) => some { flow with wal }
          | (some entry, wal) =>
              some { flow with
                wal
                handling := some entry.seq
                delivered := flow.delivered ++ [entry] }
  | .markProcessed =>
      flow.handling.map fun seq =>
        { flow with
          wal := flow.wal.markProcessed seq
          handling := none }
  | .startCheckpoint =>
      match flow.checkpoint with
      | some _ => none
      | none =>
          -- nothing to save before the first processed event
          if flow.wal.processedSeq = 0 then some flow
          else some { flow with checkpoint := some flow.wal.processedSeq }
  | .failCheckpoint => flow.checkpoint.map fun _ => { flow with checkpoint := none }
  | .finishCheckpoint =>
      flow.checkpoint.map fun seq =>
        { flow with
          wal := flow.wal.truncateBefore serde seq
          checkpoint := none }

/-- The appended entries that were not handed out yet. -/
def waiting (flow : EventFlow) : List WalEntry := flow.appended.drop flow.delivered.length

/-- Entries were handed out once each, in the order of their appends, and the
next one to be handed out is the first that waits. -/
def InOrder (flow : EventFlow) : Prop :=
  flow.appended = flow.delivered ++ flow.waiting ∧
    (flow.wal.nextUnprocessed serde).1 = flow.waiting.head?

/-- Numbers do not wrap, and a log is truncated with no entry in the engine's hands.
On a log opened with a processed number, the entries that wait must also have come
beyond that number and the checkpoint's. -/
def Careful (openedAt : Nat) (flow : EventFlow) : FlowStep → Prop
  | .send _ => flow.wal.writeSeq + 1 < U64_VALUES
  | .finishCheckpoint =>
      flow.handling = none ∧
        (openedAt = 0 ∨ ∀ seq, flow.checkpoint = some seq →
          ∀ entry ∈ flow.waiting, seq ≤ entry.seq ∧ flow.wal.processedSeq < entry.seq)
  | _ => True

/-- The flows reached in runs whose steps are all allowed. -/
inductive Run (openedAt : Nat) (allowed : EventFlow → FlowStep → Prop) : EventFlow → Prop where
  | start : Run openedAt allowed (start serde openedAt)
  | step {flow next : EventFlow} (run : Run openedAt allowed flow) (action : FlowStep)
      (may : allowed flow action) (stepped : flow.step serde action = some next) :
      Run openedAt allowed next

variable {serde}

/-! ## The invariant -/

/-- The log holds what waits, in the order of the numbers.  What was read is not
above the entry in the engine's hands, or the last one it was done with. -/
structure Ordered (serde : SerdeJson) (openedAt : Nat) (flow : EventFlow)
    (read late buffered : List Written) : Prop where
  laid : Laid serde flow.wal read late buffered
  increasing : Increasing ((read ++ late ++ buffered).map (·.1))
  bounded : ∀ record ∈ read ++ late ++ buffered, record.1.seq ≤ flow.wal.writeSeq
  passed : ∀ record ∈ read, record.1.seq ≤ flow.handling.getD flow.wal.processedSeq
  ledger : flow.appended = flow.delivered ++ (late ++ buffered).map (·.1)
  /-- Numbers read from the log before are below what waits. -/
  behind : openedAt = 0 → ∀ seq, (flow.wal.processedSeq = seq ∨ flow.handling = some seq ∨
    flow.checkpoint = some seq) → seq ≤ flow.wal.writeSeq ∧
      ∀ record ∈ late ++ buffered, seq < record.1.seq

variable {openedAt : Nat} {flow next : EventFlow} {read late buffered : List Written}

theorem Ordered.waiting_eq (ordered : Ordered serde openedAt flow read late buffered) :
    flow.waiting = (late ++ buffered).map (·.1) := by
  rw [waiting, ordered.ledger, List.drop_left]

theorem Ordered.inOrder (lawful : serde.Lawful)
    (ordered : Ordered serde openedAt flow read late buffered) : flow.InOrder serde := by
  refine ⟨by rw [ordered.waiting_eq]; exact ordered.ledger, ?_⟩
  rw [ordered.waiting_eq]
  cases waits : late ++ buffered with
  | nil =>
      obtain ⟨rfl, rfl⟩ := List.append_eq_nil_iff.mp waits
      rw [ordered.laid.next_none lawful]
      rfl
  | cons record rest =>
      obtain ⟨after, reads, -⟩ := ordered.laid.next_some lawful waits
      rw [reads]
      rfl

theorem start_ordered (serde : SerdeJson) (openedAt : Nat) :
    Ordered serde openedAt (start serde openedAt) [] [] [] where
  laid := ⟨rfl, rfl, rfl, by simp⟩
  increasing := by simp [Increasing]
  bounded := by simp
  passed := by simp
  ledger := rfl
  behind := by
    rintro rfl seq (rfl | handled | saved)
    · exact ⟨Nat.zero_le _, by simp⟩
    · cases handled
    · cases saved

/-! ## One step -/

theorem increasing_append {left right : List Written}
    (increasing : Increasing ((left ++ right).map (·.1))) {early later : Written}
    (first : early ∈ left) (second : later ∈ right) : early.1.seq < later.1.seq := by
  rw [List.map_append] at increasing
  exact (List.pairwise_append.mp increasing).2.2 _ (List.mem_map_of_mem first) _
    (List.mem_map_of_mem second)

def Sound (serde : SerdeJson) (openedAt : Nat) (flow : EventFlow) : Prop :=
  ∃ read late buffered, Ordered serde openedAt flow read late buffered

theorem send_ordered (ordered : Ordered serde openedAt flow read late buffered) {event : Event}
    (below : flow.wal.writeSeq + 1 < U64_VALUES)
    (stepped : flow.step serde (.send event) = some next) : Sound serde openedAt next := by
  have numbered := nextSeq_eq below
  cases writes : serde.toVec { seq := flow.wal.writeSeq + 1, event } with
  | none =>
      -- the number is used up, nothing is written
      have fails : flow.wal.append serde event =
          (none, { flow.wal with writeSeq := flow.wal.writeSeq + 1 }) := by
        simp only [append, numbered, writes]
      simp only [step, fails, Option.some.injEq] at stepped
      subst stepped
      refine ⟨read, late, buffered, ?_⟩
      exact {
        laid := ⟨ordered.laid.file, ordered.laid.buffer, ordered.laid.position,
          ordered.laid.written⟩
        increasing := ordered.increasing
        bounded := fun record member => Nat.le_succ_of_le (ordered.bounded record member)
        passed := ordered.passed
        ledger := ordered.ledger
        behind := fun fresh seq known =>
          ⟨Nat.le_succ_of_le (ordered.behind fresh seq known).1, (ordered.behind fresh seq known).2⟩ }
  | some json =>
      rw [← numbered] at writes
      obtain ⟨_, laid⟩ := ordered.laid.append writes
      rw [numbered] at writes laid
      have appends : flow.wal.append serde event = (some (flow.wal.writeSeq + 1),
          { flow.wal with
            writeSeq := flow.wal.writeSeq + 1
            writeBuffer := flow.wal.writeBuffer ++ [Library.Text.encode json] }) := by
        simp only [append, numbered, writes]
      rw [appends] at laid
      simp only [step, appends, Option.some.injEq] at stepped
      subst stepped
      refine ⟨read, late, buffered ++ [({ seq := flow.wal.writeSeq + 1, event }, json)], ?_⟩
      exact {
        laid := laid
        increasing := by
          rw [← List.append_assoc, List.map_append]
          refine List.pairwise_append.mpr ⟨ordered.increasing, List.pairwise_singleton _ _, ?_⟩
          intro entry old new isNew
          obtain ⟨record, member, rfl⟩ := List.mem_map.mp old
          rw [List.mem_singleton.mp isNew]
          exact Nat.lt_succ_of_le (ordered.bounded record member)
        bounded := by
          intro record member
          rw [← List.append_assoc] at member
          rcases List.mem_append.mp member with old | new
          · exact Nat.le_succ_of_le (ordered.bounded record old)
          · rw [List.mem_singleton.mp new]
        passed := ordered.passed
        ledger := by simp [ordered.ledger]
        behind := by
          intro fresh seq known
          obtain ⟨below, above⟩ := ordered.behind fresh seq known
          refine ⟨Nat.le_succ_of_le below, fun record member => ?_⟩
          rw [← List.append_assoc] at member
          rcases List.mem_append.mp member with old | new
          · exact above record old
          · rw [List.mem_singleton.mp new]
            exact Nat.lt_succ_of_le below }

theorem flush_ordered (ordered : Ordered serde openedAt flow read late buffered) :
    Ordered serde openedAt { flow with wal := flow.wal.flush } read (late ++ buffered) [] where
  laid := ordered.laid.flush
  increasing := by
    rw [List.append_nil, ← List.append_assoc]
    exact ordered.increasing
  bounded := by
    rw [List.append_nil, ← List.append_assoc]
    exact ordered.bounded
  passed := ordered.passed
  ledger := by
    rw [List.append_nil]
    exact ordered.ledger
  behind := by
    rw [List.append_nil]
    exact ordered.behind

theorem recv_ordered (lawful : serde.Lawful)
    (ordered : Ordered serde openedAt flow read late buffered)
    (stepped : flow.step serde .recv = some next) : Sound serde openedAt next := by
  cases idle : flow.handling with
  | some seq => simp [step, idle] at stepped
  | none =>
      cases waits : late ++ buffered with
      | nil =>
          obtain ⟨rfl, rfl⟩ := List.append_eq_nil_iff.mp waits
          simp only [step, idle, ordered.laid.next_none lawful, Option.some.injEq] at stepped
          subst stepped
          exact ⟨read, _, _, idle ▸ flush_ordered ordered⟩
      | cons record rest =>
          obtain ⟨after, reads, processed, number, laid⟩ := ordered.laid.next_some lawful waits
          simp only [step, idle, reads, Option.some.injEq] at stepped
          subst stepped
          have all : read ++ late ++ buffered = read ++ [record] ++ rest ++ [] := by
            rw [List.append_assoc, waits]
            simp
          have ranks := ordered.increasing
          rw [all] at ranks
          have later : ∀ other ∈ rest, record.1.seq < other.1.seq := by
            intro other member
            have ranks := ranks
            rw [List.append_nil] at ranks
            exact increasing_append ranks (by simp) member
          refine ⟨read ++ [record], rest, [], ?_⟩
          exact {
            laid := laid
            increasing := ranks
            bounded := by
              rw [number, ← all]
              exact ordered.bounded
            passed := by
              intro other member
              rw [List.append_nil, List.append_assoc] at ranks
              rcases List.mem_append.mp member with old | new
              · exact Nat.le_of_lt (increasing_append ranks old (by simp))
              · rw [List.mem_singleton.mp new]
                exact Nat.le_refl _
            ledger := by simp [ordered.ledger, waits]
            behind := by
              intro fresh seq known
              rw [number, List.append_nil]
              have before : (flow.wal.processedSeq = seq ∨ flow.checkpoint = some seq) →
                  seq ≤ flow.wal.writeSeq ∧ ∀ other ∈ rest, seq < other.1.seq := by
                intro old
                obtain ⟨below, above⟩ := ordered.behind fresh seq
                  (old.elim Or.inl fun saved => Or.inr (Or.inr saved))
                rw [waits] at above
                exact ⟨below, fun other member => above other (List.mem_cons_of_mem _ member)⟩
              rcases known with marked | handled | saved
              · exact before (Or.inl (processed ▸ marked))
              · obtain rfl : record.1.seq = seq := Option.some.inj handled
                exact ⟨ordered.bounded record (by rw [all]; simp), later⟩
              · exact before (Or.inr saved) }

theorem markProcessed_ordered (ordered : Ordered serde openedAt flow read late buffered)
    (stepped : flow.step serde .markProcessed = some next) :
    Ordered serde openedAt next read late buffered := by
  cases busy : flow.handling with
  | none => simp [step, busy] at stepped
  | some handled =>
      simp only [step, busy, Option.map_some, Option.some.injEq] at stepped
      subst stepped
      have passed := ordered.passed
      rw [busy] at passed
      exact {
        laid := ⟨ordered.laid.file, ordered.laid.buffer, ordered.laid.position,
          ordered.laid.written⟩
        increasing := ordered.increasing
        bounded := ordered.bounded
        passed := passed
        ledger := ordered.ledger
        behind := by
          intro fresh seq known
          rcases known with marked | idle | saved
          · exact ordered.behind fresh seq (Or.inr (Or.inl (busy.trans (congrArg some marked))))
          · cases idle
          · exact ordered.behind fresh seq (Or.inr (Or.inr saved)) }

theorem startCheckpoint_ordered (ordered : Ordered serde openedAt flow read late buffered)
    (stepped : flow.step serde .startCheckpoint = some next) :
    Ordered serde openedAt next read late buffered := by
  cases free : flow.checkpoint with
  | some seq => simp [step, free] at stepped
  | none =>
      by_cases nothing : flow.wal.processedSeq = 0
      · simp only [step, free, nothing, ↓reduceIte, Option.some.injEq] at stepped
        exact stepped ▸ ordered
      · simp only [step, free, nothing, ↓reduceIte, Option.some.injEq] at stepped
        subst stepped
        exact {
          laid := ordered.laid
          increasing := ordered.increasing
          bounded := ordered.bounded
          passed := ordered.passed
          ledger := ordered.ledger
          behind := by
            intro fresh seq known
            rcases known with marked | handled | saved
            · exact ordered.behind fresh seq (Or.inl marked)
            · exact ordered.behind fresh seq (Or.inr (Or.inl handled))
            · exact ordered.behind fresh seq (Or.inl (Option.some.inj saved)) }

theorem Ordered.forget (ordered : Ordered serde openedAt flow read late buffered) :
    Ordered serde openedAt { flow with checkpoint := none } read late buffered where
  laid := ordered.laid
  increasing := ordered.increasing
  bounded := ordered.bounded
  passed := ordered.passed
  ledger := ordered.ledger
  behind := by
    intro fresh seq known
    rcases known with marked | handled | saved
    · exact ordered.behind fresh seq (Or.inl marked)
    · exact ordered.behind fresh seq (Or.inr (Or.inl handled))
    · cases saved

/-- A careful truncation drops only records that were read, and reads on where
the log was read to. -/
theorem truncate_ordered (lawful : serde.Lawful)
    (ordered : Ordered serde openedAt flow read late buffered) {seq : Nat}
    (idle : flow.handling = none)
    (ahead : ∀ record ∈ late ++ buffered,
      seq ≤ record.1.seq ∧ flow.wal.processedSeq < record.1.seq) :
    Ordered serde openedAt { flow with wal := flow.wal.truncateBefore serde seq }
      (read.filter (seq ≤ ·.1.seq)) (late ++ buffered) [] := by
  have passed : ∀ record ∈ read.filter (seq ≤ ·.1.seq),
      decide (record.1.seq ≤ flow.wal.processedSeq) = true := by
    intro record member
    have below := ordered.passed record (List.mem_of_mem_filter member)
    rw [idle] at below
    exact decide_eq_true below
  have kept : (read ++ late ++ buffered).filter (seq ≤ ·.1.seq) =
      read.filter (seq ≤ ·.1.seq) ++ (late ++ buffered) := by
    rw [List.append_assoc, List.filter_append]
    congr 1
    exact List.filter_eq_self.mpr fun record member => decide_eq_true (ahead record member).1
  have stops : ∀ record ∈ (late ++ buffered).head?,
      decide (record.1.seq ≤ flow.wal.processedSeq) = false := by
    intro record first
    have member := List.mem_of_mem_head? first
    exact decide_eq_false (Nat.not_le.mpr (ahead record member).2)
  have taken : (read.filter (seq ≤ ·.1.seq) ++ (late ++ buffered)).takeWhile
      (·.1.seq ≤ flow.wal.processedSeq) = read.filter (seq ≤ ·.1.seq) := by
    rw [List.takeWhile_append_of_pos passed]
    cases waits : late ++ buffered with
    | nil => rw [List.takeWhile_nil, List.append_nil]
    | cons record rest =>
        rw [List.takeWhile_cons, stops record (by rw [waits]; rfl)]
        simp
  have dropped : (read.filter (seq ≤ ·.1.seq) ++ (late ++ buffered)).dropWhile
      (·.1.seq ≤ flow.wal.processedSeq) = late ++ buffered := by
    rw [List.dropWhile_append_of_pos passed]
    cases waits : late ++ buffered with
    | nil => rfl
    | cons record rest =>
        rw [List.dropWhile_cons, stops record (by rw [waits]; rfl)]
        simp
  have laid := ordered.laid.truncateBefore lawful seq
  simp only [kept, taken, dropped] at laid
  have sublist : List.Sublist (read.filter (fun record : Written => seq ≤ record.1.seq) ++
      (late ++ buffered) ++ []) (read ++ late ++ buffered) := by
    rw [List.append_nil, ← kept]
    exact List.filter_sublist
  exact {
    laid := laid
    increasing := List.Pairwise.sublist (sublist.map (·.1)) ordered.increasing
    bounded := fun record member => ordered.bounded record (sublist.subset member)
    passed := by
      intro record member
      exact ordered.passed record (List.mem_of_mem_filter member)
    ledger := by rw [List.append_nil]; exact ordered.ledger
    behind := by rw [List.append_nil]; exact ordered.behind }

theorem finishCheckpoint_ordered (lawful : serde.Lawful)
    (ordered : Ordered serde openedAt flow read late buffered)
    (careful : Careful openedAt flow .finishCheckpoint)
    (stepped : flow.step serde .finishCheckpoint = some next) : Sound serde openedAt next := by
  obtain ⟨idle, above⟩ := careful
  cases saved : flow.checkpoint with
  | none => simp [step, saved] at stepped
  | some seq =>
      simp only [step, saved, Option.map_some, Option.some.injEq] at stepped
      subst stepped
      have ahead : ∀ record ∈ late ++ buffered,
          seq ≤ record.1.seq ∧ flow.wal.processedSeq < record.1.seq := by
        intro record member
        rcases above with fresh | above
        · have old := (ordered.behind fresh seq (Or.inr (Or.inr saved))).2 record member
          have marked := (ordered.behind fresh flow.wal.processedSeq (Or.inl rfl)).2 record member
          exact ⟨Nat.le_of_lt old, marked⟩
        · refine above seq saved record.1 ?_
          rw [ordered.waiting_eq]
          exact List.mem_map_of_mem member
      exact ⟨_, _, _, (truncate_ordered lawful ordered idle ahead).forget⟩

/-! ## Runs -/

theorem step_sound (lawful : serde.Lawful) (sound : Sound serde openedAt flow)
    {action : FlowStep} (careful : Careful openedAt flow action)
    (stepped : flow.step serde action = some next) : Sound serde openedAt next := by
  obtain ⟨read, late, buffered, ordered⟩ := sound
  cases action with
  | send event => exact send_ordered ordered careful stepped
  | flush =>
      cases stepped
      exact ⟨_, _, _, flush_ordered ordered⟩
  | recv => exact recv_ordered lawful ordered stepped
  | markProcessed => exact ⟨_, _, _, markProcessed_ordered ordered stepped⟩
  | startCheckpoint => exact ⟨_, _, _, startCheckpoint_ordered ordered stepped⟩
  | failCheckpoint =>
      cases saved : flow.checkpoint with
      | none => simp [step, saved] at stepped
      | some seq =>
          simp only [step, saved, Option.map_some, Option.some.injEq] at stepped
          subst stepped
          exact ⟨_, _, _, ordered.forget⟩
  | finishCheckpoint => exact finishCheckpoint_ordered lawful ordered careful stepped

theorem run_sound (lawful : serde.Lawful) (run : Run serde openedAt (Careful openedAt) flow) :
    Sound serde openedAt flow := by
  induction run with
  | start => exact ⟨[], [], [], start_ordered serde openedAt⟩
  | step _ action careful stepped ih => exact step_sound lawful ih careful stepped

/-- Along careful runs every appended event is handed out once, in order. -/
theorem run_inOrder (lawful : serde.Lawful) (run : Run serde openedAt (Careful openedAt) flow) :
    flow.InOrder serde := by
  obtain ⟨read, late, buffered, ordered⟩ := run_sound lawful run
  exact ordered.inOrder lawful

/-! ## A checkpoint between a read and its mark -/

/-- A read takes the first record that waits. -/
theorem recv_step (lawful : serde.Lawful) (idle : flow.handling = none) {record : Written}
    {rest : List Written} (laid : Laid serde flow.wal read late buffered)
    (waits : late ++ buffered = record :: rest) :
    ∃ after, flow.step serde .recv = some { flow with
        wal := after
        handling := some record.1.seq
        delivered := flow.delivered ++ [record.1] } ∧
      after.processedSeq = flow.wal.processedSeq ∧
      Laid serde after (read ++ [record]) rest [] := by
  obtain ⟨after, reads, processed, -, laid⟩ := laid.next_some lawful waits
  exact ⟨after, by simp only [step, idle, reads], processed, laid⟩

def firstShutdown : Written := (shutdownEntry 1, shutdownText '1')

def secondShutdown : Written := (shutdownEntry 2, shutdownText '2')

def twoSent : EventFlow where
  wal :=
    { file := []
      writeSeq := 2
      processedSeq := 0
      writeBuffer := [Library.Text.encode (shutdownText '1'), Library.Text.encode (shutdownText '2')]
      readOffset := 0 }
  handling := none
  checkpoint := none
  appended := [shutdownEntry 1, shutdownEntry 2]
  delivered := []

theorem twoSent_laid :
    Laid shutdownJson twoSent.wal [] [] [firstShutdown, secondShutdown] :=
  ⟨rfl, rfl, rfl, twoShutdowns_written⟩

/-- Steps that are allowed where the log is not truncated and few events were sent. -/
def Early (allowed : EventFlow → FlowStep → Prop) : Prop :=
  ∀ flow action, action ≠ .finishCheckpoint → (∀ event, action = .send event →
    flow.wal.writeSeq < 2) → allowed flow action

theorem twoSent_run {allowed : EventFlow → FlowStep → Prop} (may : Early allowed) :
    Run shutdownJson 0 allowed twoSent := by
  have first := Run.step (@Run.start shutdownJson 0 allowed) (.send .shutdown)
    (may _ _ (by simp) fun _ _ => by decide) rfl
  exact Run.step first (.send .shutdown) (may _ _ (by simp) fun _ _ => by decide) rfl

def firstSaved (wal : Wal) : EventFlow where
  wal := wal.markProcessed 1
  handling := none
  checkpoint := some 1
  appended := [shutdownEntry 1, shutdownEntry 2]
  delivered := [shutdownEntry 1]

/-- The checkpoint that starts after the first of them was handled is still
under way while the second is handled. -/
theorem second_overtaken {allowed : EventFlow → FlowStep → Prop} (may : Early allowed) :
    ∃ flow, Run shutdownJson 0 allowed flow ∧
      flow.appended = [shutdownEntry 1, shutdownEntry 2] ∧
      flow.delivered = [shutdownEntry 1, shutdownEntry 2] ∧
      flow.handling = some 2 ∧ flow.checkpoint = some 1 ∧ flow.wal.processedSeq = 1 ∧
      Laid shutdownJson flow.wal [firstShutdown, secondShutdown] [] [] := by
  have sent := twoSent_run may
  obtain ⟨wal, reads, _, laid⟩ := recv_step shutdownJson_lawful rfl twoSent_laid rfl
  have received := sent.step .recv (may _ _ (by simp) nofun) reads
  have marked := received.step .markProcessed (may _ _ (by simp) nofun) rfl
  have saving : Run shutdownJson 0 allowed (firstSaved wal) :=
    marked.step .startCheckpoint (may _ _ (by simp) nofun) rfl
  have again : Laid shutdownJson (firstSaved wal).wal [firstShutdown] [secondShutdown] [] :=
    ⟨laid.file, laid.buffer, laid.position, laid.written⟩
  obtain ⟨wal, reads, processed, laid⟩ := recv_step shutdownJson_lawful rfl again rfl
  have overtaken := saving.step .recv (may _ _ (by simp) nofun) reads
  exact ⟨_, overtaken, rfl, rfl, rfl, rfl, processed, laid⟩

/-- A checkpoint that ends after the mark hands nothing out again. -/
theorem careful_checkpoint_inOrder :
    ∃ flow : EventFlow, flow.delivered = [shutdownEntry 1, shutdownEntry 2] ∧
      flow.InOrder shutdownJson := by
  have may : Early (Careful 0) := by
    intro flow action other few
    cases action with
    | finishCheckpoint => exact absurd rfl other
    | send event =>
        have below : flow.wal.writeSeq + 1 < 3 := Nat.succ_lt_succ (few event rfl)
        exact Nat.lt_trans below (by decide)
    | _ => trivial
  obtain ⟨flow, run, _, delivered, handling, checkpoint, _⟩ := second_overtaken may
  have marked := run.step .markProcessed trivial (by simp only [step, handling, Option.map_some]; rfl)
  have saved := marked.step .finishCheckpoint ⟨rfl, Or.inl rfl⟩
    (by simp only [step, checkpoint, Option.map_some]; rfl)
  refine ⟨_, ?_, run_inOrder shutdownJson_lawful saved⟩
  exact delivered

/-- The truncation puts the entry in the engine's hands back in the queue. -/
def secondRewound (flow : EventFlow) : EventFlow where
  wal := (flow.wal.truncateBefore shutdownJson 1).markProcessed 2
  handling := none
  checkpoint := none
  appended := flow.appended
  delivered := flow.delivered

/-- A checkpoint that ends before the mark makes the log hand its entry out again. -/
theorem checkpoint_redelivers :
    ∃ flow, Run shutdownJson 0 (fun _ _ => True) flow ∧
      flow.appended = [shutdownEntry 1, shutdownEntry 2] ∧
      flow.delivered = [shutdownEntry 1, shutdownEntry 2, shutdownEntry 2] := by
  obtain ⟨flow, run, appended, delivered, handling, checkpoint, processed, laid⟩ :=
    second_overtaken fun _ _ _ _ => trivial
  have truncated := run.step .finishCheckpoint trivial
    (by simp only [step, checkpoint, Option.map_some]; rfl)
  have marked : Run shutdownJson 0 (fun _ _ => True) (secondRewound flow) :=
    truncated.step .markProcessed trivial (by simp only [step, handling, Option.map_some]; rfl)
  have rewound : Laid shutdownJson (secondRewound flow).wal [firstShutdown] [secondShutdown] [] := by
    have truncation := laid.truncateBefore shutdownJson_lawful 1
    rw [processed] at truncation
    exact ⟨truncation.file, truncation.buffer, truncation.position, truncation.written⟩
  obtain ⟨wal, reads, -, -⟩ := recv_step shutdownJson_lawful rfl rewound rfl
  have again := marked.step .recv trivial reads
  exact ⟨_, again, appended, congrArg (· ++ [shutdownEntry 2]) delivered⟩

end EventFlow

end OddJobs
