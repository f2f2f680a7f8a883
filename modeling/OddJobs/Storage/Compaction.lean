import OddJobs.Storage.Agreement
import OddJobs.Storage.Checkpoint
import OddJobs.Storage.Marks
import OddJobs.Storage.WalRestart

/-!
# Logs that are cut

A log is truncated behind a snapshot, opened again, and replayed in two parts.  Nothing that a
reader still asks for depends on where it was cut.
-/

namespace OddJobs

open Library.Lines Library.Text

namespace Wal

variable {serde : SerdeJson}

/-- The lines that a truncation keeps are those of the surviving records it keeps. -/
theorem keptLines_survivors (seq : Nat) {raws : List (List UInt8)} {log : List UInt8}
    (within : ∀ raw ∈ raws, raw ∈ lines newline log) :
    List.Forall₂ (Kept serde) ((keptLines serde seq raws).map Prod.snd)
      ((survivorsOf serde raws).filter (seq ≤ ·.seq)) := by
  induction raws with
  | nil => exact .nil
  | cons raw rest ih =>
      obtain ⟨first, later⟩ := List.forall_mem_cons.mp within
      cases read : serde.readLine raw with
      | invalidData | unparsable => simp [keptLines, survivorsOf, read]
      | blank => simpa [keptLines, survivorsOf, read] using ih later
      | record trimmed entry =>
          by_cases above : seq ≤ entry.seq
          · simpa [keptLines, survivorsOf, read, above] using
              And.intro (kept_of_mem_lines first read) (ih later)
          · simpa [keptLines, survivorsOf, read, above] using ih later

theorem entriesAfter_truncateBefore (wal : Wal) {seq later : Nat} (above : seq ≤ later + 1) :
    (wal.truncateBefore serde seq).entriesAfter serde later =
      wal.flush.entriesAfter serde later := by
  have kept := @keptLines_survivors serde seq _ wal.flush.file fun _ member => member
  have file : (wal.truncateBefore serde seq).file =
      ((keptLines serde seq (lines newline wal.flush.file)).map Prod.snd).flatMap writeLine := by
    rw [List.flatMap_map]
    rfl
  have split := lines_kept kept []
  rw [List.append_nil, lines, List.append_nil, ← file] at split
  have stays : ∀ entry : WalEntry, (later < entry.seq ∧ seq ≤ entry.seq) ↔ later < entry.seq :=
    fun entry => and_iff_left_of_imp fun behind => above.trans behind
  simp only [entriesAfter, entriesFrom_eq, split, (kept_clean kept).2, List.filter_filter,
    ← Bool.decide_and, stays]

/-- What the daemon does to the file beside appending to it. -/
inductive Upkeep where
  | reopen (processedSeq : Nat)
  | truncate (seq : Nat)

def Upkeep.run (serde : SerdeJson) (wal : Wal) : Upkeep → Wal
  | reopen processedSeq => (openFile serde wal.flush.file processedSeq).1
  | truncate seq => wal.truncateBefore serde seq

theorem entriesAfter_upkeep (wal : Wal) {upkeep : Upkeep} {later : Nat}
    (above : ∀ seq, upkeep = .truncate seq → seq ≤ later + 1) :
    (upkeep.run serde wal).flush.entriesAfter serde later = wal.flush.entriesAfter serde later := by
  cases upkeep with
  | reopen processedSeq =>
      have opened := openFile_opened serde wal.flush.file processedSeq
      unfold Upkeep.run
      rw [flush_flushed opened.flushed]
      simp only [entriesAfter, entriesFrom_eq]
      exact congrArg _ opened.survives
  | truncate seq =>
      unfold Upkeep.run
      rw [flush_flushed rfl]
      exact entriesAfter_truncateBefore wal (above seq rfl)

/-- However often a log is opened and truncated, and however damaged it was, the entries behind a
number stay, if it has only been truncated up to there. -/
theorem entriesAfter_upkeeps (wal : Wal) {upkeep : List Upkeep} {later : Nat}
    (above : ∀ seq, .truncate seq ∈ upkeep → seq ≤ later + 1) :
    (upkeep.foldl (Upkeep.run serde) wal).flush.entriesAfter serde later =
      wal.flush.entriesAfter serde later := by
  induction upkeep generalizing wal with
  | nil => rfl
  | cons first rest ih =>
      rw [List.foldl_cons, ih _ fun seq member => above seq (.tail _ member)]
      exact entriesAfter_upkeep wal fun seq same => above seq (same ▸ .head _)

/-- Power is lost at any moment: the log still has every entry behind the snapshot that is found. -/
theorem recovery_misses_nothing {State Value : Type} {codec : SnapshotCodec State Value}
    (lawful : codec.Lawful) {state : State} {storage : Storage State}
    (reached : Storage.Reaches codec state storage) {volume : Library.Volume SnapshotFile}
    (lost : storage.volume.LosesPower volume) (wal : Wal) {upkeep : List Upkeep}
    (within : ∀ seq, .truncate seq ∈ upkeep → seq ≤ storage.truncated) :
    ∃ found, codec.loadSnapshot volume = .ok found ∧ ∀ seq, (found.map Snapshot.seq).getD 0 = seq →
      (upkeep.foldl (Upkeep.run serde) wal).flush.entriesAfter serde seq =
        wal.flush.entriesAfter serde seq := by
  obtain ⟨found, loaded, _, covered⟩ := ((reached.sound lawful).keeps.losesPower lost).read
  refine ⟨found, loaded, ?_⟩
  rintro _ rfl
  exact entriesAfter_upkeeps wal fun seq member =>
    ((within seq member).trans covered).trans (Nat.le_succ _)

theorem recovery_misses_nothing_seven :
    ∃ found, Storage.sevenCodec.loadSnapshot Storage.sevenStorage.volume = .ok found ∧
      ∀ seq, (found.map Snapshot.seq).getD 0 = seq →
        ([.truncate 2, .reopen 1].foldl (Upkeep.run shutdownJson)
            (openFile shutdownJson twoShutdowns 0).1).flush.entriesAfter shutdownJson seq =
          (openFile shutdownJson twoShutdowns 0).1.flush.entriesAfter shutdownJson seq :=
  recovery_misses_nothing Storage.sevenCodec_lawful Storage.sevenStorage_reached
    Storage.sevenStorage_losesPower _ (by simp [Storage.sevenStorage])

end Wal

namespace MaterializedState

theorem replay_append (orders : Nat → WalkOrder) (clocks : Nat → Clock) (state : MaterializedState)
    (n : Nat) (early late : List Event) :
    state.replay orders clocks n (early ++ late) =
      (state.replay orders clocks n early).replay orders clocks (n + early.length) late := by
  induction early generalizing state n with
  | nil => rfl
  | cons event rest ih =>
      rw [List.cons_append, replay, ih, replay, List.length_cons, Nat.succ_add_eq_add_succ]

theorem allUnambiguous_append {orders : Nat → WalkOrder} {clocks : Nat → Clock}
    {state : MaterializedState} {n : Nat} {early late : List Event} :
    state.AllUnambiguous orders clocks n (early ++ late) ↔
      state.AllUnambiguous orders clocks n early ∧
        (state.replay orders clocks n early).AllUnambiguous orders clocks (n + early.length)
          late := by
  induction early generalizing state n with
  | nil => exact (and_iff_right trivial).symm
  | cons event rest ih =>
      rw [List.cons_append, AllUnambiguous, ih, AllUnambiguous, replay, List.length_cons,
        Nat.succ_add_eq_add_succ, and_assoc]

/-- Where the log is cut by a snapshot, when its parts are read, and how each process walks its
tables, changes nothing but what is stamped from the clock. -/
theorem replay_cut {live : Nat → WalkOrder} {clocks : Nat → Clock} {state : MaterializedState}
    {n : Nat} {early late : List Event}
    (single : state.AllUnambiguous live clocks n (early ++ late))
    (first second : Nat → WalkOrder) (read reread : Nat → Clock) (m k : Nat) :
    Agrees false (state.replay live clocks n (early ++ late))
      ((state.replay first read m early).replay second reread k late) := by
  obtain ⟨before, after⟩ := allUnambiguous_append.mp single
  rw [replay_append]
  exact ((Agrees.refl false state).replay_any before first read m).replay_any after second reread k

/-- Two runs with agents of their own, the first of which is done. -/
def twoAgents : List Event :=
  [.agentRunCreated "r1" "worker" "work" "" "/" "hash" ∅ 0,
    .agentRunStarted "r1" "a1",
    .agentRunCreated "r2" "worker" "work" "" "/" "hash" ∅ 0,
    .agentRunStarted "r2" "a2",
    .agentSignal "a1" .complete none]

/-- The second agent's signal is behind the snapshot, and the new process walks backwards. -/
theorem replay_cut_twoAgents :
    let second := Event.agentSignal "a2" .complete none
    let backwards : Library.WalkOrder String := ⟨List.reverse, List.reverse_perm⟩
    Agrees false
      (({} : MaterializedState).replay (fun _ => .byKey) (fun _ => default) 0
        (twoAgents ++ [second]))
      ((({} : MaterializedState).replay (fun _ => .byKey) (fun _ => ⟨7, 7⟩) 0 twoAgents).replay
        (fun _ => backwards) (fun _ => ⟨9, 9⟩) 0 [second]) := by
  intro second backwards
  refine replay_cut ?_ _ _ _ _ 0 0
  refine ⟨trivial, trivial, trivial, trivial, ?_, ?_, trivial⟩
  · exact ⟨.of_keys "r1" (by decide +kernel), .of_keys "" (by decide +kernel)⟩
  · exact ⟨.of_keys "r2" (by decide +kernel), .of_keys "" (by decide +kernel)⟩

/-- Events may change places as long as those of each job and each item stay in order: the jobs
and the items come as far as before. -/
theorem replay_shuffled (orders orders' : Nat → WalkOrder) (clocks clocks' : Nat → Clock)
    (state : MaterializedState) (n : Nat) {log shuffled : List Event}
    (jobs : ∀ id, log.filterMap (Event.jobMark id) = shuffled.filterMap (Event.jobMark id))
    (items : ∀ key id, log.filterMap (Event.itemMark key id) =
      shuffled.filterMap (Event.itemMark key id)) :
    (∀ id, (state.replay orders clocks n log).jobCursor id =
        (state.replay orders' clocks' n shuffled).jobCursor id) ∧
      ∀ key id, (state.replay orders clocks n log).itemCursor key id =
        (state.replay orders' clocks' n shuffled).itemCursor key id := by
  constructor
  · intro id
    rw [jobCursor_replay, jobCursor_replay, jobs]
  · intro key id
    rw [itemCursor_replay, itemCursor_replay, items]

/-- Two jobs advance, in either order. -/
theorem replay_shuffled_two :
    let after := ({} : MaterializedState).replay (fun _ => .byKey) (fun _ => default) 0
    let first := Event.jobAdvanced "a" "x"
    let second := Event.jobAdvanced "b" "y"
    (∀ id, (after [first, second]).jobCursor id = (after [second, first]).jobCursor id) ∧
      ∀ key id, (after [first, second]).itemCursor key id =
        (after [second, first]).itemCursor key id := by
  refine replay_shuffled _ _ _ _ _ _ (fun id => ?_) fun _ _ => rfl
  rcases eq_or_ne "a" id with rfl | other
  · rfl
  · simp [List.filterMap_cons, Event.jobMark, Event.jobMark?, other]

end MaterializedState

end OddJobs
