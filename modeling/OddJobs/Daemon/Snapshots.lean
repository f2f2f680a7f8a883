import OddJobs.Storage.State
import OddJobs.Storage.WalOpen

/-!
# Snapshots

The checkpoint task reads the state and the processed number together, but the two
are changed apart: an entry is applied, and handled change by change, before it is
marked; startup replays entries that are handled later; and the cron requests are
applied when they are made.
-/

namespace OddJobs

open Library Wal

/-- What is made of the state under one hold of its lock. -/
inductive Change where
  /-- `apply_event`. -/
  | event (order : WalkOrder) (clock : Clock) (event : Event)
  | job (id : JobId) (update : Job → Job)
  | agentRun (id : AgentRunId) (update : AgentRun → AgentRun)
  | workspace (id : WorkspaceId) (status : WorkspaceStatus)

namespace MaterializedState

def change (state : MaterializedState) : Change → MaterializedState
  | .event order clock event => state.applyEvent order clock event
  | .job id update => state.updateJob id update
  | .agentRun id update => { state with agentRuns := state.agentRuns.modify id update }
  | .workspace id status => state.updateWorkspace id status

def changes (state : MaterializedState) (changes : List Change) : MaterializedState :=
  changes.foldl change state

theorem changes_append (state : MaterializedState) (early late : List Change) :
    state.changes (early ++ late) = (state.changes early).changes late :=
  List.foldl_append

end MaterializedState

/-! ## The daemon, as the checkpoint task sees it -/

/-- The parts of the daemon that change the state. -/
inductive Party where
  | startup
  | handler
  | listener
deriving DecidableEq

/-- A change, with the number of the entry on whose behalf it was made. -/
structure Made where
  party : Party
  seq : Nat
  change : Change

/-- What the checkpoint task saves, with the entries that were done with and all that
had been made of the state by then. -/
structure Saved where
  seq : Nat
  state : MaterializedState
  processed : List WalEntry
  made : List Made

/-- A snapshot and the entries of the log after it. -/
structure Opening where
  seq : Nat
  state : MaterializedState
  entries : List WalEntry
  increasing : Increasing entries
  beyond : ∀ entry ∈ entries, seq < entry.seq

/-- The state and the log, shared by the engine loop, the listener and the checkpoint
task. -/
structure SharedState where
  state : MaterializedState
  processed : List WalEntry
  /-- The entry that the engine loop is at work on. -/
  handling : Option WalEntry
  waiting : List WalEntry
  writeSeq : Nat
  processedSeq : Nat
  /-- The events that cron requests have sent and not applied yet. -/
  requested : List WalEntry
  made : List Made
  saved : List Saved

inductive SharedStep where
  /-- `EventBus::send`. -/
  | send (event : Event)
  /-- The engine loop takes the next entry, and `process_event` applies it. -/
  | recv (order : WalkOrder) (clock : Clock)
  /-- One change of the handler. -/
  | handle (change : Change)
  | markProcessed
  /-- `handle_cron_start` and `handle_cron_stop` send their event. -/
  | request (event : Event)
  /-- They apply it at once. -/
  | applyRequest (index : Nat) (order : WalkOrder) (clock : Clock)
  | checkpoint

def Event.appliedAtOnce : Event → Bool
  | cronStarted .. | cronStopped .. => true
  | _ => false

def Opening.lastSeq (opening : Opening) : Nat :=
  opening.entries.foldl (fun _ entry => entry.seq) opening.seq

/-- `startup_inner` replays the entries after the snapshot over it; they are handled
later. -/
def Opening.replayed (opening : Opening) (order : WalkOrder) (clocks : Nat → Clock) : List Made :=
  opening.entries.map fun entry =>
    ⟨.startup, entry.seq, .event order (clocks entry.seq) entry.event⟩

namespace SharedState

def start (opening : Opening) (order : WalkOrder) (clocks : Nat → Clock) : SharedState where
  state := opening.state.changes ((opening.replayed order clocks).map (·.change))
  processed := []
  handling := none
  waiting := opening.entries
  writeSeq := opening.lastSeq
  processedSeq := opening.seq
  requested := []
  made := opening.replayed order clocks
  saved := []

def entries (shared : SharedState) : List WalEntry :=
  shared.processed ++ (shared.handling.toList ++ shared.waiting)

def send (event : Event) (shared : SharedState) : SharedState :=
  { shared with
    waiting := shared.waiting ++ [⟨shared.writeSeq + 1, event⟩]
    writeSeq := shared.writeSeq + 1 }

def make (party : Party) (seq : Nat) (change : Change) (shared : SharedState) : SharedState :=
  { shared with
    state := shared.state.change change
    made := shared.made ++ [⟨party, seq, change⟩] }

def finish (entry : WalEntry) (shared : SharedState) : SharedState :=
  { shared with
    handling := none
    processed := shared.processed ++ [entry]
    processedSeq := entry.seq }

/-- A shutdown is marked and nothing else; what another entry says is applied. -/
def receive (order : WalkOrder) (clock : Clock) (entry : WalEntry) (shared : SharedState) :
    SharedState :=
  match entry.event with
  | .shutdown => shared.finish entry
  | event => { shared with handling := some entry }.make .handler entry.seq (.event order clock event)

def applyRequested (index : Nat) (order : WalkOrder) (clock : Clock) (entry : WalEntry)
    (shared : SharedState) : SharedState :=
  { shared with requested := shared.requested.eraseIdx index }.make .listener entry.seq
    (.event order clock entry.event)

def save (shared : SharedState) : SharedState :=
  { shared with
    saved := shared.saved ++ [⟨shared.processedSeq, shared.state, shared.processed, shared.made⟩] }

def step (shared : SharedState) : SharedStep → Option SharedState
  | .send event => some (shared.send event)
  | .recv order clock =>
      match shared.handling, shared.waiting with
      | none, entry :: rest => some ({ shared with waiting := rest }.receive order clock entry)
      | _, _ => none
  | .handle change => shared.handling.map fun entry => shared.make .handler entry.seq change
  | .markProcessed => shared.handling.map fun entry => shared.finish entry
  | .request event =>
      if event.appliedAtOnce then
        some { shared.send event with
          requested := shared.requested ++ [⟨shared.writeSeq + 1, event⟩] }
      else none
  | .applyRequest index order clock =>
      shared.requested[index]?.map fun entry => shared.applyRequested index order clock entry
  -- nothing to save before the first processed event
  | .checkpoint => some (if shared.processedSeq = 0 then shared else shared.save)

def run (shared : SharedState) : List SharedStep → Option SharedState
  | [] => some shared
  | action :: rest => (shared.step action).bind fun next => run next rest

def All (holds : SharedState → SharedStep → Prop) : SharedState → List SharedStep → Prop
  | _, [] => True
  | shared, action :: rest =>
      holds shared action ∧ ∀ next, shared.step action = some next → All holds next rest

/-- A snapshot is taken between two entries, and nothing that waits has been applied
already, by the replay at startup or by a cron request. -/
def Meets (shared : SharedState) : SharedStep → Prop
  | .checkpoint => shared.processedSeq = 0 ∨
      (shared.handling = none ∧ ∀ entry ∈ shared.waiting, ∀ made ∈ shared.made, made.seq ≠ entry.seq)
  | _ => True

end SharedState

/-! ## What a snapshot should hold -/

/-- The snapshot holds what was made of the opening, and the handlers of the entries
up to its number have made all of their changes.  It is kept by all steps. -/
structure Saved.Kept (opening : Opening) (shared : SharedState) (saved : Saved) : Prop where
  within : saved.seq ≤ shared.processedSeq
  state : saved.state = opening.state.changes (saved.made.map (·.change))
  processed : saved.processed = shared.entries.filter (·.seq ≤ saved.seq)
  whole : saved.made.filter (fun made => made.party = .handler ∧ made.seq ≤ saved.seq) =
    shared.made.filter (fun made => made.party = .handler ∧ made.seq ≤ saved.seq)

/-- No change on behalf of a later event is in the snapshot. -/
def Saved.NothingLater (saved : Saved) : Prop := ∀ made ∈ saved.made, made.seq ≤ saved.seq

/-- In the snapshot exactly the entries up to its number are processed, each with all
changes that its handler made. -/
structure Saved.Exact (opening : Opening) (shared : SharedState) (saved : Saved) : Prop
    extends Saved.Kept opening shared saved where
  nothingLater : saved.NothingLater

namespace SharedState

/-! ## The invariant -/

/-- The numbers of the log increase, every change was made on behalf of one of its
entries, and the entry in hand has been applied. -/
structure Sound (opening : Opening) (shared : SharedState) : Prop where
  state : shared.state = opening.state.changes (shared.made.map (·.change))
  increasing : Increasing shared.entries
  bounded : ∀ entry ∈ shared.entries, entry.seq ≤ shared.writeSeq
  passed : ∀ entry ∈ shared.processed, entry.seq ≤ shared.processedSeq
  ahead : ∀ entry ∈ shared.handling.toList ++ shared.waiting, shared.processedSeq < entry.seq
  within : shared.processedSeq ≤ shared.writeSeq
  behalf : ∀ made ∈ shared.made, ∃ entry ∈ shared.entries, entry.seq = made.seq
  held : ∀ entry, shared.handling = some entry → ∃ made ∈ shared.made, made.seq = entry.seq
  requests : ∀ request ∈ shared.requested, ∃ entry ∈ shared.entries, entry.seq = request.seq
  kept : ∀ saved ∈ shared.saved, saved.Kept opening shared

variable {opening : Opening} {shared next : SharedState}

theorem entries_send (event : Event) (shared : SharedState) :
    (shared.send event).entries = shared.entries ++ [⟨shared.writeSeq + 1, event⟩] := by
  simp only [entries, send, List.append_assoc]

theorem entries_finish {entry : WalEntry} {rest : List WalEntry}
    (first : shared.handling.toList ++ shared.waiting = entry :: rest) :
    ({ shared with waiting := rest }.finish entry).entries = shared.entries := by
  change (shared.processed ++ [entry]) ++ rest =
    shared.processed ++ (shared.handling.toList ++ shared.waiting)
  rw [first, List.append_assoc]
  rfl

theorem entries_take {entry : WalEntry} {rest : List WalEntry} (idle : shared.handling = none)
    (waiting : shared.waiting = entry :: rest) :
    { shared with waiting := rest, handling := some entry }.entries = shared.entries := by
  simp only [entries, idle, waiting, Option.toList, List.nil_append, List.singleton_append]

theorem filter_later {α : Type} {keep : α → Bool} {item : α} (rest : List α)
    (later : keep item = false) : (rest ++ [item]).filter keep = rest.filter keep := by
  rw [List.filter_append, List.filter_cons_of_neg (by rw [later]; exact Bool.false_ne_true),
    List.filter_nil, List.append_nil]

theorem Sound.send (sound : Sound opening shared) (event : Event) :
    Sound opening (shared.send event) where
  state := sound.state
  increasing := by
    rw [entries_send]
    refine List.pairwise_append.mpr ⟨sound.increasing, List.pairwise_singleton _ _, ?_⟩
    intro entry member other last
    rw [List.mem_singleton.mp last]
    exact Nat.lt_succ_of_le (sound.bounded entry member)
  bounded := by
    intro entry member
    rw [entries_send] at member
    rcases List.mem_append.mp member with earlier | last
    · exact Nat.le_succ_of_le (sound.bounded entry earlier)
    · rw [List.mem_singleton.mp last]
      exact Nat.le_refl _
  passed := sound.passed
  ahead := by
    intro entry member
    rw [SharedState.send, ← List.append_assoc] at member
    rcases List.mem_append.mp member with earlier | last
    · exact sound.ahead entry earlier
    · rw [List.mem_singleton.mp last]
      exact Nat.lt_succ_of_le sound.within
  within := Nat.le_succ_of_le sound.within
  behalf := by
    intro made member
    obtain ⟨entry, present, same⟩ := sound.behalf made member
    refine ⟨entry, ?_, same⟩
    rw [entries_send]
    exact List.mem_append_left _ present
  held := sound.held
  requests := by
    intro request member
    obtain ⟨entry, present, same⟩ := sound.requests request member
    refine ⟨entry, ?_, same⟩
    rw [entries_send]
    exact List.mem_append_left _ present
  kept := by
    intro saved member
    have kept := sound.kept saved member
    refine { kept with processed := ?_ }
    have later : ¬shared.writeSeq + 1 ≤ saved.seq :=
      Nat.not_le_of_lt (Nat.lt_succ_of_le (kept.within.trans sound.within))
    rw [entries_send, filter_later shared.entries (decide_eq_false later)]
    exact kept.processed

/-- A change on behalf of an entry of the log.  A handler makes them for entries that
are not processed. -/
theorem Sound.make (sound : Sound opening shared) {party : Party} {entry : WalEntry}
    (change : Change) (present : entry ∈ shared.entries)
    (unprocessed : party = .handler → shared.processedSeq < entry.seq) :
    Sound opening (shared.make party entry.seq change) where
  state := by
    rw [SharedState.make, List.map_append, MaterializedState.changes_append, ← sound.state]
    rfl
  increasing := sound.increasing
  bounded := sound.bounded
  passed := sound.passed
  ahead := sound.ahead
  within := sound.within
  behalf := by
    intro made member
    rcases List.mem_append.mp member with earlier | last
    · exact sound.behalf made earlier
    · rw [List.mem_singleton.mp last]
      exact ⟨entry, present, rfl⟩
  held := by
    intro held handling
    obtain ⟨made, member, same⟩ := sound.held held handling
    exact ⟨made, List.mem_append_left _ member, same⟩
  requests := sound.requests
  kept := by
    intro saved member
    have kept := sound.kept saved member
    refine { kept with whole := ?_ }
    have later : ¬(party = .handler ∧ entry.seq ≤ saved.seq) := fun ⟨handles, early⟩ =>
      Nat.not_le_of_lt (unprocessed handles) (early.trans kept.within)
    rw [SharedState.make, filter_later shared.made (decide_eq_false later)]
    exact kept.whole

/-- The first entry that is not processed is done with. -/
theorem Sound.finish (sound : Sound opening shared) {entry : WalEntry} {rest : List WalEntry}
    (first : shared.handling.toList ++ shared.waiting = entry :: rest) :
    Sound opening ({ shared with waiting := rest }.finish entry) := by
  have same := entries_finish first
  have present : entry ∈ shared.entries := by
    rw [entries, first]
    exact List.mem_append_right _ List.mem_cons_self
  have passes : shared.processedSeq < entry.seq := by
    refine sound.ahead entry ?_
    rw [first]
    exact List.mem_cons_self
  refine { sound with
    increasing := same ▸ sound.increasing
    bounded := same ▸ sound.bounded
    passed := ?_
    ahead := ?_
    within := sound.bounded entry present
    behalf := same ▸ sound.behalf
    held := ?_
    requests := same ▸ sound.requests
    kept := ?_ }
  · intro other member
    rcases List.mem_append.mp member with earlier | last
    · exact (sound.passed other earlier).trans (Nat.le_of_lt passes)
    · rw [List.mem_singleton.mp last]
      exact Nat.le_refl _
  · intro other member
    have increasing := sound.increasing
    rw [entries, first] at increasing
    exact (List.pairwise_cons.mp (List.pairwise_append.mp increasing).2.1).1 other member
  · intro other handling
    cases handling
  · intro saved member
    have kept := sound.kept saved member
    exact { kept with
      within := kept.within.trans (Nat.le_of_lt passes)
      processed := same ▸ kept.processed }

/-- The next entry is taken in hand, once it has been applied. -/
theorem Sound.take (sound : Sound opening shared) {entry : WalEntry} {rest : List WalEntry}
    (idle : shared.handling = none) (waiting : shared.waiting = entry :: rest)
    (applied : ∃ made ∈ shared.made, made.seq = entry.seq) :
    Sound opening { shared with waiting := rest, handling := some entry } := by
  have same := entries_take idle waiting
  refine { sound with
    increasing := same ▸ sound.increasing
    bounded := same ▸ sound.bounded
    ahead := ?_
    behalf := same ▸ sound.behalf
    held := ?_
    requests := same ▸ sound.requests
    kept := ?_ }
  · have ahead := sound.ahead
    rw [idle, waiting] at ahead
    exact ahead
  · intro held handling
    cases handling
    exact applied
  · intro saved member
    have kept := sound.kept saved member
    exact { kept with processed := same ▸ kept.processed }

theorem Sound.receive (sound : Sound opening shared) {entry : WalEntry} {rest : List WalEntry}
    (idle : shared.handling = none) (waiting : shared.waiting = entry :: rest) (order : WalkOrder)
    (clock : Clock) :
    Sound opening ({ shared with waiting := rest }.receive order clock entry) := by
  have first : shared.handling.toList ++ shared.waiting = entry :: rest := by
    rw [idle, waiting]
    rfl
  have present : entry ∈ shared.entries := by
    rw [entries, first]
    exact List.mem_append_right _ List.mem_cons_self
  have unprocessed : shared.processedSeq < entry.seq := by
    refine sound.ahead entry ?_
    rw [first]
    exact List.mem_cons_self
  unfold SharedState.receive
  split
  · exact sound.finish first
  · have made := sound.make (.event order clock entry.event) present
      fun _ : Party.handler = .handler => unprocessed
    exact made.take idle waiting ⟨_, List.mem_append_right _ (List.mem_singleton_self _), rfl⟩

theorem Sound.processed_eq (sound : Sound opening shared) :
    shared.processed = shared.entries.filter (·.seq ≤ shared.processedSeq) := by
  have early : shared.processed.filter (·.seq ≤ shared.processedSeq) = shared.processed :=
    List.filter_eq_self.mpr fun entry member => decide_eq_true (sound.passed entry member)
  have late : (shared.handling.toList ++ shared.waiting).filter
      (·.seq ≤ shared.processedSeq) = [] :=
    List.filter_eq_nil_iff.mpr fun entry member reached =>
      Nat.not_le_of_lt (sound.ahead entry member) (of_decide_eq_true reached)
  rw [entries, List.filter_append, early, late, List.append_nil]

theorem Sound.save (sound : Sound opening shared) : Sound opening shared.save := by
  refine { sound with kept := ?_ }
  intro saved member
  rcases List.mem_append.mp member with earlier | last
  · have kept := sound.kept saved earlier
    exact { kept with }
  · rw [List.mem_singleton.mp last]
    exact {
      within := Nat.le_refl _
      state := sound.state
      processed := sound.processed_eq
      whole := rfl }

theorem Sound.request (sound : Sound opening shared) (event : Event) :
    Sound opening { shared.send event with
      requested := shared.requested ++ [⟨shared.writeSeq + 1, event⟩] } := by
  have sent := sound.send event
  refine { sent with requests := ?_, kept := ?_ }
  · intro request member
    rcases List.mem_append.mp member with earlier | last
    · exact sent.requests request earlier
    · refine ⟨⟨shared.writeSeq + 1, event⟩, ?_, ?_⟩
      · change _ ∈ (shared.send event).entries
        rw [entries_send]
        exact List.mem_append_right _ (List.mem_singleton_self _)
      · rw [List.mem_singleton.mp last]
  · intro saved member
    exact { sent.kept saved member with }

theorem Sound.applyRequested (sound : Sound opening shared) {index : Nat} {entry : WalEntry}
    (found : shared.requested[index]? = some entry) (order : WalkOrder) (clock : Clock) :
    Sound opening (shared.applyRequested index order clock entry) := by
  obtain ⟨appended, present, same⟩ := sound.requests entry (List.mem_of_getElem? found)
  have made := sound.make (.event order clock entry.event) present
    fun never : Party.listener = .handler => absurd never (by decide)
  rw [same] at made
  refine { made with requests := ?_, kept := ?_ }
  · intro request member
    exact sound.requests request (List.mem_of_mem_eraseIdx member)
  · intro saved member
    exact { made.kept saved member with }

/-- Every step keeps the invariant. -/
theorem Sound.step (sound : Sound opening shared) {action : SharedStep}
    (stepped : shared.step action = some next) : Sound opening next := by
  cases action with
  | send event =>
      cases stepped
      exact sound.send event
  | recv order clock =>
      cases idle : shared.handling with
      | some entry => simp only [SharedState.step, idle, reduceCtorEq] at stepped
      | none =>
          cases waiting : shared.waiting with
          | nil => simp only [SharedState.step, idle, waiting, reduceCtorEq] at stepped
          | cons entry rest =>
              simp only [SharedState.step, idle, waiting, Option.some.injEq] at stepped
              rw [← stepped]
              exact sound.receive idle waiting order clock
  | handle change =>
      obtain ⟨entry, handling, made⟩ := Option.map_eq_some_iff.mp stepped
      have first : entry ∈ shared.handling.toList ++ shared.waiting := by
        rw [handling]
        exact List.mem_cons_self
      rw [← made]
      exact sound.make change (List.mem_append_right _ first) fun _ => sound.ahead entry first
  | markProcessed =>
      obtain ⟨entry, handling, finished⟩ := Option.map_eq_some_iff.mp stepped
      have first : shared.handling.toList ++ shared.waiting = entry :: shared.waiting := by
        rw [handling]
        rfl
      rw [← finished]
      exact sound.finish first
  | request event =>
      obtain ⟨_, requested⟩ := Option.ite_none_right_eq_some.mp stepped
      cases requested
      exact sound.request event
  | applyRequest index order clock =>
      obtain ⟨entry, found, applied⟩ := Option.map_eq_some_iff.mp stepped
      rw [← applied]
      exact sound.applyRequested found order clock
  | checkpoint =>
      cases stepped
      split
      · exact sound
      · exact sound.save

/-- The last number of increasing entries is above all of them. -/
theorem le_lastSeq {entries : List WalEntry} {seq : Nat} (increasing : Increasing entries)
    (beyond : ∀ entry ∈ entries, seq < entry.seq) :
    seq ≤ entries.foldl (fun _ entry => entry.seq) seq ∧
      ∀ entry ∈ entries, entry.seq ≤ entries.foldl (fun _ entry => entry.seq) seq := by
  induction entries generalizing seq with
  | nil => exact ⟨Nat.le_refl _, fun entry member => absurd member List.not_mem_nil⟩
  | cons first rest ih =>
      obtain ⟨above, later⟩ := List.pairwise_cons.mp increasing
      obtain ⟨reached, bounded⟩ := ih later above
      refine ⟨(Nat.le_of_lt (beyond first List.mem_cons_self)).trans reached, ?_⟩
      intro entry member
      rcases List.mem_cons.mp member with rfl | after
      · exact reached
      · exact bounded entry after

theorem sound_start (opening : Opening) (order : WalkOrder) (clocks : Nat → Clock) :
    Sound opening (start opening order clocks) where
  state := rfl
  increasing := opening.increasing
  bounded := (le_lastSeq opening.increasing opening.beyond).2
  passed := fun entry member => absurd member List.not_mem_nil
  ahead := opening.beyond
  within := (le_lastSeq opening.increasing opening.beyond).1
  behalf := by
    intro made member
    obtain ⟨entry, present, same⟩ := List.mem_map.mp member
    exact ⟨entry, present, same ▸ rfl⟩
  held := by
    intro entry handling
    cases handling
  requests := fun entry member => absurd member List.not_mem_nil
  kept := fun saved member => absurd member List.not_mem_nil

/-! ## Snapshots of whole events -/

/-- A snapshot taken now would hold nothing of a later event exactly between two
entries, when nothing that waits has been applied. -/
theorem Sound.nothingLater_iff (sound : Sound opening shared) :
    (∀ made ∈ shared.made, made.seq ≤ shared.processedSeq) ↔
      shared.handling = none ∧ ∀ entry ∈ shared.waiting, ∀ made ∈ shared.made, made.seq ≠ entry.seq := by
  constructor
  · intro nothing
    constructor
    · cases handling : shared.handling with
      | none => rfl
      | some entry =>
          obtain ⟨made, member, same⟩ := sound.held entry handling
          have passes := sound.ahead entry (by rw [handling]; exact List.mem_cons_self)
          exact absurd (same ▸ nothing made member) (Nat.not_le_of_lt passes)
    · intro entry waits made member same
      have passes := sound.ahead entry (List.mem_append_right _ waits)
      exact absurd (same ▸ nothing made member) (Nat.not_le_of_lt passes)
  · rintro ⟨idle, untouched⟩ made member
    obtain ⟨entry, present, same⟩ := sound.behalf made member
    rw [entries, idle] at present
    rcases List.mem_append.mp present with processed | waits
    · rw [← same]
      exact sound.passed entry processed
    · exact absurd same.symm (untouched entry waits made member)

/-- A step that saves nothing leaves the snapshots as they are. -/
theorem saved_step {action : SharedStep} (stepped : shared.step action = some next) :
    next.saved = shared.saved ∨ action = .checkpoint ∧ next.saved = shared.save.saved ∧
      shared.processedSeq ≠ 0 := by
  cases action with
  | send event => exact .inl (Option.some.inj stepped ▸ rfl)
  | recv order clock =>
      left
      simp only [SharedState.step] at stepped
      split at stepped
      · rw [← Option.some.inj stepped]
        unfold SharedState.receive
        split
        · rfl
        · rfl
      · cases stepped
  | handle change =>
      obtain ⟨entry, _, made⟩ := Option.map_eq_some_iff.mp stepped
      exact .inl (made ▸ rfl)
  | markProcessed =>
      obtain ⟨entry, _, finished⟩ := Option.map_eq_some_iff.mp stepped
      exact .inl (finished ▸ rfl)
  | request event =>
      obtain ⟨_, requested⟩ := Option.ite_none_right_eq_some.mp stepped
      exact .inl (Option.some.inj requested ▸ rfl)
  | applyRequest index order clock =>
      obtain ⟨entry, _, applied⟩ := Option.map_eq_some_iff.mp stepped
      exact .inl (applied ▸ rfl)
  | checkpoint =>
      cases stepped
      by_cases fresh : shared.processedSeq = 0
      · rw [if_pos fresh]
        exact .inl rfl
      · rw [if_neg fresh]
        exact .inr ⟨rfl, rfl, fresh⟩

/-- The snapshots after a step hold nothing later when those before it do, and the
step meets the condition. -/
theorem Sound.nothingLater_step (sound : Sound opening shared) {action : SharedStep}
    (stepped : shared.step action = some next) :
    (∀ saved ∈ next.saved, saved.NothingLater) ↔
      (∀ saved ∈ shared.saved, saved.NothingLater) ∧ shared.Meets action := by
  rcases saved_step stepped with same | ⟨rfl, same, begun⟩
  · rw [same]
    refine ⟨fun nothing => ⟨nothing, ?_⟩, fun ⟨nothing, _⟩ => nothing⟩
    cases action with
    | checkpoint =>
        -- a checkpoint that saves nothing comes before the first processed event
        left
        by_contra begun
        cases stepped
        rw [if_neg begun] at same
        have longer := congrArg List.length same
        rw [SharedState.save, List.length_append] at longer
        exact absurd longer (by simp)
    | send | recv | handle | markProcessed | request | applyRequest => exact trivial
  · rw [same]
    change (∀ saved ∈ shared.saved ++ [_], saved.NothingLater) ↔ _
    rw [List.forall_mem_append, List.forall_mem_singleton]
    refine and_congr_right fun _ => ?_
    exact sound.nothingLater_iff.trans (or_iff_right begun).symm

theorem Sound.run {steps : List SharedStep} (sound : Sound opening shared)
    (ran : shared.run steps = some next) : Sound opening next := by
  induction steps generalizing shared with
  | nil =>
      cases ran
      exact sound
  | cons action rest ih =>
      obtain ⟨between, stepped, later⟩ := Option.bind_eq_some_iff.mp ran
      exact ih (sound.step stepped) later

theorem Sound.nothingLater_run {steps : List SharedStep} (sound : Sound opening shared)
    (ran : shared.run steps = some next) :
    (∀ saved ∈ next.saved, saved.NothingLater) ↔
      (∀ saved ∈ shared.saved, saved.NothingLater) ∧ shared.All Meets steps := by
  induction steps generalizing shared with
  | nil =>
      cases ran
      exact (and_iff_left trivial).symm
  | cons action rest ih =>
      obtain ⟨between, stepped, later⟩ := Option.bind_eq_some_iff.mp ran
      have onwards : shared.All Meets (action :: rest) ↔
          shared.Meets action ∧ between.All Meets rest := by
        refine and_congr_right fun _ => ⟨fun all => all between stepped, ?_⟩
        intro all other also
        cases stepped.symm.trans also
        exact all
      rw [ih (sound.step stepped) later, sound.nothingLater_step stepped, onwards, and_assoc]

end SharedState

/-- Every snapshot of a run is exact if and only if each was taken between two entries,
with nothing that waits applied already. -/
theorem snapshots_exact_iff (opening : Opening) (order : WalkOrder) (clocks : Nat → Clock)
    {steps : List SharedStep} {shared : SharedState}
    (ran : (SharedState.start opening order clocks).run steps = some shared) :
    (∀ saved ∈ shared.saved, saved.Exact opening shared) ↔
      (SharedState.start opening order clocks).All SharedState.Meets steps := by
  have started := SharedState.sound_start opening order clocks
  have nothing := started.nothingLater_run ran
  have sound := started.run ran
  constructor
  · intro exact
    exact (nothing.mp fun saved member => (exact saved member).nothingLater).2
  · intro meets saved member
    have none : ∀ saved ∈ (SharedState.start opening order clocks).saved, saved.NothingLater :=
      fun _ never => absurd never List.not_mem_nil
    exact { sound.kept saved member with nothingLater := nothing.mpr ⟨none, meets⟩ saved member }

def Opening.fresh : Opening where
  seq := 0
  state := {}
  entries := []
  increasing := List.Pairwise.nil
  beyond := fun _ never => absurd never List.not_mem_nil

def SharedStep.between : List SharedStep :=
  [.send (.jobCreated "j" "build" "build" "hash" "/" ∅ "plan" 0 "" none),
    .recv .byKey default, .markProcessed, .send (.jobAdvanced "j" "code"), .checkpoint]

theorem snapshot_between : ∃ shared,
    (SharedState.start .fresh .byKey fun _ => default).run SharedStep.between = some shared ∧
      shared.saved.length = 1 ∧ ∀ saved ∈ shared.saved, saved.Exact .fresh shared := by
  refine ⟨_, rfl, rfl,
    (@snapshots_exact_iff .fresh .byKey (fun _ => default) SharedStep.between _ rfl).mpr ?_⟩
  refine ⟨trivial, fun _ sent => ⟨trivial, fun _ taken => ⟨trivial, fun _ marked =>
    ⟨trivial, fun _ sent' => ⟨?_, fun _ _ => trivial⟩⟩⟩⟩⟩
  cases sent
  cases taken
  cases marked
  cases sent'
  refine .inr ⟨rfl, ?_⟩
  intro entry waits made member
  rw [List.mem_singleton.mp waits, List.mem_singleton.mp member]
  decide

/-! ## A snapshot of half an event -/

/-- A job is created and advanced; the checkpoint task comes before the second event
is marked. -/
def SharedStep.halfway : List SharedStep :=
  [.send (.jobCreated "j" "build" "build" "hash" "/" ∅ "plan" 0 "" none),
    .recv .byKey default, .markProcessed,
    .send (.jobAdvanced "j" "code"), .recv .byKey default, .checkpoint]

/-- The snapshot with the number of the first event holds what the second one made. -/
theorem snapshot_of_half : ∃ shared saved,
    (SharedState.start .fresh .byKey fun _ => default).run SharedStep.halfway = some shared ∧
      saved ∈ shared.saved ∧ saved.seq = 1 ∧
      (saved.state.jobs["j"]?).map (·.step) = some "code" ∧ ¬saved.Exact .fresh shared := by
  refine ⟨_, _, rfl, List.mem_singleton_self _, rfl, by decide +kernel, ?_⟩
  intro exact
  have later := exact.nothingLater ⟨.handler, 2, .event .byKey default (.jobAdvanced "j" "code")⟩
    (List.mem_cons_of_mem _ (List.mem_singleton_self _))
  exact absurd later (by decide)

end OddJobs
