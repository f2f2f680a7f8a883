import OddJobs.Daemon.EngineLoop
import OddJobs.Storage.Frames

/-!
# Worker slots of finished jobs

A worker record lists the jobs that its worker has under way.  `JobAdvanced` to a
terminal step takes a job off the lists, `WorkerItemDispatched` puts it on one.
-/

namespace OddJobs

open Library

namespace Event

def ends (id : JobId) : Event → Option Bool
  | jobAdvanced other step => if other = id then some (isTerminalStep step) else none
  | jobCreated other _ _ _ _ _ _ _ _ _ => if other = id then some false else none
  | _ => none

end Event

/-- Whether the job has been moved to a terminal step, and not on since. -/
def ended (id : JobId) (events : List Event) : Bool :=
  events.foldl (fun before event => (event.ends id).getD before) false

theorem ended_concat (id : JobId) (events : List Event) (event : Event) :
    ended id (events ++ [event]) = (event.ends id).getD (ended id events) := by
  rw [ended, List.foldl_append]
  rfl

namespace MaterializedState

/-- The event does not list a job that has ended, and the move of a listed job to a
terminal step is not taken for a duplicate. -/
def KeepsSlots (state : MaterializedState) (earlier : List Event) : Event → Prop
  | .workerItemDispatched _ _ id _ => ended id earlier = true → state.jobs[id]? = none
  | .jobAdvanced id step =>
      isTerminalStep step = true → (state.jobs[id]?).any (Job.advanceSkipped step) = true →
      ended id earlier = false → ¬state.Listed id
  | _ => True

def SlotsReleased (state : MaterializedState) (earlier : List Event) : Prop :=
  ∀ (id : JobId) (job : Job), state.jobs[id]? = some job → ended id earlier = true →
    ¬state.Listed id

variable {state : MaterializedState} {earlier : List Event}

/-- Jobs that are not newly listed, not newly ended and not newly created. -/
theorem SlotsReleased.keep (released : state.SlotsReleased earlier) {after : MaterializedState}
    {event : Event} (listed : ∀ id, after.Listed id → state.Listed id)
    (jobs : ∀ (id : JobId) (job : Job), after.jobs[id]? = some job →
      ∃ prior, state.jobs[id]? = some prior)
    (other : ∀ id, event.ends id = none) : after.SlotsReleased (earlier ++ [event]) := by
  intro id job found wasEnded isListed
  rw [ended_concat, other, Option.getD_none] at wasEnded
  obtain ⟨prior, present⟩ := jobs id job found
  exact released id prior present wasEnded (listed id isListed)

theorem listed_updateWorker {workerName ns : String} {update : WorkerRecord → WorkerRecord}
    {id : JobId} (listed : (state.updateWorker workerName ns update).Listed id)
    (keeps : ∀ record : WorkerRecord, id ∈ (update record).activeJobIds →
      id ∈ record.activeJobIds) : state.Listed id := by
  obtain ⟨key, record, found, member⟩ := listed
  have modified : (state.workers.modify (scopedName ns workerName) update)[key]? =
    some record := found
  rw [Table.lookup_modify] at modified
  split at modified
  · obtain ⟨before, present, rfl⟩ := Option.map_eq_some_iff.mp modified
    exact ⟨key, before, present, keeps before member⟩
  · exact ⟨key, record, modified, member⟩

theorem listed_started {workerName : String} {projectRoot : PathBuf}
    {runbookHash queueName : String} {concurrency : Nat} {ns : String} {id : JobId}
    (listed : (state.applyWorkerStarted workerName projectRoot runbookHash queueName concurrency
      ns).Listed id) : state.Listed id := by
  obtain ⟨key, record, found, member⟩ := listed
  unfold applyWorkerStarted at found
  dsimp only at found
  rw [(SameTables.recordProjectRoot state ns projectRoot).workers, Table.lookup_insert] at found
  split at found
  · cases found
    cases before : state.workers[scopedName ns workerName]? with
    | none =>
        rw [before] at member
        cases member
    | some record =>
        rw [before] at member
        exact ⟨scopedName ns workerName, record, before, member⟩
  · exact ⟨key, record, found, member⟩

theorem not_listed_released (id : JobId) : ¬(state.releaseJob id).Listed id := by
  rintro ⟨key, record, found, member⟩
  have mapped : (state.workers.map fun _ record =>
    { record with activeJobIds := record.activeJobIds.filter (· ≠ id) })[key]? = some record := found
  rw [Table.lookup_map] at mapped
  obtain ⟨before, _, rfl⟩ := Option.map_eq_some_iff.mp mapped
  have kept := (List.mem_filter.mp member).2
  exact of_decide_eq_true kept rfl

theorem listed_released {id other : JobId} (listed : (state.releaseJob id).Listed other) :
    state.Listed other := by
  obtain ⟨key, record, found, member⟩ := listed
  have mapped : (state.workers.map fun _ record =>
    { record with activeJobIds := record.activeJobIds.filter (· ≠ id) })[key]? = some record := found
  rw [Table.lookup_map] at mapped
  obtain ⟨before, present, rfl⟩ := Option.map_eq_some_iff.mp mapped
  exact ⟨key, before, present, (List.mem_filter.mp member).1⟩

theorem listed_advanced {clock : Clock} {id other : JobId} {step : String}
    (listed : (state.applyJobAdvanced clock id step).Listed other) : state.Listed other := by
  unfold applyJobAdvanced at listed
  split at listed
  · exact listed
  · dsimp only at listed
    split at listed
    · exact listed_released listed
    · exact listed

theorem advanced_prior {clock : Clock} {id other : JobId} {step : String} {job : Job}
    (found : (state.applyJobAdvanced clock id step).jobs[other]? = some job) :
    ∃ prior, state.jobs[other]? = some prior := by
  have updated : ∀ {job : Job},
      (state.updateJob id (Job.applyAdvanced clock.epochMs step)).jobs[other]? = some job →
      ∃ prior, state.jobs[other]? = some prior := by
    intro job present
    rw [lookup_updateJob] at present
    split at present
    · obtain ⟨prior, before, _⟩ := Option.map_eq_some_iff.mp present
      exact ⟨prior, before⟩
    · exact ⟨job, present⟩
  unfold applyJobAdvanced at found
  split at found
  · exact ⟨job, found⟩
  · dsimp only at found
    split at found
    · exact updated found
    · exact updated found

theorem SlotsReleased.advanced (released : state.SlotsReleased earlier) (clock : Clock)
    {id : JobId} {step : String} (keeps : state.KeepsSlots earlier (.jobAdvanced id step)) :
    (state.applyJobAdvanced clock id step).SlotsReleased
      (earlier ++ [.jobAdvanced id step]) := by
  intro other job found wasEnded isListed
  obtain ⟨prior, present⟩ := advanced_prior found
  have wasListed := listed_advanced isListed
  rw [ended_concat] at wasEnded
  rcases Decidable.em (id = other) with rfl | differs
  · have terminal : isTerminalStep step = true := by
      simpa only [Event.ends, ↓reduceIte, Option.getD_some] using wasEnded
    cases skipped : (state.jobs[id]?).any (Job.advanceSkipped step) with
    | true =>
        cases before : ended id earlier with
        | true => exact released id prior present before wasListed
        | false => exact keeps terminal skipped before wasListed
    | false =>
        unfold applyJobAdvanced at isListed
        rw [skipped, if_neg Bool.false_ne_true] at isListed
        dsimp only at isListed
        rw [if_pos terminal] at isListed
        exact not_listed_released id isListed
  · have before : ended other earlier = true := by
      simpa only [Event.ends, if_neg differs, Option.getD_none] using wasEnded
    exact released other prior present before wasListed

/-- A job begins anew. -/
theorem SlotsReleased.created (released : state.SlotsReleased earlier) {order : WalkOrder}
    {clock : Clock} {id : JobId} {kind name runbookHash : String} {cwd : PathBuf}
    {vars : HashMap String} {initialStep : String} {createdAtEpochMs : Nat} {ns : String}
    {cronName : Option String} :
    let event : Event := .jobCreated id kind name runbookHash cwd vars initialStep
      createdAtEpochMs ns cronName
    (state.applyEvent order clock event).SlotsReleased (earlier ++ [event]) := by
  intro event other job found wasEnded isListed
  rw [ended_concat] at wasEnded
  rcases Decidable.em (id = other) with rfl | differs
  · simp [event, Event.ends] at wasEnded
  · have before : ended other earlier = true := by
      simpa only [event, Event.ends, if_neg differs, Option.getD_none] using wasEnded
    have inserted : (state.jobs.insert id _)[other]? = some job := found
    rw [Table.lookup_insert, if_neg differs] at inserted
    exact released other job inserted before isListed

/-- A job that has not ended, or does not exist, is listed. -/
theorem SlotsReleased.dispatched (released : state.SlotsReleased earlier) {order : WalkOrder}
    {clock : Clock} {workerName itemId : String} {id : JobId} {ns : String}
    (keeps : state.KeepsSlots earlier (.workerItemDispatched workerName itemId id ns)) :
    (state.applyEvent order clock (.workerItemDispatched workerName itemId id ns)).SlotsReleased
      (earlier ++ [.workerItemDispatched workerName itemId id ns]) := by
  intro other job found wasEnded isListed
  rw [ended_concat] at wasEnded
  have before : ended other earlier = true := wasEnded
  have present : state.jobs[other]? = some job := found
  rcases Decidable.em (id = other) with rfl | differs
  · have missing := keeps before
    rw [present] at missing
    cases missing
  · refine released other job present before (listed_updateWorker isListed ?_)
    intro record member
    split at member
    · exact member
    · rcases List.mem_append.mp member with old | new
      · exact old
      · exact absurd (List.mem_singleton.mp new).symm differs

/-- Every event that meets the condition keeps the slots released. -/
theorem slotsReleased_applyEvent (order : WalkOrder) (clock : Clock) {event : Event}
    (released : state.SlotsReleased earlier) (keeps : state.KeepsSlots earlier event) :
    (state.applyEvent order clock event).SlotsReleased (earlier ++ [event]) := by
  have sameWorkers : ∀ {after : MaterializedState}, after.workers = state.workers →
      ∀ id, after.Listed id → state.Listed id := by
    intro after same id listed
    unfold Listed at listed
    rw [same] at listed
    exact listed
  have sameJobs : ∀ (id : JobId) (job : Job), state.jobs[id]? = some job →
      ∃ prior, state.jobs[id]? = some prior := fun id job found => ⟨job, found⟩
  cases event with
  | jobAdvanced id step => exact released.advanced clock keeps
  | jobCreated id kind name runbookHash cwd vars initialStep createdAtEpochMs ns cronName =>
      exact released.created
  | jobDeleted id =>
      refine released.keep (sameWorkers rfl) ?_ fun _ => rfl
      intro other job found
      have erased : (state.jobs.erase id)[other]? = some job := found
      rw [Table.lookup_erase] at erased
      split at erased
      · cases erased
      · exact ⟨job, erased⟩
  | workerItemDispatched workerName itemId id ns => exact released.dispatched keeps
  | workerStarted workerName projectRoot runbookHash queueName concurrency ns =>
      refine released.keep (fun _ => listed_started) ?_ fun _ => rfl
      intro id job found
      have same := state.recordProjectRoot_jobs ns projectRoot
      exact ⟨job, same ▸ found⟩
  | workerStopped workerName ns =>
      exact released.keep (fun _ listed => listed_updateWorker listed fun _ member => member)
        sameJobs fun _ => rfl
  | workerResized workerName concurrency ns =>
      exact released.keep (fun _ listed => listed_updateWorker listed fun _ member => member)
        sameJobs fun _ => rfl
  | workerDeleted workerName ns =>
      refine released.keep ?_ sameJobs fun _ => rfl
      rintro id ⟨key, record, found, member⟩
      have erased : (state.workers.erase (scopedName ns workerName))[key]? = some record := found
      rw [Table.lookup_erase] at erased
      split at erased
      · cases erased
      · exact ⟨key, record, erased, member⟩
  | _ =>
      refine released.keep ?_ ?_ ?_
      · exact sameWorkers (applyEvent_workers order clock state rfl)
      · intro id job found
        obtain ⟨prior, present, _⟩ := (applyEvent_sameHistory order clock state rfl).prior found
        exact ⟨prior, present⟩
      · exact fun _ => rfl

/-- Each event of a log meets the condition in the state that the earlier ones lead to. -/
def KeepSlots (orders : Nat → WalkOrder) (clocks : Nat → Clock) (state : MaterializedState) :
    Nat → List Event → List Event → Prop
  | _, _, [] => True
  | n, earlier, event :: rest =>
      state.KeepsSlots earlier event ∧
      KeepSlots orders clocks (state.applyEvent (orders n) (clocks n) event) (n + 1)
        (earlier ++ [event]) rest

theorem slotsReleased_replay (orders : Nat → WalkOrder) (clocks : Nat → Clock)
    {events : List Event} (released : state.SlotsReleased earlier) (n : Nat)
    (keep : KeepSlots orders clocks state n earlier events) :
    (state.replay orders clocks n events).SlotsReleased (earlier ++ events) := by
  induction events generalizing state earlier n with
  | nil =>
      rw [List.append_nil]
      exact released
  | cons event rest ih =>
      obtain ⟨first, later⟩ := keep
      have next := ih (slotsReleased_applyEvent (orders n) (clocks n) released first) (n + 1) later
      rw [List.append_assoc] at next
      exact next

/-- In every state that a log leads to whose events list no ended job, and skip no
terminal move of a listed one, no job that has ended is listed. -/
theorem replay_slotsReleased (orders : Nat → WalkOrder) (clocks : Nat → Clock)
    (events : List Event) (keep : KeepSlots orders clocks {} 0 [] events) :
    let state := ({} : MaterializedState).replay orders clocks 0 events
    ∀ (id : JobId) (job : Job), state.jobs[id]? = some job → isTerminalStep job.step = true →
      ended id events = true → ∀ (key : String) (record : WorkerRecord),
        state.workers[key]? = some record → id ∉ record.activeJobIds := by
  have nothing : ({} : MaterializedState).SlotsReleased [] := by
    intro id job found
    have missing : (∅ : HashMap Job)[id]? = some job := found
    rw [Table.lookup_empty] at missing
    cases missing
  have released := slotsReleased_replay orders clocks nothing 0 keep
  intro state id job found _ wasEnded key record present member
  exact released id job found wasEnded ⟨key, record, present, member⟩

/-- A job that is listed while it runs, and then ends. -/
theorem finished_job_gives_slot_back :
    let state := ({} : MaterializedState).replay (fun _ => .byKey) (fun _ => ⟨0, 0⟩) 0
      [.workerStarted "joiner" "/" "hash" "parts" 1 "",
        .jobCreated "job" "build" "" "hash" "/" ∅ "plan" 0 "" none,
        .workerItemDispatched "joiner" "item" "job" "", .jobAdvanced "job" "done"]
    ∃ (job : Job) (record : WorkerRecord), state.jobs["job"]? = some job ∧ job.step = "done" ∧
      state.workers["joiner"]? = some record ∧ "job" ∉ record.activeJobIds := by
  intro state
  have jobFound : (state.jobs["job"]?).map (·.step) = some "done" := by decide +kernel
  have recordFound : (state.workers["joiner"]?).isSome = true := by decide +kernel
  obtain ⟨job, found, step⟩ := Option.map_eq_some_iff.mp jobFound
  obtain ⟨record, present⟩ := Option.isSome_iff_exists.mp recordFound
  refine ⟨job, record, found, step, present, ?_⟩
  refine replay_slotsReleased (fun _ => .byKey) (fun _ => ⟨0, 0⟩) _ ?_ "job" job found ?_ ?_
    "joiner" record present
  · refine ⟨trivial, trivial, ?_, ?_, trivial⟩
    · intro wasEnded
      cases wasEnded
    · intro _ skipped
      exact absurd skipped (by decide +kernel)
  · rw [step]
    rfl
  · rfl

/-- The job of an item fails when its workspace cannot be created.  It is listed
afterwards, and it is listed again when the log is read back: it keeps the slot of
its worker although everything is processed. -/
theorem failed_job_keeps_slot :
    let daemon := (Daemon.shop (.diskFull .shop {})).steps (.plain .shop) .silent 12
    daemon.log.isEmpty = true ∧
    ∃ (job : Job) (record : WorkerRecord),
      daemon.runtime.world.state.jobs["job1"]? = some job ∧ job.step = "failed" ∧
      daemon.runtime.world.state.workers["joiner"]? = some record ∧
      "job1" ∈ record.activeJobIds := by
  intro daemon
  have drained : daemon.log.isEmpty = true := by decide +kernel
  have jobFound : (daemon.runtime.world.state.jobs["job1"]?).map (·.step) = some "failed" := by
    decide +kernel
  have recordFound : (daemon.runtime.world.state.workers["joiner"]?).map (·.activeJobIds) =
      some ["job1"] := by
    decide +kernel
  obtain ⟨job, found, step⟩ := Option.map_eq_some_iff.mp jobFound
  obtain ⟨record, present, ids⟩ := Option.map_eq_some_iff.mp recordFound
  constructor
  · exact drained
  · refine ⟨job, record, found, step, present, ?_⟩
    rw [ids]
    exact List.mem_singleton.mpr rfl

end MaterializedState

end OddJobs
