import OddJobs.Engine.Runs
import OddJobs.Library.Moves
import OddJobs.Storage.Frames

/-!
# Slots of workers

A worker keeps its slots through everything that its handlers do with queues, timers
and runbooks.  Only the end of a job, a poll that takes items, and a start or a stop
change them.
-/

namespace OddJobs

open Library

def WorkerState.slots (state : WorkerState) : WorkerState := { state with runbookHash := "" }

def Runtime.updating (workerName : String) (update : WorkerState → WorkerState)
    (runtime : Runtime) : Runtime :=
  { runtime with workerStates := runtime.workerStates.modify workerName update }

/-- Jobs, worker records and the slots of all workers are as they were, and no item is
taken. -/
structure Quiet (before after : Runtime) : Prop where
  jobs : after.world.state.jobs = before.world.state.jobs
  records : after.world.state.workers = before.world.state.workers
  takes : after.world.takes = before.world.takes
  slots : ∀ name : String, (after.workerStates[name]?).map WorkerState.slots =
    (before.workerStates[name]?).map WorkerState.slots
  readings : ∃ read, ∀ n, after.readings n = before.readings (n + read)

theorem Quiet.refl (runtime : Runtime) : Quiet runtime runtime :=
  ⟨rfl, rfl, rfl, fun _ => rfl, 0, fun _ => rfl⟩

theorem Quiet.trans {first second third : Runtime} (early : Quiet first second)
    (late : Quiet second third) : Quiet first third where
  jobs := late.jobs.trans early.jobs
  records := late.records.trans early.records
  takes := late.takes.trans early.takes
  slots := fun name => (late.slots name).trans (early.slots name)
  readings := by
    obtain ⟨before, earlyReadings⟩ := early.readings
    obtain ⟨after, lateReadings⟩ := late.readings
    refine ⟨after + before, fun n => ?_⟩
    rw [lateReadings, earlyReadings, Nat.add_assoc]

/-- A worker still has the slots that it had. -/
theorem Quiet.worker {before after : Runtime} (quiet : Quiet before after) {name : String}
    {state : WorkerState} (found : before.workerStates[name]? = some state) :
    ∃ current, after.workerStates[name]? = some current ∧ current.slots = state.slots := by
  have same := quiet.slots name
  rw [found, Option.map_some] at same
  exact Option.map_eq_some_iff.mp same

/-- And it had the slots that it has. -/
theorem Quiet.worker_before {before after : Runtime} (quiet : Quiet before after) {name : String}
    {current : WorkerState} (found : after.workerStates[name]? = some current) :
    ∃ state, before.workerStates[name]? = some state ∧ state.slots = current.slots := by
  have same := quiet.slots name
  rw [found, Option.map_some] at same
  exact Option.map_eq_some_iff.mp same.symm

theorem closed_quiet : Closed Quiet := ⟨Quiet.refl, Quiet.trans⟩

theorem Quiet.of_aside {outside : Outside} {before after : Runtime}
    (aside : Aside outside before after) : Quiet before after where
  jobs := congrArg (·.jobs) aside.state
  records := congrArg (·.workers) aside.state
  takes := aside.takes
  slots := fun name => by rw [aside.workers]
  readings := aside.readings

def Event.isCalm : Event → Bool
  | workerWake .. => true
  | event => event.onQueues

theorem MaterializedState.applyEvent_calm (order : WalkOrder) (clock : Clock)
    (state : MaterializedState) {event : Event} (calm : event.isCalm = true) :
    (state.applyEvent order clock event).jobs = state.jobs ∧
      (state.applyEvent order clock event).workers = state.workers := by
  cases event with
  | workerWake => exact ⟨rfl, rfl⟩
  | queuePushed | queueTaken | queueCompleted | queueFailed | queueDropped | queueItemRetry
  | queueItemDead => exact ⟨rfl, rfl⟩
  | _ => cases calm

namespace Handler

variable (outside : Outside)

theorem emit_quiet {event : Event} (calm : event.isCalm = true) :
    Program.Moves Quiet (executeAll outside [.emit event]) := by
  intro runtime
  rw [executeAll_emit]
  obtain ⟨jobs, records⟩ := MaterializedState.applyEvent_calm outside.order
    (runtime.world.clocks 0) runtime.world.state calm
  exact ⟨jobs, records, rfl, fun _ => rfl, 0, fun _ => rfl⟩

theorem setTimer_quiet (timer : TimerId) (duration : Nat) :
    Program.Moves Quiet (execute outside (.setTimer timer duration)) :=
  fun _ => ⟨rfl, rfl, rfl, fun _ => rfl, 0, fun _ => rfl⟩

theorem cancelTimer_quiet (timer : TimerId) :
    Program.Moves Quiet (execute outside (.cancelTimer timer)) :=
  fun _ => ⟨rfl, rfl, rfl, fun _ => rfl, 0, fun _ => rfl⟩

theorem pollQueue_quiet (workerName command : String) (cwd : PathBuf) :
    Program.Moves Quiet (executeAll outside [.pollQueue workerName command cwd]) := by
  intro runtime
  refine ⟨rfl, rfl, ?_, fun _ => rfl, 0, fun _ => rfl⟩
  change (runtime.world.requests ++ [Request.pollQueue workerName _ cwd]).filterMap
    Request.take? = _
  rw [List.filterMap_append]
  exact List.append_nil _

theorem readState_quiet {α : Type} (view : MaterializedState → α) :
    Program.Moves Quiet (readState view) := Program.moves_read closed_quiet _

theorem workerState_quiet (workerName : String) : Program.Moves Quiet (workerState workerName) :=
  Program.moves_read closed_quiet _

theorem require_quiet {α : Type} (error : RuntimeError) (value : Option α) :
    Program.Moves Quiet (require error value) := by
  cases value with
  | none => exact Program.moves_throw closed_quiet _
  | some value => exact Program.moves_pure closed_quiet _

theorem cachedRunbook_quiet (hash : String) : Program.Moves Quiet (cachedRunbook outside hash) := by
  intro runtime
  cases known : runtime.runbookAt outside hash with
  | none =>
      obtain ⟨error, ran⟩ := cachedRunbook_unknown outside known
      rw [ran]
      exact .refl runtime
  | some runbook =>
      obtain ⟨runbookCache, ran, aside, _⟩ := cachedRunbook_known outside known
      rw [ran]
      exact .of_aside aside

theorem reloaded_quiet (workerName : String) (state : WorkerState) (runbook : Runbook)
    (runtime : Runtime) : Quiet runtime (runtime.reloaded outside workerName state runbook) := by
  unfold Runtime.reloaded
  dsimp only
  split
  · exact ⟨rfl, rfl, rfl, fun _ => rfl, 1, fun _ => rfl⟩
  · refine ⟨rfl, rfl, rfl, fun name => ?_, 1, fun _ => rfl⟩
    dsimp only
    rw [Table.lookup_modify]
    split
    · rw [Option.map_map]
      rfl
    · rfl

theorem refreshWorkerRunbook_quiet (workerName : String) :
    Program.Moves Quiet (refreshWorkerRunbook outside workerName) := by
  intro runtime
  cases found : runtime.workerStates[workerName]? with
  | none =>
      have ran : refreshWorkerRunbook outside workerName runtime = (.ok none, runtime) := by
        unfold refreshWorkerRunbook
        rw [Program.run_bind]
        simp only [workerState, Program.run_read, found]
        rfl
      rw [ran]
      exact .refl runtime
  | some state =>
      rcases Classical.em (∃ runbook, (runtime.readings 0).runbook = .ok (some runbook)) with
        ⟨runbook, readable⟩ | unreadable
      · rw [refreshWorkerRunbook_ok outside found readable]
        exact reloaded_quiet outside workerName state runbook runtime
      · obtain ⟨error, ran⟩ := refreshWorkerRunbook_error outside found
          fun runbook read => unreadable ⟨runbook, read⟩
        rw [ran]
        exact ⟨rfl, rfl, rfl, fun _ => rfl, 1, fun _ => rfl⟩

/-- A worker that is not stopped runs already. -/
theorem setRunning_quiet {runtime : Runtime} {workerName : String} {state : WorkerState}
    (found : runtime.workerStates[workerName]? = some state) (running : state.status ≠ .stopped) :
    Quiet runtime { runtime with workerStates :=
      runtime.workerStates.modify workerName fun state => { state with status := .running } } := by
  refine ⟨rfl, rfl, rfl, fun name => ?_, 0, fun _ => rfl⟩
  dsimp only
  rw [Table.lookup_modify]
  split
  · rename_i same
    have status : state.status = .running := by
      cases status : state.status with
      | running => rfl
      | stopped => exact absurd status running
    rw [← same, found, Option.map_some, Option.map_some, Option.map_some, ← status]
  · rfl

/-! ## When a job ends -/

theorem retryOrDead_quiet (retry : Option RetryConfig) (queueName itemId ns : String) :
    Program.Moves Quiet (retryOrDead outside retry queueName itemId ns) := by
  unfold retryOrDead
  refine (readState_quiet _).bind closed_quiet fun item => ?_
  dsimp only
  split
  · exact (setTimer_quiet outside _ _).bind closed_quiet fun _ => Program.moves_pure closed_quiet _
  · exact emit_quiet outside rfl

theorem settleQueueItem_quiet (runbookHash queueName itemId ns terminalStep : String) :
    Program.Moves Quiet
      (settleQueueItem outside runbookHash queueName itemId ns terminalStep) := by
  unfold settleQueueItem
  split
  · exact emit_quiet outside rfl
  · refine (emit_quiet outside rfl).bind closed_quiet fun _ => ?_
    refine (cachedRunbook_quiet outside _).bind closed_quiet fun runbook => ?_
    exact (retryOrDead_quiet outside _ _ _ _).bind closed_quiet fun _ =>
      Program.moves_pure closed_quiet _

theorem pollPersistedQueue_quiet (workerName queueName ns : String) :
    Program.Moves Quiet (pollPersistedQueue outside workerName queueName ns) := by
  unfold pollPersistedQueue
  exact (readState_quiet _).bind closed_quiet fun _ => Program.moves_pure closed_quiet _

theorem pollAgain_quiet (workerName : String) (state : WorkerState) (runbookHash : String) :
    Program.Moves Quiet (pollAgain outside workerName state runbookHash) := by
  unfold pollAgain
  refine (workerState_quiet workerName).bind closed_quiet fun current => ?_
  split
  · split
    · refine (cachedRunbook_quiet outside _).bind closed_quiet fun runbook => ?_
      split
      · exact Program.moves_pure closed_quiet _
      · exact pollQueue_quiet outside _ _ _
    · exact pollPersistedQueue_quiet outside _ _ _
  · exact Program.moves_pure closed_quiet _

def letGo (workerName : String) (jobId : JobId) (runtime : Runtime) : Runtime :=
  { runtime with
    workerStates := runtime.workerStates.modify workerName (·.release jobId) }

section Release

variable {outside} {runtime : Runtime} {jobId : JobId} {workerName : String} {state : WorkerState}

theorem findWorker_found {order : WalkOrder} {workers : HashMap WorkerState}
    (owned : findWorker order jobId workers = some (workerName, state)) :
    workers[workerName]? = some state := by
  unfold findWorker at owned
  obtain ⟨name, _, located⟩ := Option.bind_eq_some_iff.mp owned
  obtain ⟨found, present, same⟩ := Option.map_eq_some_iff.mp located
  cases same
  exact present

/-- The worker that is found has the job. -/
theorem findWorker_active {order : WalkOrder} {workers : HashMap WorkerState}
    (owned : findWorker order jobId workers = some (workerName, state)) :
    state.activeJobs.contains jobId = true := by
  unfold findWorker at owned
  obtain ⟨name, has, located⟩ := Option.bind_eq_some_iff.mp owned
  obtain ⟨found, present, same⟩ := Option.map_eq_some_iff.mp located
  cases same
  obtain ⟨other, kept, active⟩ := Table.findKey?_sound has
  rw [present] at kept
  cases kept
  exact active

/-- Where no worker is found, none has the job. -/
theorem findWorker_none {order : WalkOrder} {workers : HashMap WorkerState}
    (unowned : findWorker order jobId workers = none)
    (found : workers[workerName]? = some state) : state.activeJobs.contains jobId = false := by
  unfold findWorker at unowned
  cases has : Table.findKey? order workers (·.activeJobs.contains jobId) with
  | some name =>
      obtain ⟨other, kept, _⟩ := Table.findKey?_sound has
      rw [has, Option.bind_some, kept] at unowned
      cases unowned
  | none => exact Table.findKey?_none has workerName state found

/-- The worker that is found to have the job lets go of it; apart from that no slot
changes. -/
theorem checkWorkerJobComplete_owned (jobId : JobId) (terminalStep : String) (runtime : Runtime) :
    let after := (checkWorkerJobComplete outside jobId terminalStep runtime).2
    match findWorker outside.order jobId runtime.workerStates with
    | none => Quiet runtime after
    | some (workerName, _) => Quiet (letGo workerName jobId runtime) after := by
  intro after
  have opened : checkWorkerJobComplete outside jobId terminalStep runtime = _ :=
    Program.run_bind _ _ runtime
  simp only [Program.run_read] at opened
  cases owner : findWorker outside.order jobId runtime.workerStates with
  | none =>
      rw [owner] at opened
      have same : after = runtime := congrArg Prod.snd opened
      exact same ▸ .refl runtime
  | some entry =>
      obtain ⟨workerName, state⟩ := entry
      rw [owner] at opened
      dsimp only
      have goesOn := opened.trans (Program.bind_ok
        (show updateWorkerState workerName (·.release jobId) runtime =
          (.ok (), letGo workerName jobId runtime) from rfl))
      have same : after = _ := congrArg Prod.snd goesOn
      rw [same]
      refine Program.Moves.bind closed_quiet (refreshWorkerRunbook_quiet outside workerName)
        (fun loaded => ?_) (letGo workerName jobId runtime)
      refine (workerState_quiet workerName).bind closed_quiet fun current => ?_
      have polls : ∀ (hash : String) (settled : List Event), Program.Moves Quiet (do
          let polled ← pollAgain outside workerName state hash
          pure (loaded.toList ++ settled ++ polled) : Handler (List Event)) := fun hash settled =>
        (pollAgain_quiet outside workerName state hash).bind closed_quiet fun _ =>
          Program.moves_pure closed_quiet _
      split
      · exact (settleQueueItem_quiet outside _ _ _ _ _).bind closed_quiet fun _ => polls _ _
      · exact (Program.moves_pure closed_quiet _).bind closed_quiet fun _ => polls _ _

/-- A worker may let go of the job; apart from that no slot changes. -/
theorem checkWorkerJobComplete_quiet (jobId : JobId) (terminalStep : String) (runtime : Runtime) :
    let after := (checkWorkerJobComplete outside jobId terminalStep runtime).2
    Quiet runtime after ∨ ∃ workerName, Quiet (letGo workerName jobId runtime) after := by
  intro after
  have owned := @checkWorkerJobComplete_owned outside jobId terminalStep runtime
  cases owner : findWorker outside.order jobId runtime.workerStates with
  | none =>
      rw [owner] at owned
      exact .inl owned
  | some entry =>
      rw [owner] at owned
      exact .inr ⟨entry.1, owned⟩

end Release

/-! ## Waking -/

theorem schedulePoll_quiet (workerName ns : String) (pollInterval : Option String) :
    Program.Moves Quiet (schedulePoll outside workerName ns pollInterval) := by
  unfold schedulePoll
  split
  · exact Program.moves_pure closed_quiet _
  · split
    · exact Program.moves_throw closed_quiet _
    · exact (setTimer_quiet outside _ _).bind closed_quiet fun _ =>
        Program.moves_pure closed_quiet _

theorem handleWorkerWake_quiet (workerName : String) :
    Program.Moves Quiet (handleWorkerWake outside workerName) := by
  unfold handleWorkerWake
  refine (refreshWorkerRunbook_quiet outside workerName).bind closed_quiet fun loaded => ?_
  refine (workerState_quiet workerName).bind closed_quiet fun state => ?_
  split
  · exact Program.moves_pure closed_quiet _
  · split
    · exact Program.moves_pure closed_quiet _
    · split
      · refine (cachedRunbook_quiet outside _).bind closed_quiet fun runbook => ?_
        refine (require_quiet _ _).bind closed_quiet fun queueDef => ?_
        refine (pollQueue_quiet outside _ _ _).bind closed_quiet fun events => ?_
        exact (schedulePoll_quiet outside _ _ _).bind closed_quiet fun _ =>
          Program.moves_pure closed_quiet _
      · exact (pollPersistedQueue_quiet outside _ _ _).bind closed_quiet fun _ =>
          Program.moves_pure closed_quiet _

end Handler

end OddJobs
