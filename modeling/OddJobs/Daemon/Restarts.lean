import OddJobs.Daemon.ExternalQueue
import OddJobs.Engine.Traces

/-!
# Restarting workers

A worker is restarted by a stop and a start.  The stop takes effect when the engine comes to
its event.  The start looks at the state at once, and a worker that is running there is only
woken.
-/

namespace OddJobs

open Library

/-! ## The listener -/

def MaterializedState.records (state : MaterializedState) (workerName ns : String) : Bool :=
  ((state.workers[scopedName ns workerName]?).map (·.status == "running")).getD false

def Runbook.validateWorker (runbook : Runbook) (workerName : String) : Except String WorkerDef :=
  match runbook.getWorker workerName with
  | none => .error ("unknown worker: " ++ workerName)
  | some workerDef =>
      if (runbook.getQueue workerDef.queue).isNone then
        .error ("worker '" ++ workerName ++ "' references unknown queue '" ++ workerDef.queue ++ "'")
      else if (runbook.getJob workerDef.job).isNone then
        .error ("worker '" ++ workerName ++ "' references unknown job '" ++ workerDef.job ++ "'")
      else .ok workerDef

def Outside.hashOf (outside : Outside) (runbook : Runbook) : String :=
  outside.contentHash (outside.encodeRunbook runbook)

def handleWorkerStart (outside : Outside) (state : MaterializedState) (projectRoot : PathBuf)
    (ns workerName : String) (runbook : Runbook) : Except String (List Event) := do
  let workerDef ← runbook.validateWorker workerName
  -- a worker that runs keeps its state in memory, and is woken only
  if state.records workerName ns then pure [.workerWake workerName ns]
  else pure [
    .runbookLoaded (outside.hashOf runbook) 1 (outside.encodeRunbook runbook),
    .workerStarted workerName projectRoot (outside.hashOf runbook) workerDef.queue
      workerDef.concurrency ns]

def stopEvents (state : MaterializedState) (ns workerName : String) : List Event :=
  if state.workers.contains (scopedName ns workerName) then [.workerStopped workerName ns] else []

/-! ## What a running worker is -/

def Runtime.OnDisk (runbook : Runbook) (runtime : Runtime) : Prop :=
  ∀ n, (runtime.readings n).runbook = .ok (some runbook)

/-- A worker follows the runbook that is on disk. -/
structure UpToDate (outside : Outside) (workerName : String) (runbook : Runbook)
    (runtime : Runtime) : Prop where
  onDisk : runtime.OnDisk runbook
  follows : ∃ state, runtime.workerStates[workerName]? = some state ∧
    state.runbookHash = outside.hashOf runbook

/-- A worker runs, on record and in memory, and has those of the given jobs that have not ended. -/
structure Serving (workerName ns : String) (jobs : List JobId) (runtime : Runtime) : Prop where
  recorded : runtime.world.state.records workerName ns = true
  running : ∃ state, runtime.workerStates[workerName]? = some state ∧ state.status = .running ∧
    ∀ id ∈ jobs, (runtime.world.state.jobs[id]?).any (·.isTerminal) = false →
      state.activeJobs.contains id = true

variable {outside : Outside} {workerName ns : String} {jobs : List JobId} {runbook : Runbook}

theorem Runtime.OnDisk.later {before after : Runtime} (onDisk : before.OnDisk runbook)
    (readings : ∃ read, ∀ n, after.readings n = before.readings (n + read)) :
    after.OnDisk runbook := by
  obtain ⟨read, same⟩ := readings
  intro n
  rw [same]
  exact onDisk _

theorem Serving.quiet {before after : Runtime} (serving : Serving workerName ns jobs before)
    (quiet : Quiet before after) : Serving workerName ns jobs after := by
  obtain ⟨state, found, running, active⟩ := serving.running
  obtain ⟨current, present, same⟩ := quiet.worker found
  constructor
  · rw [MaterializedState.records, quiet.records]
    exact serving.recorded
  · refine ⟨current, present, ?_, ?_⟩
    · exact (congrArg (·.status) same).trans running
    · intro id listed live
      rw [quiet.jobs] at live
      have actives : current.activeJobs = state.activeJobs := congrArg (·.activeJobs) same
      rw [actives]
      exact active id listed live

/-- Nothing was there that is not there any more. -/
theorem Serving.quiet_iff {before after : Runtime} (quiet : Quiet before after) :
    Serving workerName ns jobs after ↔ Serving workerName ns jobs before := by
  constructor
  · intro serving
    obtain ⟨current, found, running, active⟩ := serving.running
    obtain ⟨state, present, same⟩ := quiet.worker_before found
    constructor
    · have recorded := serving.recorded
      rw [MaterializedState.records, quiet.records] at recorded
      exact recorded
    · refine ⟨state, present, ?_, ?_⟩
      · exact (congrArg (·.status) same).trans running
      · intro id listed live
        have actives : state.activeJobs = current.activeJobs := congrArg (·.activeJobs) same
        rw [actives]
        exact active id listed (by rw [quiet.jobs]; exact live)
  · exact fun serving => serving.quiet quiet

/-! ## Worker records -/

def Event.unlists (workerName ns : String) (id : JobId) : Event → Bool
  | jobAdvanced other step => other == id && isTerminalStep step
  | workerDeleted name space => scopedName space name == scopedName ns workerName
  | _ => false

/-- A job stays on the record of a worker until an event takes it off. -/
theorem MaterializedState.mem_jobsOfWorker_applyEvent (order : WalkOrder) (clock : Clock)
    {state : MaterializedState} {event : Event} {id : JobId}
    (listed : id ∈ state.jobsOfWorker workerName ns) (kept : event.unlists workerName ns id = false) :
    id ∈ (state.applyEvent order clock event).jobsOfWorker workerName ns := by
  unfold jobsOfWorker at listed ⊢
  have updated : ∀ (name space : String) (update : WorkerRecord → WorkerRecord),
      (∀ record : WorkerRecord, id ∈ record.activeJobIds → id ∈ (update record).activeJobIds) →
      id ∈ (((state.updateWorker name space update).workers[scopedName ns workerName]?).map
        (·.activeJobIds)).getD [] := by
    intro name space update keeps
    change id ∈ (((state.workers.modify (scopedName space name) update)[scopedName ns
      workerName]?).map (·.activeJobIds)).getD []
    rw [Table.lookup_modify]
    split
    · cases found : state.workers[scopedName ns workerName]? with
      | none =>
          rw [found] at listed
          exact listed
      | some record =>
          rw [found] at listed
          exact keeps record listed
    · exact listed
  cases event with
  | workerStarted name projectRoot runbookHash queueName concurrency space =>
      change id ∈ (((state.applyWorkerStarted name projectRoot runbookHash queueName concurrency
        space).workers[scopedName ns workerName]?).map (·.activeJobIds)).getD []
      unfold applyWorkerStarted
      dsimp only
      rw [(SameTables.recordProjectRoot state space projectRoot).workers, Table.lookup_insert]
      split
      · rename_i own
        rw [own]
        exact listed
      · exact listed
  | workerItemDispatched name itemId jobId space =>
      refine updated name space _ fun record member => ?_
      split
      · exact member
      · exact List.mem_append_left _ member
  | workerStopped name space => exact updated name space _ fun _ member => member
  | workerResized name concurrency space => exact updated name space _ fun _ member => member
  | workerDeleted name space =>
      change id ∈ (((state.workers.erase (scopedName space name))[scopedName ns workerName]?).map
        (·.activeJobIds)).getD []
      rw [Table.lookup_erase, if_neg]
      · exact listed
      · exact ne_of_beq_false kept
  | jobAdvanced other step =>
      change id ∈ (((state.applyJobAdvanced clock other step).workers[scopedName ns
        workerName]?).map (·.activeJobIds)).getD []
      unfold applyJobAdvanced
      split
      · exact listed
      · dsimp only
        split
        · rename_i terminal
          have apart : id ≠ other := by
            rintro rfl
            have ends : (id == id && isTerminalStep step) = false := kept
            rw [beq_self_eq_true, terminal] at ends
            cases ends
          change id ∈ (((state.workers.map fun _ (record : WorkerRecord) =>
            { record with activeJobIds := record.activeJobIds.filter (· ≠ other) })[scopedName ns
              workerName]?).map (·.activeJobIds)).getD []
          rw [Table.lookup_map]
          cases found : state.workers[scopedName ns workerName]? with
          | none =>
              rw [found] at listed
              exact listed
          | some record =>
              rw [found] at listed
              exact List.mem_filter.mpr ⟨listed, decide_eq_true apart⟩
        · exact listed
  | _ =>
      rw [applyEvent_workers order clock state rfl]
      exact listed

/-! ## What stays while a worker starts -/

/-- What is applied while a worker starts and lets go of jobs that have ended. -/
def Event.settlesItem : Event → Bool
  | queueFailed .. | queueCompleted .. | queueItemDead .. | workerItemDispatched .. => true
  | _ => false

def settling : Bounds := ⟨fun event => event.settlesItem = true, fun _ => True, fun _ _ => False⟩

/-- A condition that is kept while a worker starts, looks at the disk and lets go of jobs. -/
structure Followed (outside : Outside) (follows : Runtime → Prop) : Prop
    extends Course settling outside (Preserves follows) where
  updates : ∀ (name : String) {update : WorkerState → WorkerState},
    (∀ state, (update state).runbookHash = state.runbookHash) →
    Program.Moves (Preserves follows) (Handler.updateWorkerState name update)
  refreshes : ∀ name, Program.Moves (Preserves follows) (Handler.refreshWorkerRunbook outside name)

theorem course_upToDate :
    Course settling outside (Preserves (UpToDate outside workerName runbook)) where
  toClosed := closed_preserves _
  aside := by
    intro before after aside upToDate
    refine ⟨upToDate.onDisk.later aside.readings, ?_⟩
    rw [aside.workers]
    exact upToDate.follows
  event := fun _ _ upToDate => ⟨upToDate.onDisk, upToDate.follows⟩
  cleaning := fun _ _ upToDate => ⟨upToDate.onDisk, upToDate.follows⟩
  timers := fun _ _ _ upToDate => ⟨upToDate.onDisk, upToDate.follows⟩
  settles := fun _ _ impossible => impossible.elim

/-- A worker that is updated otherwise follows the same runbook. -/
theorem updateWorkerState_upToDate (name : String) {update : WorkerState → WorkerState}
    (keeps : ∀ state, (update state).runbookHash = state.runbookHash) :
    Program.Moves (Preserves (UpToDate outside workerName runbook))
      (Handler.updateWorkerState name update) := by
  intro runtime upToDate
  obtain ⟨state, found, follows⟩ := upToDate.follows
  refine ⟨upToDate.onDisk, ?_⟩
  change ∃ current, (runtime.workerStates.modify name update)[workerName]? = some current ∧ _
  rw [Table.lookup_modify]
  split
  · rename_i own
    refine ⟨update state, ?_, (keeps state).trans follows⟩
    rw [found]
    rfl
  · exact ⟨state, found, follows⟩

/-- A worker that looks at the disk finds there what it follows. -/
theorem refreshWorkerRunbook_upToDate (name : String) :
    Program.Moves (Preserves (UpToDate outside workerName runbook))
      (Handler.refreshWorkerRunbook outside name) := by
  intro runtime upToDate
  cases found : runtime.workerStates[name]? with
  | none =>
      have ran : Handler.refreshWorkerRunbook outside name runtime = (.ok none, runtime) := by
        unfold Handler.refreshWorkerRunbook
        rw [Program.run_bind]
        simp only [Handler.workerState, Program.run_read, found]
        rfl
      rw [ran]
      exact upToDate
  | some state =>
      rw [Handler.refreshWorkerRunbook_ok outside found (upToDate.onDisk 0)]
      unfold Runtime.reloaded
      dsimp only
      split
      · exact ⟨fun n => upToDate.onDisk (n + 1), upToDate.follows⟩
      · obtain ⟨own, present, follows⟩ := upToDate.follows
        refine ⟨fun n => upToDate.onDisk (n + 1), ?_⟩
        dsimp only
        rw [Table.lookup_modify]
        split
        · rw [present]
          exact ⟨_, rfl, rfl⟩
        · exact ⟨own, present, follows⟩

/-- A worker goes on following the runbook that is on disk. -/
theorem followed_upToDate : Followed outside (UpToDate outside workerName runbook) where
  toCourse := course_upToDate
  updates := fun name _ keeps => updateWorkerState_upToDate name keeps
  refreshes := refreshWorkerRunbook_upToDate

/-- The jobs are those of the table, and the given ones are on the record of the worker. -/
def OnRecord (workerName ns : String) (jobs : List JobId) (table : HashMap Job) (runtime : Runtime) :
    Prop :=
  runtime.world.state.jobs = table ∧
    ∀ id ∈ jobs, id ∈ runtime.world.state.jobsOfWorker workerName ns

theorem followed_onRecord (table : HashMap Job) :
    Followed outside (OnRecord workerName ns jobs table) where
  toClosed := closed_preserves _
  aside := fun aside onRecord => by rwa [OnRecord, aside.state]
  event := by
    rintro event within runtime ⟨same, listed⟩
    cases event with
    | queueFailed | queueCompleted | queueItemDead | workerItemDispatched =>
        exact ⟨same, fun id member =>
          MaterializedState.mem_jobsOfWorker_applyEvent outside.order _ (listed id member) rfl⟩
    | _ => cases within
  cleaning := fun _ _ onRecord => onRecord
  timers := fun _ _ _ onRecord => onRecord
  settles := fun _ _ impossible => impossible.elim
  updates := fun _ _ _ _ onRecord => onRecord
  refreshes := by
    rintro name runtime ⟨same, listed⟩
    have quiet := Handler.refreshWorkerRunbook_quiet outside name runtime
    refine ⟨quiet.jobs.trans same, fun id member => ?_⟩
    unfold MaterializedState.jobsOfWorker
    rw [quiet.records]
    exact listed id member

/-- A worker runs, on both accounts, and keeps to a condition. -/
def Restored (workerName ns : String) (jobs : List JobId) (follows : Runtime → Prop)
    (runtime : Runtime) : Prop :=
  Serving workerName ns jobs runtime ∧ follows runtime

theorem Program.Moves.restored {α : Type} {follows : Runtime → Prop} {program : Handler α}
    (quiet : Program.Moves Quiet program) (follow : Program.Moves (Preserves follows) program) :
    Program.Moves (Preserves (Restored workerName ns jobs follows)) program :=
  fun runtime restored => ⟨restored.1.quiet (quiet runtime), follow runtime restored.2⟩

/-! ## A worker that is started -/

/-- Only jobs that have ended are let go of. -/
theorem letGo_serving {name : String} {id : JobId} {runtime : Runtime}
    (ended : (runtime.world.state.jobs[id]?).any (·.isTerminal) = true)
    (serving : Serving workerName ns jobs runtime) :
    Serving workerName ns jobs (Handler.letGo name id runtime) := by
  obtain ⟨state, found, running, active⟩ := serving.running
  refine ⟨serving.recorded, ?_⟩
  change ∃ current, (runtime.workerStates.modify name (·.release id))[workerName]? = some current ∧ _
  rw [Table.lookup_modify, found]
  split
  · refine ⟨state.release id, rfl, running, fun other listed live => ?_⟩
    have apart : other ≠ id := by
      rintro rfl
      change (runtime.world.state.jobs[other]?).any (·.isTerminal) = false at live
      rw [ended] at live
      cases live
    exact (Table.contains_erase_iff _ _ _).mpr ⟨apart.symm, active other listed live⟩
  · exact ⟨state, rfl, running, active⟩

/-- The status of a worker stays where its other data change. -/
theorem MaterializedState.records_updateWorker (state : MaterializedState) {name space : String}
    {update : WorkerRecord → WorkerRecord} (keeps : ∀ record, (update record).status = record.status) :
    (state.updateWorker name space update).records workerName ns = state.records workerName ns := by
  unfold records
  change (((state.workers.modify (scopedName space name) update)[scopedName ns workerName]?).map
    _).getD false = _
  rw [Table.lookup_modify]
  split
  · rw [Option.map_map]
    refine congrArg (fun status => (Option.map status _).getD false) (funext fun record => ?_)
    exact congrArg (· == "running") (keeps record)
  · rfl

theorem settling_settles {terminalStep : String} (event : Event) (settles : event.Settles terminalStep) :
    settling.event event := by
  cases event with
  | queueFailed | queueCompleted | queueItemDead => rfl
  | _ => cases settles

section Following

variable {follows : Runtime → Prop} (followed : Followed outside follows)

include followed

theorem Followed.checkWorkerJobComplete_moves (id : JobId) (terminalStep : String) :
    Program.Moves (Preserves follows)
      (Handler.checkWorkerJobComplete outside id terminalStep) := by
  have closed := followed.toClosed
  unfold Handler.checkWorkerJobComplete
  refine (Program.moves_read closed _).bind closed fun owner => ?_
  cases owner with
  | none => exact Program.moves_pure closed _
  | some entry =>
      obtain ⟨name, state⟩ := entry
      have released : ∀ state : WorkerState,
          (state.release id).runbookHash = state.runbookHash := fun _ => rfl
      refine (followed.updates name released).bind closed fun _ => ?_
      refine (followed.refreshes name).bind closed fun loaded => ?_
      refine (Program.moves_read closed _).bind closed fun current => ?_
      dsimp only
      split
      · refine (followed.settleQueueItem_moves (fun _ _ => trivial) settling_settles _ _ _ _).bind
          closed fun settled => ?_
        exact (followed.pollAgain_moves name state _).bind closed fun _ => Program.moves_pure closed _
      · refine (Program.moves_pure closed _).bind closed fun settled => ?_
        exact (followed.pollAgain_moves name state _).bind closed fun _ => Program.moves_pure closed _

theorem Followed.checkWorkerJobComplete_restored {id : JobId} {terminalStep : String} {runtime : Runtime}
    (ended : (runtime.world.state.jobs[id]?).any (·.isTerminal) = true)
    (restored : Restored workerName ns jobs follows runtime) :
    let after := (Handler.checkWorkerJobComplete outside id terminalStep runtime).2
    Restored workerName ns jobs follows after ∧
      after.world.state.jobs = runtime.world.state.jobs := by
  intro after
  have follow := followed.checkWorkerJobComplete_moves id terminalStep runtime restored.2
  rcases @Handler.checkWorkerJobComplete_quiet outside id terminalStep runtime with
    quiet | ⟨name, quiet⟩
  · exact ⟨⟨restored.1.quiet quiet, follow⟩, quiet.jobs⟩
  · exact ⟨⟨(letGo_serving ended restored.1).quiet quiet, follow⟩, quiet.jobs⟩

/-- Jobs that have ended are let go of when a worker starts. -/
theorem Followed.reconcileActiveJobs_restored (name : String) :
    Program.Moves (Preserves (Restored workerName ns jobs follows))
      (Handler.reconcileActiveJobs outside name) := by
  intro runtime restored
  let state := runtime.workerStates[name]?
  let active := outside.order.walk ((state.map (·.activeJobs.keys)).getD [])
  let terminal := active.filterMap fun id =>
    ((runtime.world.state.jobs[id]?).filter (·.isTerminal)).map fun job => (id, job.step)
  have ran : Handler.reconcileActiveJobs outside name runtime =
      Program.forEach (fun entry : JobId × String => do
        let _ ← @Program.attempt _ _ _ RuntimeError
          (Handler.checkWorkerJobComplete outside entry.1 entry.2)
        pure ()) terminal runtime := rfl
  -- the table of jobs stays, so that those that had ended have ended
  let holds : Runtime → Prop := fun now =>
    Restored workerName ns jobs follows now ∧
      now.world.state.jobs = runtime.world.state.jobs
  have closed : Closed (Preserves holds) := closed_preserves _
  have each : Program.Moves (Preserves holds) (Program.forEach (fun entry : JobId × String => do
      let _ ← @Program.attempt _ _ _ RuntimeError
        (Handler.checkWorkerJobComplete outside entry.1 entry.2)
      pure () : JobId × String → Handler Unit) terminal) := by
    refine Program.Moves.forEach closed fun entry member => ?_
    obtain ⟨id, _, found⟩ := List.mem_filterMap.mp member
    obtain ⟨job, kept, rfl⟩ := Option.map_eq_some_iff.mp found
    obtain ⟨present, ended⟩ := Option.filter_eq_some_iff.mp kept
    refine Program.Moves.bind closed (Program.Moves.attempt fun now held => ?_) fun _ =>
      Program.moves_pure closed _
    obtain ⟨nowRestored, same⟩ := held
    have endedNow : (now.world.state.jobs[id]?).any (·.isTerminal) = true := by
      rw [same, present, Option.any_some]
      exact ended
    obtain ⟨after, jobsAfter⟩ := followed.checkWorkerJobComplete_restored endedNow nowRestored
    exact ⟨after, jobsAfter.trans same⟩
  rw [ran]
  exact (each runtime ⟨restored, rfl⟩).1

/-- A job that is tracked again is one more. -/
theorem Followed.trackItem_restored (name space itemId : String) (jobId : JobId) :
    Program.Moves (Preserves (Restored workerName ns jobs follows))
      (Handler.trackItem outside name space itemId jobId) := by
  have closed : Closed (Preserves (Restored workerName ns jobs follows)) := closed_preserves _
  unfold Handler.trackItem
  refine Program.Moves.bind closed ?_ fun _ => ?_
  · intro runtime restored
    have tracked : ∀ state : WorkerState,
        (state.track jobId itemId).runbookHash = state.runbookHash := fun _ => rfl
    refine ⟨⟨restored.1.recorded, ?_⟩, followed.updates name tracked runtime restored.2⟩
    obtain ⟨state, found, running, active⟩ := restored.1.running
    change ∃ current, (runtime.workerStates.modify name (·.track jobId itemId))[workerName]? =
      some current ∧ _
    rw [Table.lookup_modify, found]
    split
    · refine ⟨state.track jobId itemId, rfl, running, fun id listed live => ?_⟩
      exact (Table.contains_insert_iff _ _ _ _).mpr (.inr (active id listed live))
    · exact ⟨state, rfl, running, active⟩
  · refine Program.Moves.bind closed ?_ fun _ => Program.moves_pure closed _
    intro runtime restored
    have dispatches : settling.event (.workerItemDispatched name itemId jobId space) := rfl
    have follow := followed.emit_moves dispatches runtime restored.2
    rw [Handler.executeAll_emit] at follow ⊢
    refine ⟨⟨?_, restored.1.running⟩, follow⟩
    refine (runtime.world.state.records_updateWorker fun record => ?_).trans restored.1.recorded
    split
    · rfl
    · rfl

/-- An item whose job is lost has failed. -/
theorem Followed.failLostItem_restored (retry : Option RetryConfig) (queueName space itemId : String) :
    Program.Moves (Preserves (Restored workerName ns jobs follows))
      (Handler.failLostItem outside retry queueName space itemId) := by
  have quiet : Program.Moves Quiet (Handler.failLostItem outside retry queueName space itemId) := by
    unfold Handler.failLostItem
    refine (Handler.emit_quiet outside rfl).bind closed_quiet fun _ => ?_
    exact (Handler.retryOrDead_quiet outside _ _ _ _).bind closed_quiet fun _ =>
      Program.moves_pure closed_quiet _
  refine Program.Moves.restored quiet ?_
  have closed := followed.toClosed
  unfold Handler.failLostItem
  refine (followed.emit_moves (show settling.event (.queueFailed _ _ _ _) from rfl)).bind closed
    fun _ => ?_
  refine Program.Moves.bind closed ?_ fun _ => Program.moves_pure closed _
  unfold Handler.retryOrDead
  refine (followed.readState_moves _).bind closed fun item => ?_
  dsimp only
  split
  · refine Program.Moves.bind closed (followed.execute_moves ?_) fun _ => Program.moves_pure closed _
    trivial
  · exact followed.emit_moves rfl

theorem Followed.reconcileQueueItems_restored (name space : String) (rules : Runbook) :
    Program.Moves (Preserves (Restored workerName ns jobs follows))
      (Handler.reconcileQueueItems outside name space rules) := by
  have closed : Closed (Preserves (Restored workerName ns jobs follows)) := closed_preserves _
  have looks : Program.Moves (Preserves (Restored workerName ns jobs follows))
      (Handler.trackedItems name) :=
    (Program.moves_read closed _).bind closed fun _ => Program.moves_pure closed _
  unfold Handler.reconcileQueueItems
  refine (Program.moves_read closed _).bind closed fun state => ?_
  refine looks.bind closed fun tracked => ?_
  refine (Program.moves_read closed _).bind closed fun untracked => ?_
  refine (Program.Moves.forEach closed fun entry _ => followed.trackItem_restored name space _ _).bind closed
    fun _ => ?_
  refine looks.bind closed fun tracked => ?_
  refine (Program.moves_read closed _).bind closed fun orphaned => ?_
  exact Program.Moves.forEach closed fun itemId _ => followed.failLostItem_restored _ _ _ _

theorem Followed.schedulePoll_moves (name space : String) (pollInterval : Option String) :
    Program.Moves (Preserves follows)
      (Handler.schedulePoll outside name space pollInterval) := by
  have closed := followed.toClosed
  unfold Handler.schedulePoll
  split
  · exact Program.moves_pure closed _
  · split
    · exact Program.moves_throw closed _
    · refine Program.Moves.bind closed (followed.execute_moves ?_) fun _ => Program.moves_pure closed _
      trivial

theorem Followed.pollQueue_moves (name command : String) (cwd : PathBuf) :
    Program.Moves (Preserves follows)
      (Handler.executeAll outside [.pollQueue name command cwd]) := by
  refine followed.executeAll_moves fun effect member => ?_
  rw [List.mem_singleton.mp member]
  trivial

/-- A worker that has been started runs, with the jobs on its record. -/
theorem Followed.handleWorkerStarted_restored {projectRoot : PathBuf} {runbookHash : String}
    {before after : Runtime} {events : List Event}
    (begins : ∀ runbookCache workerDef queueDef, follows (Runtime.starting projectRoot runbookHash
      workerName ns workerDef queueDef { before with runbookCache }))
    (recorded : before.world.state.records workerName ns = true)
    (listed : ∀ id ∈ jobs, id ∈ before.world.state.jobsOfWorker workerName ns)
    (ran : Handler.handleWorkerStarted outside workerName projectRoot runbookHash ns
      before = (.ok events, after)) : Restored workerName ns jobs follows after := by
  have closed : Closed (Preserves (Restored workerName ns jobs follows)) := closed_preserves _
  unfold Handler.handleWorkerStarted at ran
  obtain ⟨rules, looked, looks, rest⟩ := Program.bind_eq_ok.mp ran
  obtain ⟨_, runbookCache, rfl⟩ := Handler.cachedRunbook_eq_ok outside looks
  obtain ⟨workerDef, _, defined, rest⟩ := Program.bind_eq_ok.mp rest
  obtain ⟨_, rfl⟩ := Handler.require_eq_ok defined
  obtain ⟨queueDef, _, defined, rest⟩ := Program.bind_eq_ok.mp rest
  obtain ⟨_, rfl⟩ := Handler.require_eq_ok defined
  obtain ⟨started, _, reads, rest⟩ := Program.bind_eq_ok.mp rest
  cases reads
  obtain ⟨_, running, inserts, rest⟩ := Program.bind_eq_ok.mp rest
  cases inserts
  have begun : Restored workerName ns jobs follows
      (Runtime.starting projectRoot runbookHash workerName ns workerDef queueDef
        { before with runbookCache }) := by
    have found := Table.lookup_insert before.workerStates workerName workerName
      (Handler.startedState before.world.state workerName projectRoot runbookHash ns
        workerDef queueDef)
    rw [if_pos rfl] at found
    refine ⟨⟨recorded, _, found, rfl, fun id member _ => ?_⟩, begins runbookCache workerDef queueDef⟩
    exact (startedState_active projectRoot _ _ id).mpr (listed id member)
  obtain ⟨_, reconciled, reconciles, rest⟩ := Program.bind_eq_ok.mp rest
  have released : Restored workerName ns jobs follows reconciled :=
    (followed.reconcileActiveJobs_restored workerName).ended reconciles begun
  cases queueType : queueDef.queueType with
  | external =>
      rw [queueType] at rest
      obtain ⟨polled, between, polls, rest⟩ := Program.bind_eq_ok.mp rest
      obtain ⟨_, last, schedules, returned⟩ := Program.bind_eq_ok.mp rest
      cases returned
      have first : Restored workerName ns jobs follows between :=
        (Program.Moves.restored (Handler.pollQueue_quiet outside _ _ _)
          (followed.pollQueue_moves _ _ _)).ended polls released
      exact (Program.Moves.restored (Handler.schedulePoll_quiet outside _ _ _)
        (followed.schedulePoll_moves _ _ _)).ended schedules first
  | persisted =>
      rw [queueType] at rest
      have moves : Program.Moves (Preserves (Restored workerName ns jobs follows)) (do
          Handler.reconcileQueueItems outside workerName ns rules
          Handler.pollPersistedQueue outside workerName workerDef.queue ns :
            Handler (List Event)) :=
        (followed.reconcileQueueItems_restored workerName ns rules).bind closed fun _ =>
          (Program.moves_read closed _).bind closed fun _ => Program.moves_pure closed _
      exact moves.ended rest released

end Following

/-- A worker that is woken follows what is on disk. -/
theorem handleWorkerWake_follows {before : Runtime} {state : WorkerState}
    (onDisk : before.OnDisk runbook) (found : before.workerStates[workerName]? = some state) :
    UpToDate outside workerName runbook (Handler.handleWorkerWake outside workerName before).2 := by
  have followed := @followed_upToDate outside workerName runbook
  have closed := followed.toClosed
  have refreshed : UpToDate outside workerName runbook
      (Handler.refreshWorkerRunbook outside workerName before).2 := by
    rw [Handler.refreshWorkerRunbook_ok outside found (onDisk 0)]
    unfold Runtime.reloaded
    dsimp only
    split
    · rename_i same
      exact ⟨fun n => onDisk (n + 1), state, found, same⟩
    · refine ⟨fun n => onDisk (n + 1), ?_⟩
      dsimp only
      rw [Table.lookup_modify, if_pos rfl, found]
      exact ⟨_, rfl, rfl⟩
  unfold Handler.handleWorkerWake
  refine Program.Moves.rest closed (fun loaded => ?_) _ _ refreshed
  refine (Program.moves_read closed _).bind closed fun state => ?_
  split
  · exact Program.moves_pure closed _
  · split
    · exact Program.moves_pure closed _
    · split
      · refine (followed.cachedRunbook_moves _).bind closed fun rules => ?_
        refine (followed.require_moves _ _).bind closed fun queueDef => ?_
        refine (followed.pollQueue_moves _ _ _).bind closed fun events => ?_
        exact (followed.schedulePoll_moves _ _ _).bind closed fun _ => Program.moves_pure closed _
      · exact (Program.Moves.bind closed ((followed.readState_moves _).bind closed fun _ =>
          Program.moves_pure closed _) fun _ => Program.moves_pure closed _)

/-! ## Runs -/

/-- The starts, the stops and the removals of the worker. -/
def Event.turns (workerName ns : String) : Event → Bool
  | workerStarted name _ _ _ _ space | workerStopped name space | workerDeleted name space =>
      name == workerName && space == ns
  | _ => false

/-- The same of any worker that shares its name or its record. -/
def Event.meddles (workerName ns : String) : Event → Bool
  | workerStarted name _ _ _ _ space | workerStopped name space | workerDeleted name space =>
      name == workerName || scopedName space name == scopedName ns workerName
  | _ => false

def Event.starts : Event → Bool
  | workerStarted .. => true
  | _ => false

def MaterializedState.live (state : MaterializedState) (id : JobId) : Bool :=
  !(state.jobs[id]?).any (·.isTerminal)

theorem MaterializedState.live_congr {first second : MaterializedState}
    (same : first.jobs = second.jobs) (id : JobId) : first.live id = second.live id := by
  rw [live, live, same]

/-- The engine beside the requests: the events that they have sent and that are not processed yet;
the live jobs that the worker had on record at the stop and that nothing has ended or taken off
since; and the last of its starts, stops and removals that has been processed since. -/
structure RestartRun where
  runtime : Runtime
  sent : List Event
  jobs : List JobId
  last : Option Event

theorem records_stopped (state : MaterializedState) (order : WalkOrder) (clock : Clock) :
    (state.applyEvent order clock (.workerStopped workerName ns)).records workerName ns = false := by
  unfold MaterializedState.records
  change (((state.workers.modify (scopedName ns workerName) _)[scopedName ns workerName]?).map
    _).getD false = _
  rw [Table.lookup_modify, if_pos rfl]
  cases state.workers[scopedName ns workerName]? with
  | none => rfl
  | some record => rfl

theorem records_started (state : MaterializedState) (order : WalkOrder) (clock : Clock)
    (projectRoot : PathBuf) (runbookHash queueName : String) (concurrency : Nat) :
    (state.applyEvent order clock (.workerStarted workerName projectRoot runbookHash queueName
      concurrency ns)).records workerName ns = true := by
  change (state.applyWorkerStarted workerName projectRoot runbookHash queueName concurrency
    ns).records workerName ns = true
  unfold MaterializedState.records MaterializedState.applyWorkerStarted
  dsimp only
  rw [Table.lookup_insert, if_pos rfl]
  rfl

namespace RestartRun

variable (outside : Outside) (others : OtherHandlers) (workerName ns : String)

def stop (run : RestartRun) : RestartRun :=
  { run with
    sent := run.sent ++ stopEvents run.runtime.world.state ns workerName
    jobs := (run.runtime.world.state.jobsOfWorker workerName ns).filter run.runtime.world.state.live
    last := none }

def start (projectRoot : PathBuf) (runbook : Runbook) (run : RestartRun) : RestartRun :=
  { run with
    sent := run.sent ++ ((handleWorkerStart outside run.runtime.world.state projectRoot ns workerName
      runbook).toOption).getD [] }

/-- The jobs that are live and on record still once an event has been applied. -/
def spared (event : Event) (run : RestartRun) : List JobId :=
  let state := (run.runtime.applying outside.order event).world.state
  run.jobs.filter fun id => !event.unlists workerName ns id && state.live id

def process (event : Event) (run : RestartRun) : RestartRun where
  runtime := (Handler.processEvent outside others event run.runtime).2
  sent := run.sent
  jobs := run.spared outside workerName ns event
  last := if event.turns workerName ns then some event else run.last

/-- What else goes on leaves the record of the worker and its status alone, and takes from it no
job that has not ended. -/
structure Around (workerName : String) (jobs : List JobId) (before after : Runtime) : Prop where
  records : after.world.state.workers = before.world.state.workers
  live : ∀ id ∈ jobs, after.world.state.live id = before.world.state.live id
  worker : ∀ state, before.workerStates[workerName]? = some state →
    ∃ current, after.workerStates[workerName]? = some current ∧ current.status = state.status ∧
      ∀ id ∈ jobs, before.world.state.live id = true → state.activeJobs.contains id = true →
        current.activeJobs.contains id = true
  absent : before.workerStates[workerName]? = none → after.workerStates[workerName]? = none

/-- The engine goes on: it processes the oldest of the events that were sent, or a start, stop or
removal that somebody else has sent; another event is applied; or something goes on around. -/
inductive Goes (first : RestartRun) : RestartRun → Prop
  | refl : Goes first first
  | sent {run : RestartRun} {event : Event} {rest : List Event} : Goes first run →
      run.sent = event :: rest →
      Goes first { run.process outside others workerName ns event with sent := rest }
  | turn {run : RestartRun} {event : Event} {events : List Event} : Goes first run →
      event.turns workerName ns = true →
      (Handler.processEvent outside others event run.runtime).1 = .ok events →
      Goes first (run.process outside others workerName ns event)
  | apply {run : RestartRun} {event : Event} : Goes first run →
      event.meddles workerName ns = false →
      Goes first { run with
        runtime := run.runtime.applying outside.order event
        jobs := run.spared outside workerName ns event }
  | around {run : RestartRun} {after : Runtime} : Goes first run →
      Around workerName run.jobs run.runtime after → Goes first { run with runtime := after }

/-- What a run keeps to until the events that a start has sent are processed: the worker has turned
as the last of its events says, or its stop still waits. -/
structure Tracks (workerName ns : String) (tail : List Event) (run : RestartRun) : Prop where
  waits : ∃ early, run.sent = early ++ tail ∧ ∀ event ∈ early,
    event = .workerStopped workerName ns ∨ tail ≠ [] ∧ event.loadsRunbook = true
  listed : ∀ id ∈ run.jobs, id ∈ run.runtime.world.state.jobsOfWorker workerName ns
  live : ∀ id ∈ run.jobs, run.runtime.world.state.live id = true
  up : run.last.any (·.starts) = true → Serving workerName ns run.jobs run.runtime
  down : run.last.any (·.starts) = false → run.runtime.world.state.records workerName ns = false ∨
    run.last = none ∧ .workerStopped workerName ns ∈ run.sent
  halted : run.last = some (.workerStopped workerName ns) →
    ∀ state, run.runtime.workerStates[workerName]? = some state → state.status ≠ .running

variable {outside others workerName ns} {run : RestartRun} {tail : List Event}

theorem stop_tracks (fresh : run.sent = []) : (run.stop workerName ns).Tracks workerName ns [] where
  waits := by
    refine ⟨stopEvents run.runtime.world.state ns workerName, ?_, fun event member => ?_⟩
    · rw [List.append_nil, stop, fresh, List.nil_append]
    · unfold stopEvents at member
      split at member
      · exact .inl (List.mem_singleton.mp member)
      · cases member
  listed := fun id member => (List.mem_filter.mp member).1
  live := fun id member => (List.mem_filter.mp member).2
  up := fun never => nomatch never
  down := by
    intro _
    cases present : run.runtime.world.state.workers.contains (scopedName ns workerName) with
    | true =>
        refine .inr ⟨rfl, ?_⟩
        rw [stop, stopEvents, if_pos present]
        exact List.mem_append_right _ (List.mem_singleton_self _)
    | false =>
        refine .inl ?_
        rw [Table.contains_eq_isSome, Option.isSome_eq_false_iff, Option.isNone_iff_eq_none] at present
        change (Option.map _ (run.runtime.world.state.workers[_]?)).getD false = false
        rw [present]
        rfl
  halted := fun never => nomatch never

/-- The jobs that are left once an event has been applied are on record, and live. -/
theorem spared_kept (tracks : run.Tracks workerName ns tail) (event : Event) :
    let applied := run.runtime.applying outside.order event
    let jobs := run.spared outside workerName ns event
    (∀ id ∈ jobs, id ∈ run.jobs) ∧
      (∀ id ∈ jobs, id ∈ applied.world.state.jobsOfWorker workerName ns) ∧
      ∀ id ∈ jobs, applied.world.state.live id = true := by
  intro applied jobs
  have each (id : JobId) (member : id ∈ jobs) : id ∈ run.jobs ∧
      event.unlists workerName ns id = false ∧ applied.world.state.live id = true := by
    obtain ⟨listed, kept⟩ := List.mem_filter.mp member
    obtain ⟨stays, live⟩ := Bool.and_eq_true_iff.mp kept
    exact ⟨listed, (Bool.not_eq_true' _).mp stays, live⟩
  refine ⟨fun id member => (each id member).1, fun id member => ?_,
    fun id member => (each id member).2.2⟩
  exact MaterializedState.mem_jobsOfWorker_applyEvent outside.order (run.runtime.world.clocks 0)
    (tracks.listed id (each id member).1) (each id member).2.1

/-- A worker that serves goes on serving the jobs that are left, where it is left alone. -/
theorem serving_spared {before after : Runtime} {fewer : List JobId}
    (serving : Serving workerName ns jobs before) (live : ∀ id ∈ jobs, before.world.state.live id = true)
    (within : ∀ id ∈ fewer, id ∈ jobs) (workers : after.workerStates = before.workerStates)
    (recorded : after.world.state.records workerName ns = before.world.state.records workerName ns) :
    Serving workerName ns fewer after := by
  obtain ⟨state, found, running, active⟩ := serving.running
  refine ⟨recorded.trans serving.recorded, state, by rw [workers, found], running,
    fun id member _ => active id (within id member) ?_⟩
  exact (Bool.not_eq_true' _).mp (live id (within id member))

/-- A start, stop or removal of the worker turns it. -/
theorem process_tracks {event : Event} {events : List Event} (tracks : run.Tracks workerName ns tail)
    (turns : event.turns workerName ns = true)
    (handled : event.starts = true →
      (Handler.processEvent outside others event run.runtime).1 = .ok events)
    {sent : List Event} (waits : ∃ early, sent = early ++ tail ∧ ∀ event ∈ early,
      event = .workerStopped workerName ns ∨ tail ≠ [] ∧ event.loadsRunbook = true) :
    Tracks workerName ns tail { run.process outside others workerName ns event with sent } := by
  obtain ⟨within, listed, live⟩ := @spared_kept outside workerName ns run tail tracks event
  have last : (run.process outside others workerName ns event).last = some event := if_pos turns
  cases event with
  | workerStarted name projectRoot runbookHash queueName concurrency space =>
      obtain ⟨same, own⟩ := Bool.and_eq_true_iff.mp turns
      cases eq_of_beq same
      cases eq_of_beq own
      let applied := run.runtime.applying outside.order
        (.workerStarted workerName projectRoot runbookHash queueName concurrency ns)
      have recorded : applied.world.state.records workerName ns = true :=
        records_started run.runtime.world.state outside.order (run.runtime.world.clocks 0) projectRoot
          runbookHash queueName concurrency
      have restored := (followed_onRecord applied.world.state.jobs).handleWorkerStarted_restored
        (fun _ _ _ => ⟨rfl, listed⟩) recorded listed (Prod.ext (handled rfl) rfl)
      obtain ⟨serving, same, onRecord⟩ := restored
      refine ⟨waits, onRecord, fun id member => ?_, fun _ => serving, fun stopped => ?_, fun stopped => ?_⟩
      · exact (MaterializedState.live_congr same id).trans (live id member)
      · rw [show Option.any _ _ = _ from congrArg (Option.any _) last] at stopped
        cases stopped
      · cases last.symm.trans stopped
  | workerStopped name space =>
      obtain ⟨same, own⟩ := Bool.and_eq_true_iff.mp turns
      cases eq_of_beq same
      cases eq_of_beq own
      refine ⟨waits, listed, live, fun starts => ?_, fun _ => .inl ?_, fun _ state found => ?_⟩
      · rw [show Option.any _ _ = _ from congrArg (Option.any _) last] at starts
        cases starts
      · exact records_stopped run.runtime.world.state outside.order (run.runtime.world.clocks 0)
      · change (run.runtime.workerStates.modify workerName (·.stop))[workerName]? = some state at found
        rw [Table.lookup_modify, if_pos rfl] at found
        obtain ⟨before, _, rfl⟩ := Option.map_eq_some_iff.mp found
        exact fun running => nomatch running
  | workerDeleted name space =>
      obtain ⟨same, own⟩ := Bool.and_eq_true_iff.mp turns
      cases eq_of_beq same
      cases eq_of_beq own
      refine ⟨waits, listed, live, fun starts => ?_, fun _ => .inl ?_, fun stopped => ?_⟩
      · rw [show Option.any _ _ = _ from congrArg (Option.any _) last] at starts
        cases starts
      · change (Option.map _ ((run.runtime.world.state.workers.erase _)[_]?)).getD false = false
        rw [Table.lookup_erase, if_pos rfl]
        rfl
      · cases last.symm.trans stopped
  | _ => cases turns

/-- A runbook that is loaded is cached. -/
theorem handleRunbookLoaded_quiet (outside : Outside) (hash : String) (json : Value) :
    Program.Moves Quiet (Handler.handleRunbookLoaded outside hash json) := by
  unfold Handler.handleRunbookLoaded
  refine (Program.moves_read closed_quiet _).bind closed_quiet fun cached => ?_
  split
  · exact Program.moves_pure closed_quiet _
  · split
    · refine Program.Moves.bind closed_quiet (fun runtime => ?_) fun _ =>
        Program.moves_pure closed_quiet _
      exact ⟨rfl, rfl, rfl, fun _ => rfl, 0, fun _ => rfl⟩
    · exact Program.moves_pure closed_quiet _

/-- What is applied beside the starts, stops and removals leaves the worker's status alone. -/
theorem records_applyEvent (order : WalkOrder) (clock : Clock) (state : MaterializedState)
    {event : Event} (apart : event.meddles workerName ns = false) :
    (state.applyEvent order clock event).records workerName ns = state.records workerName ns := by
  have elsewhere {name space : String}
      (differs : (name == workerName || scopedName space name == scopedName ns workerName) = false) :
      scopedName space name ≠ scopedName ns workerName :=
    ne_of_beq_false (Bool.or_eq_false_iff.mp differs).2
  cases event with
  | workerItemDispatched name itemId jobId space =>
      refine state.records_updateWorker fun record => ?_
      split
      · rfl
      · rfl
  | workerResized name concurrency space => exact state.records_updateWorker fun _ => rfl
  | workerStopped name space =>
      change Option.getD (Option.map _ ((state.workers.modify _ _)[_]?)) false = _
      rw [Table.lookup_modify, if_neg (elsewhere apart)]
      rfl
  | workerStarted name projectRoot runbookHash queueName concurrency space =>
      change (state.applyWorkerStarted name projectRoot runbookHash queueName concurrency
        space).records workerName ns = _
      unfold MaterializedState.records MaterializedState.applyWorkerStarted
      dsimp only
      rw [Table.lookup_insert, if_neg (elsewhere apart),
        (MaterializedState.SameTables.recordProjectRoot state space projectRoot).workers]
  | workerDeleted name space =>
      change Option.getD (Option.map _ ((state.workers.erase _)[_]?)) false = _
      rw [Table.lookup_erase, if_neg (elsewhere apart)]
      rfl
  | jobAdvanced id step =>
      change (state.applyJobAdvanced clock id step).records workerName ns = _
      unfold MaterializedState.applyJobAdvanced
      split
      · rfl
      · dsimp only
        split
        · change Option.getD (Option.map _ ((state.workers.map _)[_]?)) false = _
          rw [Table.lookup_map, Option.map_map]
          rfl
        · rfl
  | _ =>
      rw [MaterializedState.records, MaterializedState.applyEvent_workers order clock state rfl]
      rfl

/-- Where the worker and its record are left alone, it tracks on. -/
theorem Tracks.aside (tracks : run.Tracks workerName ns tail) {after : RestartRun}
    (last : after.last = run.last)
    (waits : ∃ early, after.sent = early ++ tail ∧ ∀ event ∈ early,
      event = .workerStopped workerName ns ∨ tail ≠ [] ∧ event.loadsRunbook = true)
    (stops : .workerStopped workerName ns ∈ run.sent → .workerStopped workerName ns ∈ after.sent)
    (listed : ∀ id ∈ after.jobs, id ∈ after.runtime.world.state.jobsOfWorker workerName ns)
    (live : ∀ id ∈ after.jobs, after.runtime.world.state.live id = true)
    (recorded : after.runtime.world.state.records workerName ns =
      run.runtime.world.state.records workerName ns)
    (up : Serving workerName ns run.jobs run.runtime → Serving workerName ns after.jobs after.runtime)
    (statuses : (after.runtime.workerStates[workerName]?).map (·.status) =
      (run.runtime.workerStates[workerName]?).map (·.status)) : after.Tracks workerName ns tail where
  waits := waits
  listed := listed
  live := live
  up := fun starts => up (tracks.up (last ▸ starts))
  down := by
    intro idle
    rw [last] at idle ⊢
    rw [recorded]
    exact (tracks.down idle).imp_right fun waiting => ⟨waiting.1, stops waiting.2⟩
  halted := by
    intro stopped current found running
    rw [found, Option.map_some] at statuses
    obtain ⟨state, present, same⟩ := Option.map_eq_some_iff.mp statuses.symm
    exact tracks.halted (last ▸ stopped) state present (same.trans running)

/-- An event that is no start, stop or removal of the worker is applied beside it. -/
theorem apply_tracks {event : Event} (tracks : run.Tracks workerName ns tail)
    (apart : event.meddles workerName ns = false) :
    Tracks workerName ns tail { run with
      runtime := run.runtime.applying outside.order event
      jobs := run.spared outside workerName ns event } := by
  obtain ⟨within, listed, live⟩ := @spared_kept outside workerName ns run tail tracks event
  have recorded := @records_applyEvent workerName ns outside.order (run.runtime.world.clocks 0)
    run.runtime.world.state event apart
  exact tracks.aside rfl tracks.waits id listed live recorded
    (fun serving => serving_spared serving tracks.live within rfl recorded) rfl

/-- A runbook that is loaded is processed beside the worker. -/
theorem loads_tracks {event : Event} (tracks : run.Tracks workerName ns tail)
    (loads : event.loadsRunbook = true) {sent : List Event}
    (waits : ∃ early, sent = early ++ tail ∧ ∀ event ∈ early,
      event = .workerStopped workerName ns ∨ tail ≠ [] ∧ event.loadsRunbook = true)
    (stops : .workerStopped workerName ns ∈ run.sent → .workerStopped workerName ns ∈ sent) :
    Tracks workerName ns tail { run.process outside others workerName ns event with sent } := by
  cases event with
  | runbookLoaded hash version json =>
      have applied := @apply_tracks outside workerName ns run tail
        (.runbookLoaded hash version json) tracks rfl
      have quiet := handleRunbookLoaded_quiet outside hash json
        (run.runtime.applying outside.order (.runbookLoaded hash version json))
      refine applied.aside rfl waits stops (fun id member => ?_) (fun id member => ?_) ?_
        (fun serving => serving.quiet quiet) ?_
      · have onRecord := applied.listed id member
        unfold MaterializedState.jobsOfWorker at onRecord ⊢
        exact (congrArg (fun workers : HashMap WorkerRecord =>
          id ∈ ((workers[scopedName ns workerName]?).map (·.activeJobIds)).getD []) quiet.records).mpr
            onRecord
      · exact (MaterializedState.live_congr quiet.jobs id).trans (applied.live id member)
      · exact congrArg (fun workers : HashMap WorkerRecord =>
          ((workers[scopedName ns workerName]?).map (·.status == "running")).getD false) quiet.records
      · have slots := congrArg (Option.map (·.status)) (quiet.slots workerName)
        rw [Option.map_map, Option.map_map] at slots
        exact slots
  | _ => cases loads

theorem around_tracks {after : Runtime} (tracks : run.Tracks workerName ns tail)
    (around : Around workerName run.jobs run.runtime after) :
    Tracks workerName ns tail { run with runtime := after } := by
  refine tracks.aside rfl tracks.waits id (fun id member => ?_) (fun id member => ?_) ?_
    (fun serving => ?_) ?_
  · have onRecord := tracks.listed id member
    unfold MaterializedState.jobsOfWorker at onRecord ⊢
    rw [around.records]
    exact onRecord
  · exact (around.live id member).trans (tracks.live id member)
  · rw [MaterializedState.records, MaterializedState.records, around.records]
  · obtain ⟨state, found, running, active⟩ := serving.running
    obtain ⟨current, present, status, keeps⟩ := around.worker state found
    refine ⟨?_, current, present, status.trans running, fun id member _ => ?_⟩
    · rw [MaterializedState.records, around.records]
      exact serving.recorded
    · have live := tracks.live id member
      exact keeps id member live (active id member ((Bool.not_eq_true' _).mp live))
  · cases found : run.runtime.workerStates[workerName]? with
    | none => rw [show after.workerStates[workerName]? = none from around.absent found]
    | some state =>
        obtain ⟨current, present, status, _⟩ := around.worker state found
        rw [show after.workerStates[workerName]? = some current from present]
        exact congrArg some status

/-- As long as what a start has sent waits, the run tracks the worker. -/
theorem goes_tracks {first : RestartRun} (tracks : first.Tracks workerName ns tail)
    (single : tail.length ≤ 1) (goes : Goes outside others workerName ns first run) :
    run.Tracks workerName ns tail ∨ tail ≠ [] ∧ run.sent = [] := by
  induction goes with
  | refl => exact .inl tracks
  | @sent run event rest _ waiting ih =>
      rcases ih with tracks | ⟨_, none⟩
      · obtain ⟨early, waits, before⟩ := tracks.waits
        cases early with
        | nil =>
            have whole : tail = event :: rest := waits.symm.trans waiting
            rw [whole, List.length_cons] at single
            refine .inr ⟨by rw [whole]; exact List.cons_ne_nil _ _, ?_⟩
            exact List.eq_nil_of_length_eq_zero (Nat.le_zero.mp (Nat.le_of_succ_le_succ single))
        | cons oldest early =>
            cases waits.symm.trans waiting
            obtain ⟨first, later⟩ := List.forall_mem_cons.mp before
            rcases first with rfl | ⟨_, loads⟩
            · exact .inl (@process_tracks outside others workerName ns run tail
                (.workerStopped workerName ns) [] tracks (by simp [Event.turns])
                (fun never => absurd never Bool.false_ne_true) _ ⟨early, rfl, later⟩)
            · refine .inl (loads_tracks tracks loads ⟨early, rfl, later⟩ fun stops => ?_)
              rw [waiting] at stops
              refine (List.mem_cons.mp stops).resolve_left ?_
              rintro rfl
              cases loads
      · cases waiting.symm.trans none
  | turn _ turns handled ih =>
      exact ih.imp_left fun tracks => process_tracks tracks turns (fun _ => handled) tracks.waits
  | apply _ apart ih => exact ih.imp_left fun tracks => apply_tracks tracks apart
  | around _ around ih => exact ih.imp_left fun tracks => around_tracks tracks around

/-! ## The last event of a restart -/

/-- A wake does nothing to the worker but bring it up to date. -/
theorem woken_quiet (others : OtherHandlers) (runtime : Runtime) :
    Quiet runtime
      (Handler.processEvent outside others (.workerWake workerName ns) runtime).2 := by
  have applied : Quiet runtime (runtime.applying outside.order (.workerWake workerName ns)) :=
    ⟨rfl, rfl, rfl, fun _ => rfl, 0, fun _ => rfl⟩
  exact applied.trans (Handler.handleWorkerWake_quiet outside workerName _)

/-- A worker that is woken is as it was, but up to date. -/
theorem restored_woken_iff (tracks : run.Tracks workerName ns tail)
    (onDisk : run.runtime.OnDisk runbook) :
    let after := run.process outside others workerName ns (.workerWake workerName ns)
    Restored workerName ns after.jobs (UpToDate outside workerName runbook) after.runtime ↔
      Serving workerName ns run.jobs run.runtime := by
  intro after
  have quiet : Quiet run.runtime after.runtime := woken_quiet others run.runtime
  have kept : after.jobs = run.jobs := List.filter_eq_self.mpr tracks.live
  rw [kept]
  constructor
  · exact fun restored => (Serving.quiet_iff quiet).mp restored.1
  · intro serving
    obtain ⟨state, found, _⟩ := serving.running
    have onDisk' : (run.runtime.applying outside.order (.workerWake workerName ns)).OnDisk runbook :=
      onDisk
    exact ⟨serving.quiet quiet, handleWorkerWake_follows onDisk' found⟩

/-- A worker that is started without an error runs. -/
theorem restored_started {projectRoot : PathBuf} {queueName : String} {concurrency : Nat}
    {events : List Event} (tracks : run.Tracks workerName ns tail)
    (onDisk : run.runtime.OnDisk runbook)
    (handled : (Handler.processEvent outside others (.workerStarted workerName projectRoot
      (outside.hashOf runbook) queueName concurrency ns) run.runtime).1 = .ok events) :
    let after := run.process outside others workerName ns (.workerStarted workerName projectRoot
      (outside.hashOf runbook) queueName concurrency ns)
    Restored workerName ns after.jobs (UpToDate outside workerName runbook) after.runtime := by
  intro after
  let begins : Event := .workerStarted workerName projectRoot (outside.hashOf runbook) queueName
    concurrency ns
  have recorded := @records_started workerName ns run.runtime.world.state outside.order
    (run.runtime.world.clocks 0) projectRoot (outside.hashOf runbook) queueName concurrency
  obtain ⟨_, listed, _⟩ := @spared_kept outside workerName ns run tail tracks begins
  have onDisk' : (run.runtime.applying outside.order begins).OnDisk runbook := onDisk
  refine followed_upToDate.handleWorkerStarted_restored (fun _ _ _ => ?_) recorded listed
    (show _ = ((.ok events, after.runtime) : Except RuntimeError (List Event) × Runtime) from
      Prod.ext handled rfl)
  exact ⟨onDisk', _, (Table.lookup_insert _ _ _ _).trans (if_pos rfl), rfl⟩

/-- What a start sends waits behind the stops. -/
theorem Tracks.sends (tracks : run.Tracks workerName ns []) {early : List Event} {last : Event}
    (loads : ∀ event ∈ early, event.loadsRunbook = true) :
    Tracks workerName ns [last] { run with sent := run.sent ++ (early ++ [last]) } := by
  obtain ⟨stops, waits, only⟩ := tracks.waits
  rw [List.append_nil] at waits
  refine ⟨⟨run.sent ++ early, (List.append_assoc _ _ _).symm, ?_⟩, tracks.listed, tracks.live,
    tracks.up, fun idle => (tracks.down idle).imp_right fun waiting =>
      ⟨waiting.1, List.mem_append_left _ waiting.2⟩, tracks.halted⟩
  rw [waits]
  refine List.forall_mem_append.mpr ⟨fun event member => .inl ?_, fun event member =>
    .inr ⟨List.cons_ne_nil _ _, loads event member⟩⟩
  exact (only event member).resolve_right fun never => never.1 rfl

/-- The event that still waits is the one that a start has sent last. -/
theorem Tracks.last_of_waits {first : RestartRun} {last event : Event}
    (tracks : first.Tracks workerName ns [event]) (goes : Goes outside others workerName ns first run)
    (waits : run.sent = [last]) : last = event ∧ run.Tracks workerName ns [event] := by
  rcases goes_tracks tracks (Nat.le_refl 1) goes with tracked | ⟨_, none⟩
  · obtain ⟨early, ahead, _⟩ := tracked.waits
    have same : [] ++ [last] = early ++ [event] := waits.symm.trans ahead
    exact ⟨List.singleton_inj.mp (List.append_inj' same rfl).2, tracked⟩
  · cases waits.symm.trans none

/-- Where no start has sent anything, the stop is processed last, and stands. -/
theorem stop_stands {last : Event} (tracks : run.Tracks workerName ns [])
    (waits : run.sent = [last]) :
    let after := run.process outside others workerName ns last
    after.runtime.world.state.records workerName ns = false ∧
      (after.last = some (.workerStopped workerName ns) → ∀ state,
        after.runtime.workerStates[workerName]? = some state → state.status ≠ .running) := by
  obtain ⟨early, ahead, only⟩ := tracks.waits
  have stops : last = .workerStopped workerName ns := by
    rw [waits, List.append_nil] at ahead
    refine (only last ?_).resolve_right fun never => never.1 rfl
    rw [← ahead]
    exact List.mem_singleton_self last
  subst stops
  have turned := @process_tracks outside others workerName ns run []
    (.workerStopped workerName ns) [] tracks (by simp [Event.turns])
    (fun never => absurd never Bool.false_ne_true) run.sent tracks.waits
  refine ⟨(turned.down (congrArg (Option.any _) (if_pos (by simp [Event.turns])))).resolve_right ?_,
    turned.halted⟩
  exact fun never => nomatch (if_pos (by simp [Event.turns])).symm.trans never.1

/-- Where only a wake waits, the worker serves if a start was the last of its turns; after a stop
it goes on being stopped. -/
theorem wake_serves_iff (tracks : run.Tracks workerName ns tail)
    (waits : run.sent = [.workerWake workerName ns]) :
    let after := run.process outside others workerName ns (.workerWake workerName ns)
    (Serving workerName ns run.jobs run.runtime ↔ run.last.any (·.starts) = true) ∧
      (run.last = some (.workerStopped workerName ns) →
        after.runtime.world.state.records workerName ns = false ∧ ∀ state,
          after.runtime.workerStates[workerName]? = some state → state.status ≠ .running) := by
  intro after
  have down (idle : run.last.any (·.starts) = false) :
      run.runtime.world.state.records workerName ns = false := by
    refine (tracks.down idle).resolve_right fun waiting => ?_
    have stops := waiting.2
    rw [waits] at stops
    cases List.mem_singleton.mp stops
  have quiet : Quiet run.runtime after.runtime := woken_quiet others run.runtime
  refine ⟨⟨fun serving => ?_, tracks.up⟩, fun stopped => ⟨?_, fun state found running => ?_⟩⟩
  · by_contra idle
    have recorded := serving.recorded
    rw [down (Bool.eq_false_iff.mpr idle)] at recorded
    cases recorded
  · rw [MaterializedState.records, quiet.records]
    exact down (by rw [stopped]; rfl)
  · obtain ⟨prior, present, slots⟩ := quiet.worker_before found
    exact tracks.halted stopped prior present ((congrArg (·.status) slots).trans running)

end RestartRun

/-- A restart leaves the worker running exactly if the runbook defines it, and the start does not
find it running still; or, where it is woken only, if it has been started again since it was
stopped.  Else its stop stands, on record and in memory. -/
theorem restart_serves_iff (outside : Outside) (others : OtherHandlers) (workerName ns : String)
    (projectRoot : PathBuf) (runbook : Runbook) {run read ready : RestartRun} (fresh : run.sent = [])
    (before : RestartRun.Goes outside others workerName ns (run.stop workerName ns) read)
    (later : RestartRun.Goes outside others workerName ns
      (read.start outside workerName ns projectRoot runbook) ready)
    {last : Event} {events : List Event} (waits : ready.sent = [last])
    (onDisk : ready.runtime.OnDisk runbook)
    (handled : (Handler.processEvent outside others last ready.runtime).1 = .ok events) :
    let after := ready.process outside others workerName ns last
    (Restored workerName ns after.jobs (UpToDate outside workerName runbook) after.runtime ↔
      (runbook.validateWorker workerName).isOk = true ∧
        (read.runtime.world.state.records workerName ns = false ∨
          ready.last.any (·.starts) = true)) ∧
      (after.last = some (.workerStopped workerName ns) →
        after.runtime.world.state.records workerName ns = false ∧
        ∀ state, after.runtime.workerStates[workerName]? = some state → state.status ≠ .running) := by
  intro after
  have atRead : read.Tracks workerName ns [] :=
    (RestartRun.goes_tracks (RestartRun.stop_tracks fresh) (Nat.zero_le 1) before).resolve_right
      fun never => never.1 rfl
  have sends : ∀ answer, handleWorkerStart outside read.runtime.world.state projectRoot ns workerName
      runbook = answer → (read.start outside workerName ns projectRoot runbook) =
        { read with sent := read.sent ++ answer.toOption.getD [] } := by
    rintro _ rfl
    rfl
  cases valid : runbook.validateWorker workerName with
  | error error =>
      have rejected : handleWorkerStart outside read.runtime.world.state projectRoot ns workerName
          runbook = .error error := by
        unfold handleWorkerStart
        rw [valid]
        rfl
      have same : read.start outside workerName ns projectRoot runbook = read := by
        rw [sends _ rejected]
        exact congrArg (fun sent => { read with sent }) (List.append_nil _)
      rw [same] at later
      have tracks := (RestartRun.goes_tracks atRead (Nat.zero_le 1) later).resolve_right
        fun never => never.1 rfl
      obtain ⟨stopped, halted⟩ := @RestartRun.stop_stands outside others _ _ _ _ tracks waits
      refine ⟨iff_of_false (fun restored => ?_) (fun holds => nomatch holds.1), fun stops =>
        ⟨stopped, halted stops⟩⟩
      exact Bool.false_ne_true (stopped.symm.trans restored.1.recorded)
  | ok workerDef =>
      have accepted : (Except.ok workerDef : Except String WorkerDef).isOk = true := rfl
      rw [and_iff_right accepted]
      cases runs : read.runtime.world.state.records workerName ns with
      | true =>
          have woken : handleWorkerStart outside read.runtime.world.state projectRoot ns workerName
              runbook = .ok ([] ++ [.workerWake workerName ns]) := by
            unfold handleWorkerStart
            rw [valid]
            exact if_pos runs
          obtain ⟨rfl, tracks⟩ := RestartRun.Tracks.last_of_waits (by
            rw [sends _ woken]
            exact atRead.sends (List.forall_mem_nil _)) later waits
          obtain ⟨serves, halted⟩ := @RestartRun.wake_serves_iff outside others _ _ _ _ tracks waits
          rw [or_iff_right fun never => nomatch never]
          exact ⟨(RestartRun.restored_woken_iff tracks onDisk).trans serves, halted⟩
      | false =>
          let loaded : Event := .runbookLoaded (outside.hashOf runbook) 1 (outside.encodeRunbook runbook)
          let begins : Event := .workerStarted workerName projectRoot (outside.hashOf runbook)
            workerDef.queue workerDef.concurrency ns
          have started : handleWorkerStart outside read.runtime.world.state projectRoot ns workerName
              runbook = .ok ([loaded] ++ [begins]) := by
            unfold handleWorkerStart
            rw [valid]
            exact if_neg (Bool.eq_false_iff.mp runs)
          obtain ⟨rfl, tracks⟩ := RestartRun.Tracks.last_of_waits (by
            rw [sends _ started]
            exact atRead.sends (List.forall_mem_singleton.mpr rfl)) later waits
          refine ⟨iff_of_true (RestartRun.restored_started tracks onDisk handled) (.inl rfl),
            fun stopped => ?_⟩
          have turned : after.last = some begins := if_pos (by simp [begins, Event.turns])
          have same := congrArg Event.starts (Option.some.inj (turned.symm.trans stopped))
          cases (show true = false from same)

/-! ## A worker that is restarted -/

section Joining

/-- The worker runs, and has a job on its record. -/
def joining : RestartRun where
  runtime := (Handler.trackItem (.plain .shop) "joiner" "" "item" "job1"
    ((Daemon.shop (.idle .shop {})).steps (.plain .shop) .silent 3).runtime).2
  sent := []
  jobs := []
  last := none

/-- The engine has come to the stop. -/
def joinerStopped : RestartRun :=
  { (joining.stop "joiner" "").process (.plain .shop) .silent "joiner" ""
      (.workerStopped "joiner" "") with sent := [] }

def joinerStarted : RestartRun := joinerStopped.start (.plain .shop) "joiner" "" "/" .shop

def joinerLoaded : RestartRun :=
  { joinerStarted.process (.plain .shop) .silent "joiner" ""
      (.runbookLoaded "hash" 1 ((Outside.plain .shop).encodeRunbook .shop)) with
    sent := [.workerStarted "joiner" "/" "hash" "parts" 1 ""] }

/-- The engine has stopped the worker before it is started: it runs again, with its job. -/
theorem joiner_serves : joinerLoaded.jobs = ["job1"] ∧
    let after := joinerLoaded.process (.plain .shop) .silent "joiner" ""
      (.workerStarted "joiner" "/" "hash" "parts" 1 "")
    Restored "joiner" "" after.jobs (UpToDate (.plain .shop) "joiner" .shop) after.runtime := by
  have stopped : RestartRun.Goes (.plain .shop) .silent "joiner" "" (joining.stop "joiner" "")
      joinerStopped := .sent .refl (by rfl)
  have loaded : RestartRun.Goes (.plain .shop) .silent "joiner" "" joinerStarted joinerLoaded :=
    .sent .refl (by rfl)
  have handled : ∃ events, (Handler.processEvent (.plain .shop) .silent
      (.workerStarted "joiner" "/" "hash" "parts" 1 "") joinerLoaded.runtime).1 = .ok events :=
    ⟨_, by rfl⟩
  obtain ⟨events, handled⟩ := handled
  refine ⟨by decide +kernel, ?_⟩
  exact ((restart_serves_iff (.plain .shop) .silent "joiner" "" "/" .shop rfl stopped loaded
    (by rfl) (fun n => rfl) handled).1).mpr ⟨rfl, .inl rfl⟩

/-- The engine has not come to the stop when the worker is started: it is stopped, and woken in
vain. -/
theorem joiner_stopped : ¬∀ (outside : Outside) (others : OtherHandlers) (workerName ns : String)
    (projectRoot : PathBuf) (runbook : Runbook) (run read ready : RestartRun), run.sent = [] →
    (runbook.validateWorker workerName).isOk = true →
    RestartRun.Goes outside others workerName ns (run.stop workerName ns) read →
    RestartRun.Goes outside others workerName ns
      (read.start outside workerName ns projectRoot runbook) ready →
    ∀ (last : Event) (events : List Event), ready.sent = [last] → ready.runtime.OnDisk runbook →
      (Handler.processEvent outside others last ready.runtime).1 = .ok events →
      let after := ready.process outside others workerName ns last
      Restored workerName ns after.jobs (UpToDate outside workerName runbook) after.runtime := by
  intro serves
  let woken := (joining.stop "joiner" "").start (.plain .shop) "joiner" "" "/" .shop
  have goes : RestartRun.Goes (.plain .shop) .silent "joiner" "" woken
      { woken.process (.plain .shop) .silent "joiner" "" (.workerStopped "joiner" "") with
        sent := [.workerWake "joiner" ""] } := .sent .refl (by rfl)
  have restored := serves (.plain .shop) .silent "joiner" "" "/" .shop joining _ _ rfl rfl .refl goes
    (.workerWake "joiner" "") [] rfl (fun n => rfl) (by rfl)
  have recorded := restored.1.recorded
  exact absurd recorded (by decide +kernel)

end Joining

end OddJobs
