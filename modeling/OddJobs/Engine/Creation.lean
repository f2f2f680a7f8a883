import OddJobs.Engine.Lifecycle
import OddJobs.Engine.Launch

/-!
# Creating a job

A job is worked out, recorded and launched.  All of this concerns that job alone; it
leaves a job at work exactly if the job can be worked out and launched.
-/

namespace OddJobs

open Library

/-! ## A launch concerns one job -/

/-- No worker has the job under way, or knows an item of it. -/
def Untracked (id : JobId) (workers : HashMap WorkerState) : Prop :=
  ∀ (name : String) (state : WorkerState), workers[name]? = some state →
    state.activeJobs.contains id = false ∧ state.itemJobMap[id]? = none

/-- The job exists under its own id, and no worker has it. -/
def Known (id : JobId) (runtime : Runtime) : Prop :=
  (∃ job, runtime.world.state.jobs[id]? = some job ∧ job.id = id) ∧
    Untracked id runtime.workerStates

def MaterializedState.listedBut (id : JobId) (state : MaterializedState) (key : String) :
    Option (List JobId) :=
  (state.workers[key]?).map fun record => record.activeJobIds.filter (· ≠ id)

/-- Workers, queues and the steps of the other jobs are as they were; no item is
taken. -/
structure Elsewhere (id : JobId) (before after : Runtime) : Prop where
  workers : after.workerStates = before.workerStates
  queueItems : after.world.state.queueItems = before.world.state.queueItems
  takes : after.world.takes = before.world.takes
  listed : ∀ key, after.world.state.listedBut id key = before.world.state.listedBut id key
  jobs : ∀ other, other ≠ id → (after.world.state.jobs[other]?).map (·.step) =
    (before.world.state.jobs[other]?).map (·.step)
  readings : ∃ read, ∀ n, after.readings n = before.readings (n + read)

theorem Elsewhere.refl (id : JobId) (runtime : Runtime) : Elsewhere id runtime runtime :=
  ⟨rfl, rfl, rfl, fun _ => rfl, fun _ _ => rfl, 0, fun _ => rfl⟩

theorem Elsewhere.trans {id : JobId} {first second third : Runtime}
    (early : Elsewhere id first second) (late : Elsewhere id second third) :
    Elsewhere id first third where
  workers := late.workers.trans early.workers
  queueItems := late.queueItems.trans early.queueItems
  takes := late.takes.trans early.takes
  listed := fun key => (late.listed key).trans (early.listed key)
  jobs := fun other differs => (late.jobs other differs).trans (early.jobs other differs)
  readings := by
    obtain ⟨before, earlyReadings⟩ := early.readings
    obtain ⟨after, lateReadings⟩ := late.readings
    refine ⟨after + before, fun n => ?_⟩
    rw [lateReadings, earlyReadings, Nat.add_assoc]

/-- A job that is known stays known, and nothing else changes. -/
def OnlyJob (id : JobId) (before after : Runtime) : Prop :=
  Known id before → Known id after ∧ Elsewhere id before after

theorem closed_onlyJob (id : JobId) : Closed (OnlyJob id) where
  refl := fun runtime known => ⟨known, .refl id runtime⟩
  trans := fun first second known =>
    have ⟨between, early⟩ := first known
    have ⟨after, late⟩ := second between
    ⟨after, early.trans late⟩

theorem findWorker_untracked {id : JobId} {workers : HashMap WorkerState}
    (untracked : Untracked id workers) (order : WalkOrder) :
    Handler.findWorker order id workers = none := by
  unfold Handler.findWorker
  cases key : Table.findKey? order workers (·.activeJobs.contains id) with
  | none => rfl
  | some name =>
      obtain ⟨state, found, active⟩ := Table.findKey?_sound key
      rw [(untracked name state found).1] at active
      cases active

/-- An advance takes at most its job off the records. -/
theorem listedBut_applyJobAdvanced (clock : Clock) (id : JobId) (step : String)
    (state : MaterializedState) (key : String) :
    (state.applyJobAdvanced clock id step).listedBut id key = state.listedBut id key := by
  have released : ∀ after : MaterializedState, after.workers = state.workers →
      (after.releaseJob id).listedBut id key = state.listedBut id key := by
    intro after same
    change ((after.workers.map fun _ record =>
      { record with activeJobIds := record.activeJobIds.filter (· ≠ id) })[key]?).map _ = _
    unfold MaterializedState.listedBut
    rw [Table.lookup_map, same, Option.map_map]
    refine Option.map_congr fun record _ => ?_
    simp only [Function.comp_apply, List.filter_filter, Bool.and_self]
  unfold MaterializedState.applyJobAdvanced
  split
  · rfl
  · dsimp only
    split
    · exact released _ rfl
    · rfl

/-- An event on one job. -/
theorem elsewhere_applying {outside : Outside} {id : JobId} {event : Event}
    (ofJob : event.OfJobs (· = id)) (runtime : Runtime) :
    OnlyJob id runtime (runtime.applying outside.order event) := by
  rintro ⟨⟨job, found, named⟩, untracked⟩
  have queueItems := MaterializedState.applyEvent_queueItems outside.order
    (runtime.world.clocks 0) runtime.world.state
    (show event.onQueues = false by cases event <;> first | rfl | exact ofJob.elim)
  have listed : ∀ key, (runtime.applying outside.order event).world.state.listedBut id key =
      runtime.world.state.listedBut id key := by
    intro key
    cases onWorkers : event.onWorkers with
    | true =>
        cases event with
        | jobAdvanced other step =>
            have same : other = id := ofJob
            subst same
            exact listedBut_applyJobAdvanced _ other step _ key
        | _ => first | exact ofJob.elim | cases onWorkers
    | false =>
        have same := MaterializedState.applyEvent_workers outside.order (runtime.world.clocks 0)
          runtime.world.state onWorkers
        exact congrArg (fun workers : HashMap WorkerRecord => (workers[key]?).map fun record =>
          record.activeJobIds.filter (· ≠ id)) same
  suffices jobs : (∃ job, (runtime.applying outside.order event).world.state.jobs[id]? = some job ∧
      job.id = id) ∧ ∀ other, other ≠ id →
      ((runtime.applying outside.order event).world.state.jobs[other]?).map (·.step) =
        (runtime.world.state.jobs[other]?).map (·.step) by
    exact ⟨⟨jobs.1, untracked⟩, rfl, queueItems, rfl, listed, jobs.2, 0, fun _ => rfl⟩
  cases moves : event.movesJob with
  | true =>
      cases event with
      | jobAdvanced other step =>
          have same : other = id := ofJob
          subst same
          have advanced := fun key => MaterializedState.lookup_applyJobAdvanced
            (runtime.world.clocks 0) other key step runtime.world.state
          constructor
          · have moved := (advanced other).trans (if_pos rfl)
            rw [found, Option.map_some] at moved
            refine ⟨_, moved, ?_⟩
            split
            · exact named
            · rw [Job.applyAdvanced_eq]
              exact named
          · intro key differs
            have unchanged := (advanced key).trans (if_neg (Ne.symm differs))
            exact congrArg (Option.map (·.step)) unchanged
      | _ => first | exact ofJob.elim | cases moves
  | false =>
      have same := MaterializedState.applyEvent_sameHistory outside.order (runtime.world.clocks 0)
        runtime.world.state moves
      constructor
      · obtain ⟨next, present, history⟩ := same.lookup found
        exact ⟨next, present, history.id.trans named⟩
      · intro other _
        exact same.map_eq (fun _ _ history => history.step) other

/-- The lifecycle of a known job keeps to that job. -/
theorem lifecycle_onlyJob (outside : Outside) (id : JobId) :
    Lifecycle (· = id) outside (OnlyJob id) where
  toClosed := closed_onlyJob id
  aside := by
    rintro before after aside ⟨job, untracked⟩
    refine ⟨⟨?_, ?_⟩, aside.workers, congrArg (·.queueItems) aside.state, aside.takes, ?_, ?_,
      aside.readings⟩
    · rw [aside.state]
      exact job
    · rw [aside.workers]
      exact untracked
    · intro key
      rw [aside.state]
    · intro other _
      rw [aside.state]
  event := fun ofJobs runtime => elsewhere_applying ofJobs runtime
  cleaning := fun workspaceId runtime known =>
    ⟨known, rfl, rfl, rfl, fun _ => rfl, fun _ _ => rfl, 0, fun _ => rfl⟩
  timers := fun runtime timers _ known =>
    ⟨known, rfl, rfl, rfl, fun _ => rfl, fun _ _ => rfl, 0, fun _ => rfl⟩
  settles := by
    intro other same step runtime known
    rw [same]
    have nobody : Handler.checkWorkerJobComplete outside id step runtime = (.ok [], runtime) := by
      unfold Handler.checkWorkerJobComplete
      rw [Program.run_bind]
      simp only [Program.run_read]
      rw [findWorker_untracked known.2]
      rfl
    rw [nobody]
    exact ⟨known, .refl id runtime⟩

theorem finds_onlyJob (id : JobId) : Lifecycle.Finds (· = id) (OnlyJob id) id := by
  intro runtime job found
  rcases Classical.em (Known id runtime) with known | unknown
  · left
    obtain ⟨⟨present, lookup, named⟩, _⟩ := known
    rw [MaterializedState.getJob_found lookup] at found
    cases found
    exact named
  · right
    intro after known
    exact absurd known unknown

/-! ## Preparing a job -/

theorem closed_aside (outside : Outside) : Closed (Aside outside) where
  refl := fun _ => ⟨rfl, rfl, rfl, rfl, rfl, rfl, fun _ => rfl, 0, fun _ => rfl⟩
  trans := by
    intro first second third early late
    obtain ⟨before, earlyReadings⟩ := early.readings
    obtain ⟨after, lateReadings⟩ := late.readings
    refine ⟨late.state.trans early.state, late.timers.trans early.timers,
      late.applied.trans early.applied, late.takes.trans early.takes,
      late.workers.trans early.workers, late.crons.trans early.crons,
      fun hash => (late.runbooks hash).trans (early.runbooks hash),
      after + before, fun n => ?_⟩
    rw [lateReadings, earlyReadings, Nat.add_assoc]

section Prepare

variable (outside : Outside)

theorem nextReading_aside : Program.Moves (Aside outside) Handler.nextReading :=
  fun _ => ⟨rfl, rfl, rfl, rfl, rfl, rfl, fun _ => rfl, 1, fun _ => rfl⟩

theorem evaluateShell_aside (what command : String) (cwd : PathBuf) :
    Program.Moves (Aside outside) (Handler.evaluateShell what command cwd) := by
  have closed := closed_aside outside
  unfold Handler.evaluateShell
  refine (nextReading_aside outside).bind closed fun reading => ?_
  split
  · exact Program.moves_throw closed _
  · split
    · exact Program.moves_pure closed _
    · exact Program.moves_throw closed _

theorem worktreeVars_aside (params : CreateJobParams) (workspace : Option WorkspaceConfig)
    (vars : HashMap String) :
    Program.Moves (Aside outside) (Handler.worktreeVars outside params workspace vars) := by
  have closed := closed_aside outside
  unfold Handler.worktreeVars
  dsimp only
  split
  · split
    · exact Program.moves_pure closed _
    · split
      · exact (evaluateShell_aside outside _ _ _).bind closed fun _ => Program.moves_pure closed _
      · exact Program.moves_pure closed _
  · exact Program.moves_pure closed _

theorem evaluateLocals_aside (locals : HashMap String) (keys : List String)
    (lookup vars : HashMap String) :
    Program.Moves (Aside outside) (Handler.evaluateLocals outside locals keys lookup vars) := by
  have closed := closed_aside outside
  induction keys generalizing lookup vars with
  | nil => exact Program.moves_pure closed _
  | cons key rest ih =>
      refine Program.Moves.bind closed ?_ fun value => ih _ _
      unfold Handler.evaluateLocal
      split
      · exact evaluateShell_aside outside _ _ _
      · exact Program.moves_pure closed _

theorem workspaceEffects_aside (params : CreateJobParams) (placement : Placement)
    (vars : HashMap String) :
    Program.Moves (Aside outside) (Handler.workspaceEffects outside params placement vars) := by
  have closed := closed_aside outside
  unfold Handler.workspaceEffects
  split
  · exact Program.moves_pure closed _
  · refine Program.Moves.bind closed ?_ fun _ => Program.moves_pure closed _
    unfold Handler.repoRoot
    refine (nextReading_aside outside).bind closed fun reading => ?_
    split
    · exact Program.moves_throw closed _
    · split
      · exact Program.moves_pure closed _
      · exact Program.moves_throw closed _
  · exact Program.moves_pure closed _

theorem prepareJob_aside (params : CreateJobParams) :
    Program.Moves (Aside outside) (Handler.prepareJob outside params) := by
  have closed := closed_aside outside
  unfold Handler.prepareJob
  refine Program.Moves.bind closed ?_ fun jobDef => ?_
  · cases params.runbook.getJob params.jobKind with
    | none => exact Program.moves_throw closed _
    | some jobDef => exact Program.moves_pure closed _
  refine (worktreeVars_aside outside _ _ _).bind closed fun vars => ?_
  refine (evaluateLocals_aside outside _ _ _ _).bind closed fun vars => ?_
  exact (workspaceEffects_aside outside _ _ _).bind closed fun _ => Program.moves_pure closed _

variable {outside}

theorem workspaceEffects_setUp {params : CreateJobParams} {placement : Placement}
    {vars : HashMap String} {before after : Runtime} {effects : List Effect}
    (ran : Handler.workspaceEffects outside params placement vars before = (.ok effects, after)) :
    SetsUp params.jobId effects := by
  unfold Handler.workspaceEffects at ran
  rcases chosen : placement.workspace with _ | ⟨workspaceId, isWorktree⟩
  · rw [chosen] at ran
    cases ran
    exact .nothing
  · rw [chosen] at ran
    cases isWorktree with
    | false =>
        cases ran
        exact .folder _ _
    | true =>
        obtain ⟨root, middle, _, returned⟩ := Program.bind_eq_ok.mp ran
        cases returned
        exact .worktree _ _ _ _ _

/-- What has been prepared is the job of the runbook, with a workspace of its own. -/
theorem prepareJob_ok {params : CreateJobParams} {before after : Runtime}
    {prepared : Handler.PreparedJob}
    (ran : Handler.prepareJob outside params before = (.ok prepared, after)) :
    params.runbook.getJob params.jobKind = some prepared.jobDef ∧
      SetsUp params.jobId prepared.effects := by
  unfold Handler.prepareJob at ran
  obtain ⟨jobDef, _, required, ran⟩ := Program.bind_eq_ok.mp ran
  obtain ⟨_, _, _, ran⟩ := Program.bind_eq_ok.mp ran
  obtain ⟨_, _, _, ran⟩ := Program.bind_eq_ok.mp ran
  obtain ⟨effects, _, setUp, ran⟩ := Program.bind_eq_ok.mp ran
  cases ran
  constructor
  · cases defined : params.runbook.getJob params.jobKind with
    | none =>
        rw [defined] at required
        cases required
    | some found =>
        rw [defined] at required
        cases required
        rfl
  · exact workspaceEffects_setUp setUp

end Prepare

/-! ## Creating a job -/

def notifying (jobDef : JobDef) : Nat := if jobDef.notify.onStart.isSome then 1 else 0

section Create

variable {outside : Outside} {params : CreateJobParams} {prepared : Handler.PreparedJob}
  {now ready : Runtime}

def newJob (outside : Outside) (params : CreateJobParams) (prepared : Handler.PreparedJob)
    (epochMs instant : Nat) : Job :=
  Job.newWithEpochMs {
    id := params.jobId
    name := prepared.name
    kind := params.jobKind
    vars := namespaceVars outside.order prepared.vars
    runbookHash := params.runbookHash
    cwd := prepared.placement.executionPath
    initialStep := prepared.jobDef.initialStep
    ns := params.ns
    cronName := params.cronName } epochMs instant

/-- A runbook that is known already is not cached anew. -/
theorem Runtime.runbookAt_insertIfNew {before after : Runtime} {hash : String} {runbook : Runbook}
    (known : before.runbookAt outside hash = some runbook)
    (cache : after.runbookCache = before.runbookCache.insertIfNew hash runbook)
    (stored : after.world.state.runbooks = before.world.state.runbooks) (other : String) :
    after.runbookAt outside other = before.runbookAt outside other := by
  unfold Runtime.runbookAt at known ⊢
  rw [cache, stored, Table.lookup_insertIfNew]
  rcases Decidable.em (hash = other) with rfl | differs
  · rw [if_pos rfl, known]
    cases cached : before.runbookCache[hash]? with
    | none => rfl
    | some present =>
        rw [cached] at known
        exact known
  · rw [if_neg differs]

/-- The job is recorded; its runbook is known already. -/
theorem recordJob_ends (noJson : params.runbookJson = none)
    (known : ready.runbookAt outside params.runbookHash = some params.runbook)
    (untracked : Untracked params.jobId ready.workerStates) :
    ∃ events after epochMs instant,
      Handler.recordJob outside params prepared ready = (.ok events, after) ∧
      Launching outside params.jobId ready 1 (newJob outside params prepared epochMs instant).view
        after ∧
      Known params.jobId after ∧ Elsewhere params.jobId ready after := by
  let clocked : Runtime := { ready with world := { ready.world with
    clocks := fun n => ready.world.clocks (n + 1) } }
  let cached : Runtime := { clocked with
    runbookCache := ready.runbookCache.insertIfNew params.runbookHash params.runbook }
  let created : Event := .jobCreated params.jobId params.jobKind prepared.name params.runbookHash
    prepared.placement.executionPath (namespaceVars outside.order prepared.vars)
    prepared.jobDef.initialStep (ready.world.clocks 0).epochMs params.ns params.cronName
  let job := newJob outside params prepared (ready.world.clocks 0).epochMs
    (ready.world.clocks 1).instant
  have inserted : ∀ other, (cached.emitting outside.order created).world.state.jobs[other]? =
      if params.jobId = other then some job else ready.world.state.jobs[other]? :=
    fun other => Table.lookup_insert _ _ _ _
  refine ⟨[created], cached.emitting outside.order created, (ready.world.clocks 0).epochMs,
    (ready.world.clocks 1).instant, ?_, ⟨?_, ?_, fun _ => rfl, rfl, rfl⟩,
    ⟨⟨job, ?_, rfl⟩, untracked⟩, rfl, rfl, rfl, fun _ => rfl, ?_, 0, fun _ => rfl⟩
  · unfold Handler.recordJob
    refine (Program.bind_ok (show Handler.carryOut Exec.readClock ready = (.ok _, clocked) from
      rfl)).trans ?_
    rw [noJson]
    rfl
  · rw [inserted, if_pos rfl]
    rfl
  · intro hash
    refine Runtime.runbookAt_insertIfNew known ?_ ?_ hash
    · rfl
    · exact MaterializedState.applyEvent_runbooks outside.order (ready.world.clocks 1)
        ready.world.state (show created.loadsRunbook = false from rfl)
  · rw [inserted, if_pos rfl]
  · intro other differs
    rw [inserted, if_neg (Ne.symm differs)]

theorem notifyStart_ends {id : JobId} {start now : Runtime} {used : Nat} {view : JobView}
    (launching : Launching outside id start used view now) :
    ∃ events after, Handler.notifyStart outside params prepared now = (.ok events, after) ∧
      Launching outside id start (used + notifying prepared.jobDef) view after := by
  unfold Handler.notifyStart notifying
  cases prepared.jobDef.notify.onStart with
  | none => exact ⟨_, now, rfl, launching⟩
  | some template => exact ⟨_, _, rfl, launching.requesting _⟩

theorem SetsUp.ofJobs {id : JobId} {effects : List Effect} (setsUp : SetsUp id effects) :
    ∀ effect ∈ effects, effect.OfJobs (· = id) := by
  intro effect member
  cases setsUp with
  | nothing => cases member
  | folder | worktree =>
      cases List.mem_singleton.mp member
      exact ⟨id, rfl, rfl⟩

/-- The job can be worked out, and then launched. -/
def CanCreate (outside : Outside) (params : CreateJobParams) (now : Runtime) : Prop :=
  ∃ prepared ready, Handler.prepareJob outside params now = (.ok prepared, ready) ∧
    CanLaunch params.runbook prepared.jobDef prepared.effects ready
      (1 + notifying prepared.jobDef)

theorem Elsewhere.of_aside {before after : Runtime} (aside : Aside outside before after)
    (id : JobId) : Elsewhere id before after where
  workers := aside.workers
  queueItems := congrArg (·.queueItems) aside.state
  takes := aside.takes
  listed := fun key => by rw [aside.state]
  jobs := fun other _ => by rw [aside.state]
  readings := aside.readings

/-- What has been prepared is recorded and launched. -/
theorem launch_ends (ran : Handler.prepareJob outside params now = (.ok prepared, ready))
    (noJson : params.runbookJson = none)
    (known : now.runbookAt outside params.runbookHash = some params.runbook)
    (untracked : Untracked params.jobId now.workerStates) :
    let can := CanLaunch params.runbook prepared.jobDef prepared.effects ready
      (1 + notifying prepared.jobDef)
    let program : Handler (List Event) := do
      let recorded ← Handler.recordJob outside params prepared
      let notified ← Handler.notifyStart outside params prepared
      let launched ← Handler.launchJob outside params prepared
      pure (recorded ++ notified ++ launched)
    (can → Program.Returns program ready (JobEnded params.jobId false)) ∧
      (¬can → Program.Fails program ready ∨
        Program.Returns program ready (JobEnded params.jobId true)) ∧
      (CanStart params.runbook prepared.jobDef prepared.effects ready
        (1 + notifying prepared.jobDef) → Program.Returns program ready fun _ => True) ∧
      Known params.jobId (program ready).2 ∧ Elsewhere params.jobId ready (program ready).2 := by
  have aside : Aside outside now ready := by
    have moved := prepareJob_aside outside params now
    rwa [ran] at moved
  obtain ⟨defined, setsUp⟩ := prepareJob_ok ran
  rw [← aside.runbooks] at known
  rw [← aside.workers] at untracked
  obtain ⟨recorded, created, epochMs, instant, records, recording, present, elsewhere⟩ :=
    @recordJob_ends outside params prepared ready noJson known untracked
  obtain ⟨notified, told, notifies, launching⟩ :=
    @notifyStart_ends outside params prepared params.jobId ready created 1 _ recording
  have begins : Launching.Ready outside params prepared params.runbook ready
      (1 + notifying prepared.jobDef) _ told :=
    ⟨launching, ⟨rfl, rfl⟩, known, defined, rfl, rfl, setsUp,
      findWorker_untracked untracked outside.order⟩
  have ends := Launching.launchJob_ends begins
  have life := lifecycle_onlyJob outside params.jobId
  have tells := life.notifyStart_moves params prepared created present
  rw [notifies] at tells
  have finds : ∀ id, id = params.jobId → Lifecycle.Finds (· = params.jobId)
      (OnlyJob params.jobId) id := by
    rintro _ rfl
    exact finds_onlyJob params.jobId
  have launches := @Lifecycle.launchJob_moves _ _ _ life params prepared rfl finds setsUp.ofJobs
    told tells.1
  intro can program
  have goesOn : program ready = (do
      let launched ← Handler.launchJob outside params prepared
      pure (recorded ++ notified ++ launched) : Handler (List Event)) told :=
    (Program.bind_ok records).trans (Program.bind_ok notifies)
  have returns : ∀ {post : Runtime → Prop},
      Program.Returns (Handler.launchJob outside params prepared) told post →
      Program.Returns program ready post := by
    rintro post ⟨launched, after, done, held⟩
    exact ⟨_, after, goesOn.trans (Program.bind_ok done), held⟩
  have last : (program ready).2 = (Handler.launchJob outside params prepared told).2 := by
    rw [goesOn]
    exact Program.bind_pure_state _ _ told
  rw [last]
  refine ⟨fun able => returns (ends.1 able), fun unable => ?_,
    fun able => returns (Launching.launchJob_returns begins able), launches.1,
    (elsewhere.trans tells.2).trans launches.2⟩
  rcases ends.2 unable with fails | stopped
  · obtain ⟨error, after, stops⟩ := fails.first _
    exact .inl ⟨error, after, goesOn.trans stops⟩
  · exact .inr (returns stopped)

/-- What a creation does with a job that is prepared. -/
theorem createAndStartJob_run (free : now.world.state.getJob params.jobId = none) :
    Handler.createAndStartJob outside params now = (do
      let prepared ← Handler.prepareJob outside params
      let recorded ← Handler.recordJob outside params prepared
      let notified ← Handler.notifyStart outside params prepared
      let launched ← Handler.launchJob outside params prepared
      pure (recorded ++ notified ++ launched) : Handler (List Event)) now := by
  unfold Handler.createAndStartJob
  rw [Program.run_bind]
  simp only [Handler.readState, Program.run_read, free]
  rfl

section Free

variable (free : now.world.state.getJob params.jobId = none) (noJson : params.runbookJson = none)
  (known : now.runbookAt outside params.runbookHash = some params.runbook)
  (untracked : Untracked params.jobId now.workerStates)

include free noJson known untracked

/-- A new job is left at work exactly if it can be created. -/
theorem createAndStartJob_ends :
    let program := Handler.createAndStartJob outside params
    (CanCreate outside params now → Program.Returns program now (JobEnded params.jobId false)) ∧
      (¬CanCreate outside params now → Program.Fails program now ∨
        Program.Returns program now (JobEnded params.jobId true)) ∧
      Elsewhere params.jobId now (program now).2 := by
  intro program
  have goesOn : program now = _ := createAndStartJob_run free
  have aside := prepareJob_aside outside params now
  unfold Program.Returns Program.Fails
  rw [goesOn]
  cases ran : Handler.prepareJob outside params now with
  | mk result ready =>
      rw [ran] at aside
      have elsewhere := Elsewhere.of_aside aside params.jobId
      cases result with
      | error error =>
          rw [Program.bind_error ran]
          refine ⟨?_, fun _ => .inl ⟨error, ready, rfl⟩, elsewhere⟩
          rintro ⟨prepared, after, prepares, _⟩
          rw [ran] at prepares
          cases prepares
      | ok prepared =>
          rw [Program.bind_ok ran]
          obtain ⟨succeeds, stops, _, _, launches⟩ := launch_ends ran noJson known untracked
          refine ⟨?_, ?_, elsewhere.trans launches⟩
          · rintro ⟨_, _, prepares, able⟩
            rw [ran] at prepares
            cases prepares
            exact succeeds able
          · intro unable
            exact stops fun able => unable ⟨prepared, ready, ran, able⟩

/-- A creation that fails only before the job is recorded leaves the job as it was,
or recorded. -/
theorem createAndStartJob_steady
    (steady : ∀ prepared ready, Handler.prepareJob outside params now = (.ok prepared, ready) →
      CanStart params.runbook prepared.jobDef prepared.effects ready
        (1 + notifying prepared.jobDef)) :
    (∃ error after, Handler.createAndStartJob outside params now = (.error error, after) ∧
      Aside outside now after) ∨
    ∃ events after, Handler.createAndStartJob outside params now = (.ok events, after) ∧
      Known params.jobId after ∧ Elsewhere params.jobId now after := by
  have goesOn := @createAndStartJob_run outside params now free
  have aside := prepareJob_aside outside params now
  rcases ran : Handler.prepareJob outside params now with ⟨result, ready⟩
  rw [ran] at aside
  cases result with
  | error error =>
      left
      exact ⟨error, ready, goesOn.trans (Program.bind_error ran), aside⟩
  | ok prepared =>
      right
      obtain ⟨_, _, returns, present, elsewhere⟩ := launch_ends ran noJson known untracked
      obtain ⟨events, after, launched, _⟩ := returns (steady prepared ready ran)
      rw [launched] at present elsewhere
      exact ⟨events, after, goesOn.trans ((Program.bind_ok ran).trans launched), present,
        (Elsewhere.of_aside aside params.jobId).trans elsewhere⟩

end Free

end Create

end OddJobs
