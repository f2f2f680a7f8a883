import OddJobs.Engine.Creation
import OddJobs.Storage.Marks

/-!
# Dispatch of queue items

A worker takes an item of a persisted queue, creates a job for it and tracks the job.
Each item that a poll takes has its turn; what comes of it is decided there, and the
turns of other items change nothing of it.
-/

namespace OddJobs

open Library

/-- The ids still to come are new: none is the beginning of another one or of the id
of a job, and no worker has it. -/
structure FreshIds (runtime : Runtime) : Prop where
  apart : ∀ m n, m ≠ n →
    ¬(runtime.readings m).uuid.toList <+: (runtime.readings n).uuid.toList
  jobs : ∀ (n : Nat) (id : JobId) (job : Job), runtime.world.state.jobs[id]? = some job →
    ¬(runtime.readings n).uuid.toList <+: id.toList
  workers : ∀ n, Untracked (runtime.readings n).uuid runtime.workerStates

namespace FreshIds

variable {runtime after : Runtime}

/-- No job is found under a new id. -/
theorem free (fresh : FreshIds runtime) (n : Nat) :
    runtime.world.state.getJob (runtime.readings n).uuid = none := by
  unfold MaterializedState.getJob
  cases found : runtime.world.state.jobs[(runtime.readings n).uuid]? with
  | some job => exact absurd (List.prefix_refl _) (fresh.jobs n _ job found)
  | none =>
      have nothing : (runtime.world.state.jobs.toList.filter fun entry =>
          (runtime.readings n).uuid.toList.isPrefixOf entry.1.toList) = [] := by
        rw [List.filter_eq_nil_iff]
        rintro ⟨id, job⟩ member begins
        have present := Std.ExtTreeMap.mem_toList_iff_getElem?_eq_some.mp member
        exact fresh.jobs n id job present (List.isPrefixOf_iff_prefix.mp begins)
      dsimp only
      rw [nothing]

/-- Once the first of the new ids has been used, the others are still new. -/
theorem used (fresh : FreshIds runtime) {read : Nat}
    (readings : ∀ n, after.readings n = runtime.readings (n + (read + 1)))
    (jobs : ∀ other, other ≠ (runtime.readings 0).uuid →
      (after.world.state.jobs[other]?).map (·.step) =
        (runtime.world.state.jobs[other]?).map (·.step))
    (workers : ∀ id, id ≠ (runtime.readings 0).uuid → Untracked id runtime.workerStates →
      Untracked id after.workerStates) : FreshIds after where
  apart := by
    intro m n differs
    rw [readings, readings]
    exact fresh.apart _ _ (by omega)
  jobs := by
    intro n id job found
    rw [readings]
    rcases Decidable.em (id = (runtime.readings 0).uuid) with rfl | differs
    · exact fresh.apart _ _ (by omega)
    · have same := jobs id differs
      rw [found, Option.map_some] at same
      obtain ⟨before, present, _⟩ := Option.map_eq_some_iff.mp same.symm
      exact fresh.jobs _ id before present
  workers := by
    intro n
    rw [readings]
    refine workers _ ?_ (fresh.workers _)
    intro same
    exact fresh.apart (n + (read + 1)) 0 (by omega) (same ▸ List.prefix_refl _)

/-- Ids that are not used stay new. -/
theorem later (fresh : FreshIds runtime) {read : Nat}
    (readings : ∀ n, after.readings n = runtime.readings (n + read))
    (state : after.world.state = runtime.world.state)
    (workers : after.workerStates = runtime.workerStates) : FreshIds after where
  apart := by
    intro m n differs
    rw [readings, readings]
    exact fresh.apart _ _ (by omega)
  jobs := by
    intro n
    rw [readings, state]
    exact fresh.jobs (n + read)
  workers := by
    intro n
    rw [readings, workers]
    exact fresh.workers (n + read)

end FreshIds

def Working (workerName itemId : String) (runtime : Runtime) : Prop :=
  ∃ (state : WorkerState) (id : JobId), runtime.workerStates[workerName]? = some state ∧
    state.itemJobMap[id]? = some itemId ∧ JobEnded id false runtime

def dispatchParams (outside : Outside) (state : WorkerState) (uuid : String) (runbook : Runbook)
    (jobDef : JobDef) (item : Value) : CreateJobParams where
  jobId := uuid
  jobName := state.jobKind ++ "-" ++ itemIdOf item
  jobKind := state.jobKind
  vars := Handler.jobInput outside jobDef state.projectRoot item
  runbookHash := state.runbookHash
  runbookJson := none
  runbook
  ns := state.ns
  cronName := none

/-- The worker runs, and its runbook is known and defines the job. -/
structure Dispatches (outside : Outside) (workerName : String) (turn : Runtime)
    (state : WorkerState) (runbook : Runbook) (jobDef : JobDef) (looked : Runtime) : Prop where
  found : turn.workerStates[workerName]? = some state
  running : state.status ≠ .stopped
  readable : Handler.cachedRunbook outside state.runbookHash turn.afterReading = (.ok runbook, looked)
  defined : runbook.getJob state.jobKind = some jobDef

def CanDispatch (outside : Outside) (workerName : String) (item : Value) (turn : Runtime) : Prop :=
  ∃ state runbook jobDef looked, Dispatches outside workerName turn state runbook jobDef looked ∧
    CanCreate outside (dispatchParams outside state (turn.readings 0).uuid runbook jobDef item)
      looked

def SteadyDispatch (outside : Outside) (workerName : String) (item : Value) (turn : Runtime) :
    Prop :=
  ∀ state runbook jobDef looked, Dispatches outside workerName turn state runbook jobDef looked →
    ∀ prepared ready,
      Handler.prepareJob outside
        (dispatchParams outside state (turn.readings 0).uuid runbook jobDef item) looked =
          (.ok prepared, ready) →
      CanStart runbook prepared.jobDef prepared.effects ready (1 + notifying prepared.jobDef)

def createAndTrack (outside : Outside) (workerName itemId ns : String) (params : CreateJobParams) :
    Handler (List Event) := do
  let created ← Handler.createAndStartJob outside params
  Handler.updateWorkerState workerName (·.track params.jobId itemId)
  let dispatched ← Handler.executeAll outside
    [.emit (.workerItemDispatched workerName itemId params.jobId ns)]
  pure (created ++ dispatched)

section Dispatch

variable {outside : Outside} {workerName : String} {item : Value} {turn : Runtime}

theorem jobEnded_congr {id : JobId} {terminal : Bool} {before after : Runtime}
    (steps : (after.world.state.jobs[id]?).map (·.step) =
      (before.world.state.jobs[id]?).map (·.step)) :
    JobEnded id terminal after ↔ JobEnded id terminal before := by
  have read : ∀ runtime : Runtime, JobEnded id terminal runtime ↔
      ((runtime.world.state.jobs[id]?).map (·.step)).map isTerminalStep = some terminal := by
    intro runtime
    rw [Option.map_map, Option.map_eq_some_iff]
    rfl
  rw [read, read, steps]

/-- What happens to a job that no worker has does not concern the items. -/
theorem working_elsewhere {id : JobId} {before after : Runtime} (workerName itemId : String)
    (untracked : Untracked id before.workerStates) (elsewhere : Elsewhere id before after) :
    Working workerName itemId after ↔ Working workerName itemId before := by
  unfold Working
  rw [elsewhere.workers]
  constructor
  · rintro ⟨state, other, found, mapped, working⟩
    refine ⟨state, other, found, mapped, (jobEnded_congr (elsewhere.jobs other ?_)).mp working⟩
    rintro rfl
    rw [(untracked workerName state found).2] at mapped
    cases mapped
  · rintro ⟨state, other, found, mapped, working⟩
    refine ⟨state, other, found, mapped, (jobEnded_congr (elsewhere.jobs other ?_)).mpr working⟩
    rintro rfl
    rw [(untracked workerName state found).2] at mapped
    cases mapped

def Runtime.tracking (order : WalkOrder) (workerName itemId ns : String) (id : JobId)
    (runtime : Runtime) : Runtime :=
  { runtime with workerStates := runtime.workerStates.modify workerName (·.track id itemId)
    }.emitting order (.workerItemDispatched workerName itemId id ns)

/-- A new job that is tracked counts for its item, as long as it has not ended. -/
theorem working_tracking {id : JobId} {runtime : Runtime} {state : WorkerState}
    (order : WalkOrder) (itemId ns other : String)
    (found : runtime.workerStates[workerName]? = some state)
    (untracked : Untracked id runtime.workerStates) :
    Working workerName other (runtime.tracking order workerName itemId ns id) ↔
      Working workerName other runtime ∨ (itemId = other ∧ JobEnded id false runtime) := by
  have tracked : (runtime.tracking order workerName itemId ns id).workerStates[workerName]? =
      some (state.track id itemId) := by
    change (runtime.workerStates.modify workerName (·.track id itemId))[workerName]? = _
    rw [Table.lookup_modify, if_pos rfl, found, Option.map_some]
  have mapped : ∀ job : JobId, (state.track id itemId).itemJobMap[job]? =
      if id = job then some itemId else state.itemJobMap[job]? := fun job =>
    Table.lookup_insert state.itemJobMap id job itemId
  constructor
  · rintro ⟨after, job, present, maps, working⟩
    rw [tracked] at present
    cases present
    rw [mapped] at maps
    rcases Decidable.em (id = job) with rfl | differs
    · rw [if_pos rfl] at maps
      exact .inr ⟨Option.some.inj maps, working⟩
    · rw [if_neg differs] at maps
      exact .inl ⟨state, job, found, maps, working⟩
  · rintro (⟨before, job, present, maps, working⟩ | ⟨rfl, working⟩)
    · rw [found] at present
      cases present
      refine ⟨_, job, tracked, ?_, working⟩
      rw [mapped, if_neg]
      · exact maps
      · rintro rfl
        rw [(untracked workerName state found).2] at maps
        cases maps
    · refine ⟨_, id, tracked, ?_, working⟩
      rw [mapped, if_pos rfl]

/-- Other jobs remain unknown to the workers. -/
theorem untracked_tracking {id other : JobId} {runtime : Runtime} (order : WalkOrder)
    (itemId ns : String) (differs : other ≠ id) (untracked : Untracked other runtime.workerStates) :
    Untracked other (runtime.tracking order workerName itemId ns id).workerStates := by
  intro name state found
  change (runtime.workerStates.modify workerName (·.track id itemId))[name]? = some state at found
  rw [Table.lookup_modify] at found
  split at found
  · obtain ⟨before, present, rfl⟩ := Option.map_eq_some_iff.mp found
    obtain ⟨inactive, unmapped⟩ := untracked name before present
    constructor
    · rw [Table.contains_eq_isSome] at inactive ⊢
      change ((before.activeJobs.insert id ())[other]?).isSome = false
      rw [Table.lookup_insert, if_neg (Ne.symm differs)]
      exact inactive
    · change (before.itemJobMap.insert id itemId)[other]? = none
      rw [Table.lookup_insert, if_neg (Ne.symm differs)]
      exact unmapped
  · exact untracked name state found

/-- The dispatch of an item leaves the other items alone. -/
structure OneItem (workerName itemId : String) (before after : Runtime) : Prop where
  queueItems : after.world.state.queueItems = before.world.state.queueItems
  fresh : FreshIds after
  others : ∀ other, other ≠ itemId →
    (Working workerName other after ↔ Working workerName other before)

theorem working_congr {before after : Runtime} (state : after.world.state = before.world.state)
    (workers : after.workerStates = before.workerStates) (workerName itemId : String) :
    Working workerName itemId after ↔ Working workerName itemId before := by
  unfold Working JobEnded
  rw [state, workers]

theorem OneItem.of_aside {before after : Runtime} (aside : Aside outside before after)
    (fresh : FreshIds before) (workerName itemId : String) :
    OneItem workerName itemId before after where
  queueItems := congrArg (·.queueItems) aside.state
  fresh := by
    obtain ⟨read, readings⟩ := aside.readings
    exact fresh.later readings aside.state aside.workers
  others := fun other _ => working_congr aside.state aside.workers workerName other

/-- The job of the item is created, and tracked if that returns. -/
theorem createAndTrack_ends {state : WorkerState} {params : CreateJobParams} {start : Runtime}
    (itemId : String) (fresh : FreshIds turn) (aside : Aside outside turn start)
    (shifted : ∃ read, ∀ n, start.readings n = turn.readings (n + (read + 1)))
    (found : turn.workerStates[workerName]? = some state)
    (newId : params.jobId = (turn.readings 0).uuid) (noJson : params.runbookJson = none)
    (known : start.runbookAt outside params.runbookHash = some params.runbook) :
    let program := createAndTrack outside workerName itemId state.ns params
    OneItem workerName itemId turn (program start).2 ∧
      (Working workerName itemId (program start).2 ↔
        Working workerName itemId turn ∨ CanCreate outside params start) := by
  have untracked : Untracked params.jobId start.workerStates := by
    rw [newId, aside.workers]
    exact fresh.workers 0
  have free : start.world.state.getJob params.jobId = none := by
    rw [newId, aside.state]
    exact fresh.free 0
  obtain ⟨succeeds, stops, elsewhere⟩ := createAndStartJob_ends free noJson known untracked
  have stays : ∀ other, Working workerName other
      (Handler.createAndStartJob outside params start).2 ↔ Working workerName other turn :=
    fun other => (working_elsewhere workerName other untracked elsewhere).trans
      (working_congr aside.state aside.workers workerName other)
  have isNew : ∀ after : Runtime, (∀ n, after.readings n =
        (Handler.createAndStartJob outside params start).2.readings n) →
      after.world.state.jobs =
        (Handler.createAndStartJob outside params start).2.world.state.jobs →
      (∀ id, id ≠ (turn.readings 0).uuid → Untracked id turn.workerStates →
        Untracked id after.workerStates) → FreshIds after := by
    intro after readings jobs workers
    obtain ⟨first, early⟩ := shifted
    obtain ⟨second, late⟩ := elsewhere.readings
    refine @FreshIds.used turn after fresh (second + first) ?_ ?_ workers
    · intro n
      rw [readings, late, early, Nat.add_assoc, Nat.add_assoc]
    · intro other differs
      rw [jobs, elsewhere.jobs other (newId ▸ differs), aside.state]
  intro program
  rcases ran : Handler.createAndStartJob outside params start with ⟨result, middle⟩
  rw [ran] at elsewhere stays isNew
  have queueItems := elsewhere.queueItems.trans (congrArg (·.queueItems) aside.state)
  have sameWorkers := elsewhere.workers.trans aside.workers
  cases result with
  | error error =>
      have failed : program start = (.error error, middle) := Program.bind_error ran
      rw [failed]
      refine ⟨⟨queueItems, isNew middle (fun _ => rfl) rfl ?_, fun other _ => stays other⟩, ?_⟩
      · intro id _ unknown
        rw [sameWorkers]
        exact unknown
      · refine (stays itemId).trans ⟨.inl, ?_⟩
        rintro (working | able)
        · exact working
        · exact absurd ⟨error, middle, ran⟩ (succeeds able).not_fails
  | ok created =>
      have returned : (program start).2 =
          middle.tracking outside.order workerName itemId state.ns params.jobId := by
        have goesOn : program start = _ := Program.bind_ok ran
        rw [goesOn]
        rfl
      have foundThen : middle.workerStates[workerName]? = some state := by
        rw [sameWorkers]
        exact found
      have untrackedThen : Untracked params.jobId middle.workerStates := by
        rw [elsewhere.workers]
        exact untracked
      have tracks := fun other =>
        working_tracking outside.order itemId state.ns other foundThen untrackedThen
      rw [returned]
      refine ⟨⟨queueItems, isNew _ (fun _ => rfl) rfl ?_, fun other differs => ?_⟩, ?_⟩
      · intro id differs unknown
        refine untracked_tracking outside.order itemId state.ns (newId ▸ differs) ?_
        rw [sameWorkers]
        exact unknown
      · rw [tracks, stays]
        exact ⟨fun working => working.resolve_right fun new => differs new.1.symm, .inl⟩
      · rw [tracks, stays]
        refine or_congr_right ⟨?_, ?_⟩
        · rintro ⟨_, working⟩
          by_contra unable
          rcases stops unable with ⟨error, after, fails⟩ | ⟨_, after, stopped, ended⟩
          · rw [ran] at fails
            cases fails
          · rw [ran] at stopped
            cases stopped
            obtain ⟨job, present, live⟩ := working
            obtain ⟨same, presentToo, terminal⟩ := ended
            rw [present] at presentToo
            cases presentToo
            rw [live] at terminal
            cases terminal
        · intro able
          obtain ⟨_, after, done, working⟩ := succeeds able
          rw [ran] at done
          cases done
          exact ⟨rfl, working⟩

/-- A dispatch does nothing but read, or it creates a job. -/
theorem dispatchQueueItem_run (workerName : String) (item : Value) (turn : Runtime) :
    (Aside outside turn (Handler.dispatchQueueItem outside workerName item turn).2 ∧
      ∀ state runbook jobDef looked,
        ¬Dispatches outside workerName turn state runbook jobDef looked) ∨
    ∃ state runbook jobDef looked, Dispatches outside workerName turn state runbook jobDef looked ∧
      Aside outside turn looked ∧ (∀ n, looked.readings n = turn.readings (n + 1)) ∧
      looked.runbookAt outside state.runbookHash = some runbook ∧
      Handler.dispatchQueueItem outside workerName item turn =
        createAndTrack outside workerName (itemIdOf item) state.ns
          (dispatchParams outside state (turn.readings 0).uuid runbook jobDef item) looked := by
  have opened : Handler.dispatchQueueItem outside workerName item turn = _ :=
    Program.run_bind _ _ turn
  simp only [Handler.workerState, Program.run_read] at opened
  cases found : turn.workerStates[workerName]? with
  | none =>
      rw [found] at opened
      refine .inl ⟨opened ▸ (closed_aside outside).refl turn, ?_⟩
      rintro state _ _ _ ⟨present, _⟩
      rw [found] at present
      cases present
  | some state =>
      rw [found] at opened
      dsimp only at opened
      split at opened
      · rename_i stopped
        refine .inl ⟨opened ▸ (closed_aside outside).refl turn, ?_⟩
        rintro same _ _ _ ⟨present, running, _⟩
        rw [found] at present
        cases present
        exact running stopped
      · rename_i running
        have aside := nextReading_aside outside turn
        have opened := opened.trans (Program.bind_ok
          (show Handler.nextReading turn = (.ok (turn.readings 0), turn.afterReading) from rfl))
        cases known : turn.afterReading.runbookAt outside state.runbookHash with
        | none =>
            obtain ⟨error, unreadable⟩ := Handler.cachedRunbook_unknown outside known
            have stopped := opened.trans (Program.bind_error unreadable)
            refine .inl ⟨stopped ▸ aside, ?_⟩
            rintro same runbook _ looked ⟨present, _, readable, _⟩
            rw [found] at present
            cases present
            rw [unreadable] at readable
            cases readable
        | some runbook =>
            obtain ⟨runbookCache, readable, informed, cached⟩ :=
              Handler.cachedRunbook_known outside known
            let looked : Runtime := { turn.afterReading with runbookCache }
            have aside := (closed_aside outside).trans aside informed
            have knownThen : looked.runbookAt outside state.runbookHash = some runbook := by
              unfold Runtime.runbookAt
              rw [cached]
            have goesOn := opened.trans (Program.bind_ok readable)
            cases defined : runbook.getJob state.jobKind with
            | none =>
                rw [defined] at goesOn
                have stopped : (Handler.dispatchQueueItem outside workerName item turn).2 = looked :=
                  congrArg Prod.snd goesOn
                refine .inl ⟨stopped ▸ aside, ?_⟩
                rintro same other jobDef _ ⟨present, _, read, has⟩
                rw [found] at present
                cases present
                rw [readable] at read
                cases read
                rw [defined] at has
                cases has
            | some jobDef =>
                rw [defined] at goesOn
                exact .inr ⟨state, runbook, jobDef, looked, ⟨found, running, readable, defined⟩,
                  aside, fun _ => rfl, knownThen, goesOn.trans (Program.bind_ok rfl)⟩

theorem Dispatches.unique {state state' : WorkerState} {runbook runbook' : Runbook}
    {jobDef jobDef' : JobDef} {looked looked' : Runtime}
    (first : Dispatches outside workerName turn state runbook jobDef looked)
    (second : Dispatches outside workerName turn state' runbook' jobDef' looked') :
    state = state' ∧ runbook = runbook' ∧ jobDef = jobDef' ∧ looked = looked' := by
  obtain ⟨found, _, readable, defined⟩ := first
  obtain ⟨found', _, readable', defined'⟩ := second
  rw [found] at found'
  cases found'
  rw [readable] at readable'
  cases readable'
  rw [defined] at defined'
  cases defined'
  exact ⟨rfl, rfl, rfl, rfl⟩

/-- The item has a job at work after its dispatch exactly if it had one before, or
its job can be created. -/
theorem dispatchQueueItem_ends (fresh : FreshIds turn) :
    let after := (Handler.dispatchQueueItem outside workerName item turn).2
    OneItem workerName (itemIdOf item) turn after ∧
      (Working workerName (itemIdOf item) after ↔
        Working workerName (itemIdOf item) turn ∨ CanDispatch outside workerName item turn) := by
  rcases @dispatchQueueItem_run outside workerName item turn with ⟨aside, never⟩ |
    ⟨state, runbook, jobDef, looked, dispatches, aside, shifted, known, ran⟩
  · refine ⟨.of_aside aside fresh _ _, ?_⟩
    rw [working_congr aside.state aside.workers]
    refine ⟨.inl, fun working => working.resolve_right ?_⟩
    rintro ⟨state, runbook, jobDef, looked, dispatches, _⟩
    exact never state runbook jobDef looked dispatches
  · rw [ran]
    obtain ⟨oneItem, works⟩ := @createAndTrack_ends outside workerName turn state
      (dispatchParams outside state (turn.readings 0).uuid runbook jobDef item) looked
      (itemIdOf item) fresh aside ⟨0, shifted⟩ dispatches.found rfl rfl known
    refine ⟨oneItem, works.trans (or_congr_right ⟨?_, ?_⟩)⟩
    · intro able
      exact ⟨state, runbook, jobDef, looked, dispatches, able⟩
    · rintro ⟨_, _, _, _, again, able⟩
      obtain ⟨rfl, rfl, rfl, rfl⟩ := dispatches.unique again
      exact able

/-- A dispatch that fails only before the job is recorded does nothing but read, or it
creates and tracks a job. -/
theorem dispatchQueueItem_steady (fresh : FreshIds turn)
    (steady : SteadyDispatch outside workerName item turn) :
    let after := (Handler.dispatchQueueItem outside workerName item turn).2
    Aside outside turn after ∨
    ∃ state middle, turn.workerStates[workerName]? = some state ∧ state.status ≠ .stopped ∧
      Known (turn.readings 0).uuid middle ∧ Elsewhere (turn.readings 0).uuid turn middle ∧
      (∃ read, ∀ n, middle.readings n = turn.readings (n + (read + 1))) ∧
      after = middle.tracking outside.order workerName (itemIdOf item) state.ns
        (turn.readings 0).uuid := by
  rcases @dispatchQueueItem_run outside workerName item turn with ⟨aside, never⟩ |
    ⟨state, runbook, jobDef, looked, dispatches, aside, shifted, known, ran⟩
  · exact .inl aside
  · rw [ran]
    let params := dispatchParams outside state (turn.readings 0).uuid runbook jobDef item
    have free : looked.world.state.getJob params.jobId = none := by
      rw [aside.state]
      exact fresh.free 0
    have untracked : Untracked params.jobId looked.workerStates := by
      rw [aside.workers]
      exact fresh.workers 0
    rcases @createAndStartJob_steady outside params looked free rfl known untracked
      (steady state runbook jobDef looked dispatches) with
      ⟨error, after, fails, unread⟩ | ⟨events, middle, created, present, elsewhere⟩
    · left
      have stopped : createAndTrack outside workerName (itemIdOf item) state.ns params looked =
          (.error error, after) := Program.bind_error fails
      rw [stopped]
      exact (closed_aside outside).trans aside unread
    · right
      refine ⟨state, middle, dispatches.found, dispatches.running, present,
        (Elsewhere.of_aside aside _).trans elsewhere, ?_, ?_⟩
      · obtain ⟨read, late⟩ := elsewhere.readings
        refine ⟨read, fun n => ?_⟩
        rw [late, shifted, Nat.add_assoc]
      · have goesOn : createAndTrack outside workerName (itemIdOf item) state.ns params looked = _ :=
          Program.bind_ok created
        rw [goesOn]
        rfl

/-- A dispatch whose job can be created ends with the job at work and tracked. -/
theorem dispatchQueueItem_creates (fresh : FreshIds turn)
    (able : CanDispatch outside workerName item turn) :
    let id := (turn.readings 0).uuid
    ∃ state middle, turn.workerStates[workerName]? = some state ∧ JobEnded id false middle ∧
      Elsewhere id turn middle ∧ (∃ read, ∀ n, middle.readings n = turn.readings (n + (read + 1))) ∧
      (Handler.dispatchQueueItem outside workerName item turn).2 =
        middle.tracking outside.order workerName (itemIdOf item) state.ns id := by
  intro id
  obtain ⟨state, runbook, jobDef, looked, dispatches, creates⟩ := able
  rcases @dispatchQueueItem_run outside workerName item turn with ⟨_, never⟩ |
    ⟨_, _, _, _, again, aside, shifted, known, ran⟩
  · exact absurd dispatches (never state runbook jobDef looked)
  · obtain ⟨rfl, rfl, rfl, rfl⟩ := dispatches.unique again
    let params := dispatchParams outside state id runbook jobDef item
    have free : looked.world.state.getJob params.jobId = none := by
      rw [aside.state]
      exact fresh.free 0
    have untracked : Untracked params.jobId looked.workerStates := by
      rw [aside.workers]
      exact fresh.workers 0
    obtain ⟨succeeds, _, elsewhere⟩ := @createAndStartJob_ends outside params looked free rfl known
      untracked
    obtain ⟨events, middle, created, works⟩ := succeeds creates
    rw [created] at elsewhere
    obtain ⟨read, late⟩ := elsewhere.readings
    refine ⟨state, middle, dispatches.found, works, (Elsewhere.of_aside aside _).trans elsewhere,
      ⟨read, fun n => ?_⟩, ?_⟩
    · rw [late, shifted, Nat.add_assoc]
    · rw [ran]
      have goesOn : createAndTrack outside workerName (itemIdOf item) state.ns params looked = _ :=
        Program.bind_ok created
      rw [goesOn]
      rfl

end Dispatch

/-! ## The turns of a poll -/

def Runtime.itemStatus (key itemId : String) (runtime : Runtime) : Option QueueItemStatus :=
  (runtime.world.state.queueItem key itemId).map (·.status)

def dispatchTurns (outside : Outside) (workerName queueName ns : String) :
    Nat → List Value → Runtime → List (Value × Runtime)
  | _, [], _ => []
  | 0, _ :: _, _ => []
  | slots + 1, item :: rest, runtime =>
      if runtime.itemStatus (scopedName ns queueName) (itemIdOf item) = some .pending then
        let taken := runtime.emitting outside.order
          (.queueTaken queueName (itemIdOf item) workerName ns)
        let outcome := Handler.dispatchQueueItem outside workerName item taken
        (item, taken) ::
          match outcome.1 with
          | .ok _ => dispatchTurns outside workerName queueName ns slots rest outcome.2
          | .error _ => []
      else dispatchTurns outside workerName queueName ns (slots + 1) rest runtime

section Turns

variable {outside : Outside} {workerName queueName ns : String}

/-- What becomes of one item while items are dispatched: nothing if it has no turn;
else it is taken, and has a job at work exactly if its turn leads to that. -/
structure ItemEnds (outside : Outside) (workerName key itemId : String)
    (turns : List (Value × Runtime)) (before after : Runtime) : Prop where
  noTurn : (∀ turn ∈ turns, itemIdOf turn.1 ≠ itemId) →
    after.itemStatus key itemId = before.itemStatus key itemId ∧
      (Working workerName itemId after ↔ Working workerName itemId before)
  turn : ∀ turn ∈ turns, itemIdOf turn.1 = itemId →
    before.itemStatus key itemId = some .pending ∧
      after.itemStatus key itemId = some .active ∧
      (Working workerName itemId after ↔
        Working workerName itemId turn.2 ∨ CanDispatch outside workerName turn.1 turn.2)

theorem itemStatus_eq (key itemId : String) (runtime : Runtime) :
    runtime.itemStatus key itemId =
      (runtime.world.state.itemCursor key itemId).map (·.status) := by
  unfold Runtime.itemStatus MaterializedState.itemCursor
  rw [Option.map_map]
  rfl

/-- An event that leaves no mark on an item does not change its status. -/
theorem itemStatus_unmarked {key itemId : String} {event : Event}
    (unmarked : event.itemMark key itemId = none) (order : WalkOrder) (runtime : Runtime) :
    (runtime.emitting order event).itemStatus key itemId = runtime.itemStatus key itemId := by
  have kept := MaterializedState.itemCursor_applyEvent order (runtime.world.clocks 0) key itemId
    runtime.world.state event
  rw [unmarked] at kept
  rw [itemStatus_eq, itemStatus_eq]
  exact congrArg (Option.map _) kept

/-- An item that is taken is active, and the others stay as they are. -/
theorem itemStatus_taken (order : WalkOrder) (taken itemId : String) (runtime : Runtime) :
    (runtime.emitting order (.queueTaken queueName taken workerName ns)).itemStatus
        (scopedName ns queueName) itemId =
      if taken = itemId then (runtime.itemStatus (scopedName ns queueName) itemId).map fun _ => .active
      else runtime.itemStatus (scopedName ns queueName) itemId := by
  have moved := MaterializedState.itemCursor_applyEvent order (runtime.world.clocks 0)
    (scopedName ns queueName) itemId runtime.world.state
    (.queueTaken queueName taken workerName ns)
  rw [itemStatus_eq, itemStatus_eq]
  change ((runtime.world.state.applyEvent order (runtime.world.clocks 0) _).itemCursor _ _).map _ = _
  rw [moved, Event.itemMark]
  dsimp only [Event.itemMark?, Option.bind_some]
  rcases Decidable.em (taken = itemId) with rfl | differs
  · rw [if_pos rfl, if_pos rfl]
    dsimp only [ItemCursor.apply]
    rw [Option.map_map, Option.map_map]
    rfl
  · rw [if_neg differs, if_neg]
    intro same
    exact differs (Prod.mk.inj same).2

theorem freshIds_taken {runtime : Runtime} (fresh : FreshIds runtime) (order : WalkOrder)
    (itemId : String) :
    FreshIds (runtime.emitting order (.queueTaken queueName itemId workerName ns)) where
  apart := fresh.apart
  jobs := fresh.jobs
  workers := fresh.workers

theorem itemStatus_eq_pending {key itemId : String} {runtime : Runtime} :
    (runtime.world.state.queueItem key itemId).any (·.status == .pending) = true ↔
      runtime.itemStatus key itemId = some .pending := by
  unfold Runtime.itemStatus
  rw [Option.any_eq_true, Option.map_eq_some_iff]
  simp only [beq_iff_eq]

theorem dispatchItems_skip {item : Value} {runtime : Runtime}
    (waits : ¬runtime.itemStatus (scopedName ns queueName) (itemIdOf item) = some .pending)
    (slots : Nat) (rest : List Value) :
    Handler.dispatchItems outside workerName queueName ns (slots + 1) (item :: rest) runtime =
      Handler.dispatchItems outside workerName queueName ns (slots + 1) rest runtime := by
  rw [← itemStatus_eq_pending] at waits
  rw [Handler.dispatchItems, Program.run_bind]
  simp only [Handler.readState, Program.run_read]
  rw [if_neg waits]

/-- An item that waits is taken and dispatched; an error ends the dispatch. -/
theorem dispatchItems_take {item : Value} {runtime : Runtime}
    (waits : runtime.itemStatus (scopedName ns queueName) (itemIdOf item) = some .pending)
    (slots : Nat) (rest : List Value) :
    (Handler.dispatchItems outside workerName queueName ns (slots + 1) (item :: rest) runtime).2 =
      match Handler.dispatchQueueItem outside workerName item (runtime.emitting outside.order
        (.queueTaken queueName (itemIdOf item) workerName ns)) with
      | (.ok _, after) =>
          (Handler.dispatchItems outside workerName queueName ns slots rest after).2
      | (.error _, after) => after := by
  rw [← itemStatus_eq_pending] at waits
  rw [Handler.dispatchItems, Program.run_bind]
  simp only [Handler.readState, Program.run_read]
  rw [if_pos waits, Program.run_bind, Handler.executeAll_emit]
  dsimp only
  rw [Program.run_bind]
  cases Handler.dispatchQueueItem outside workerName item (runtime.emitting outside.order
      (.queueTaken queueName (itemIdOf item) workerName ns)) with
  | mk result after =>
      cases result with
      | error error => rfl
      | ok dispatched =>
          exact Program.bind_pure_state _ _ after

/-- After the first turn, an item ends as the later turns decide. -/
theorem ItemEnds.cons {itemId : String} {item : Value} {runtime last : Runtime}
    {turns : List (Value × Runtime)}
    (waits : runtime.itemStatus (scopedName ns queueName) (itemIdOf item) = some .pending)
    (fresh : FreshIds runtime) :
    let taken := runtime.emitting outside.order
      (.queueTaken queueName (itemIdOf item) workerName ns)
    let after := (Handler.dispatchQueueItem outside workerName item taken).2
    ItemEnds outside workerName (scopedName ns queueName) itemId turns after last →
    ItemEnds outside workerName (scopedName ns queueName) itemId ((item, taken) :: turns) runtime
      last := by
  intro taken after later
  obtain ⟨oneItem, works⟩ := dispatchQueueItem_ends
    (@freshIds_taken workerName queueName ns runtime fresh outside.order (itemIdOf item))
  have status : after.itemStatus (scopedName ns queueName) itemId =
      if itemIdOf item = itemId then
        (runtime.itemStatus (scopedName ns queueName) itemId).map fun _ => .active
      else runtime.itemStatus (scopedName ns queueName) itemId := by
    rw [← @itemStatus_taken workerName]
    unfold Runtime.itemStatus MaterializedState.queueItem
    rw [oneItem.queueItems]
  rcases Decidable.em (itemIdOf item = itemId) with rfl | differs
  · rw [if_pos rfl, waits, Option.map_some] at status
    have noTurn : ∀ turn ∈ turns, itemIdOf turn.1 ≠ itemIdOf item := by
      intro turn member same
      have waiting := (later.turn turn member same).1
      rw [status] at waiting
      cases waiting
    obtain ⟨sameStatus, sameJobs⟩ := later.noTurn noTurn
    constructor
    · intro none
      exact absurd rfl (none _ List.mem_cons_self)
    · intro turn member same
      rcases List.mem_cons.mp member with rfl | inRest
      · exact ⟨waits, sameStatus.trans status, sameJobs.trans works⟩
      · exact absurd same (noTurn turn inRest)
  · rw [if_neg differs] at status
    have others : Working workerName itemId after ↔ Working workerName itemId runtime :=
      oneItem.others itemId (Ne.symm differs)
    constructor
    · intro noTurn
      obtain ⟨sameStatus, sameJobs⟩ := later.noTurn fun turn member =>
        noTurn turn (List.mem_cons_of_mem _ member)
      exact ⟨sameStatus.trans status, sameJobs.trans others⟩
    · intro turn member same
      rcases List.mem_cons.mp member with rfl | inRest
      · exact absurd same differs
      · obtain ⟨waiting, active, ends⟩ := later.turn turn inRest same
        exact ⟨status.symm.trans waiting, active, ends⟩

/-- Every item ends as its turn decides. -/
theorem dispatchItems_ends (itemId : String) (items : List Value) :
    ∀ (slots : Nat) (runtime : Runtime), FreshIds runtime →
      ItemEnds outside workerName (scopedName ns queueName) itemId
        (dispatchTurns outside workerName queueName ns slots items runtime) runtime
        (Handler.dispatchItems outside workerName queueName ns slots items runtime).2 := by
  have unchanged : ∀ runtime : Runtime, ItemEnds outside workerName (scopedName ns queueName) itemId
      [] runtime runtime := fun runtime =>
    ⟨fun _ => ⟨rfl, Iff.rfl⟩, fun _ member => nomatch member⟩
  induction items with
  | nil =>
      intro slots runtime _
      cases slots <;> exact unchanged runtime
  | cons item rest ih =>
      intro slots runtime fresh
      cases slots with
      | zero => exact unchanged runtime
      | succ slots =>
          rw [dispatchTurns]
          rcases Decidable.em (runtime.itemStatus (scopedName ns queueName) (itemIdOf item) =
            some .pending) with waits | busy
          · rw [if_pos waits, dispatchItems_take waits]
            refine ItemEnds.cons waits fresh ?_
            have oneItem := (@dispatchQueueItem_ends outside workerName item _
              (@freshIds_taken workerName queueName ns runtime fresh outside.order
                (itemIdOf item))).1
            rcases ran : Handler.dispatchQueueItem outside workerName item
              (runtime.emitting outside.order
                (.queueTaken queueName (itemIdOf item) workerName ns)) with ⟨result, after⟩
            rw [ran] at oneItem
            cases result with
            | error error => exact unchanged after
            | ok dispatched => exact ih slots after oneItem.fresh
          · rw [if_neg busy, dispatchItems_skip busy]
            exact ih (slots + 1) runtime fresh

end Turns

end OddJobs
