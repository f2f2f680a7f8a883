import OddJobs.Daemon.TakenItems
import OddJobs.Daemon.WorkerSlots
import OddJobs.Engine.Endings

/-!
# Runs of a worker on an external queue

The worker starts, stops, wakes and polls; its take commands end in any order, and its
jobs end.
-/

namespace OddJobs

open Library

/-! ## Starts -/

def MaterializedState.itemOfJob (state : MaterializedState) (id : JobId) : Option String :=
  (state.jobs[id]?).bind fun job => job.vars["item.id"]?

def MaterializedState.jobsOfWorker (state : MaterializedState) (workerName ns : String) :
    List JobId :=
  ((state.workers[scopedName ns workerName]?).map (·.activeJobIds)).getD []

/-- The jobs that the record of the worker lists are for different items, and jobs at
work are recorded to be for the items that they were created for. -/
structure Remembers (workerName ns : String) (jobs : List (JobId × String)) (runtime : Runtime) :
    Prop where
  apart : ∀ left ∈ runtime.world.state.jobsOfWorker workerName ns,
    ∀ right ∈ runtime.world.state.jobsOfWorker workerName ns, ∀ item,
      runtime.world.state.itemOfJob left = some item →
      runtime.world.state.itemOfJob right = some item → left = right
  items : ∀ entry ∈ liveJobs jobs runtime, runtime.world.state.itemOfJob entry.1 = some entry.2

section Start

variable {outside : Outside} {workerName ns : String} {concurrency : Nat}
  {takes : List (String × Value)} {jobs : List (JobId × String)} {before after runtime : Runtime}
  {workerDef : WorkerDef} {queueDef : QueueDef} (projectRoot : PathBuf) (runbookHash : String)

/-- A worker that starts has the jobs that its record lists. -/
theorem startedState_active (state : MaterializedState) (id : JobId) :
    (Handler.startedState state workerName projectRoot runbookHash ns workerDef
      queueDef).activeJobs.contains id = true ↔ id ∈ state.jobsOfWorker workerName ns := by
  refine (Table.contains_foldl_insert (state.jobsOfWorker workerName ns) (fun id : JobId => id) ()
    (∅ : HashSet) id).trans ?_
  rw [Std.ExtTreeMap.contains_empty]
  constructor
  · rintro (⟨_, member, rfl⟩ | impossible)
    · exact member
    · cases impossible
  · exact fun member => .inl ⟨id, member, rfl⟩

theorem startedState_itemJobMap (state : MaterializedState) (id : JobId) :
    (Handler.startedState state workerName projectRoot runbookHash ns workerDef
      queueDef).itemJobMap[id]? =
      if id ∈ state.jobsOfWorker workerName ns then state.itemOfJob id else none := by
  have filled := Table.lookup_foldl_insert state.itemOfJob (state.jobsOfWorker workerName ns)
    (∅ : HashMap String) id
  rw [Table.lookup_empty, Option.or_none] at filled
  refine Eq.trans ?_ filled
  refine congrArg (fun map : HashMap String => map[id]?) ?_
  refine congrArg (fun step => List.foldl step _ _) ?_
  funext items id
  dsimp only [MaterializedState.itemOfJob]
  cases (state.jobs[id]?).bind fun job => job.vars["item.id"]? with
  | none => rfl
  | some item => rfl

/-- The items of its jobs are in flight. -/
theorem startedState_inflight {state : MaterializedState} {id : JobId} {item : String}
    (external : queueDef.queueType = .external)
    (mapped : (Handler.startedState state workerName projectRoot runbookHash ns workerDef
      queueDef).itemJobMap[id]? = some item) :
    (Handler.startedState state workerName projectRoot runbookHash ns workerDef
      queueDef).inflightItems.contains item = true := by
  let started := Handler.startedState state workerName projectRoot runbookHash ns workerDef queueDef
  have inflight : started.inflightItems = started.itemJobMap.toList.foldl
      (fun items entry => items.insert entry.2 ()) ∅ := by
    unfold started Handler.startedState
    dsimp only
    rw [external]
  change started.inflightItems.contains item = true
  rw [inflight]
  refine (Table.contains_foldl_insert started.itemJobMap.toList (fun entry => entry.2) () _
    item).mpr (.inl ⟨(id, item), ?_, rfl⟩)
  exact Std.ExtTreeMap.mem_toList_iff_getElem?_eq_some.mpr mapped

/-- The jobs at work are among those that the worker has when it starts. -/
theorem Reservations.listed (kept : Reservations workerName ns concurrency takes jobs runtime) :
    ∀ entry ∈ liveJobs jobs runtime, entry.1 ∈ runtime.world.state.jobsOfWorker workerName ns := by
  intro entry member
  cases found : runtime.workerStates[workerName]? with
  | none =>
      rw [(kept.idle found).2] at member
      cases member
  | some state =>
      obtain ⟨_, record, recorded, lists⟩ := kept.worker state found
      unfold MaterializedState.jobsOfWorker
      rw [recorded]
      exact lists entry member

/-- What a worker has that starts while no take command is under way. -/
theorem startedState_holds (kept : Reservations workerName ns concurrency [] jobs runtime)
    (remembers : Remembers workerName ns jobs runtime)
    (sized : workerDef.concurrency = concurrency) (external : queueDef.queueType = .external) :
    Holds ns concurrency [] (liveJobs jobs runtime)
      (Handler.startedState runtime.world.state workerName projectRoot runbookHash ns workerDef
        queueDef) where
  namespaced := rfl
  inSlots := by
    refine ⟨sized, external, fun entry member => ?_, kept.few⟩
    exact (startedState_active projectRoot runbookHash _ _).mpr (kept.listed entry member)
  reserved := by
    intro _
    have mapped := @startedState_itemJobMap workerName ns workerDef queueDef projectRoot runbookHash
      runtime.world.state
    constructor
    · exact Nat.zero_le _
    · exact List.nodup_nil
    · intro take member
      cases member
    · intro id item
      exact startedState_inflight projectRoot runbookHash external
    · intro left right item
      rw [mapped, mapped]
      split
      · rename_i inLeft
        intro first
        split
        · rename_i inRight
          exact fun second => remembers.apart left inLeft right inRight item first second
        · exact fun impossible => nomatch impossible
      · exact fun impossible => nomatch impossible
    · intro entry member
      rw [mapped, if_pos (kept.listed entry member)]
      exact remembers.items entry member

/-- New ids are not among those that a worker has when it starts. -/
theorem startedState_untracked (newIds : NewIds runtime) (n : Nat) :
    let state := Handler.startedState runtime.world.state workerName projectRoot runbookHash ns
      workerDef queueDef
    state.activeJobs.contains (runtime.readings n).uuid = false ∧
      state.itemJobMap[(runtime.readings n).uuid]? = none := by
  intro state
  have unlisted : (runtime.readings n).uuid ∉ runtime.world.state.jobsOfWorker workerName ns := by
    unfold MaterializedState.jobsOfWorker
    cases recorded : runtime.world.state.workers[scopedName ns workerName]? with
    | none => exact List.not_mem_nil
    | some record => exact fun member => newIds.unlisted n ⟨_, record, recorded, member⟩
  constructor
  · rw [Bool.eq_false_iff]
    exact fun active => unlisted ((startedState_active projectRoot runbookHash _ _).mp active)
  · exact (startedState_itemJobMap projectRoot runbookHash _ _).trans (if_neg unlisted)

def Runtime.starting (projectRoot : PathBuf) (runbookHash workerName ns : String)
    (workerDef : WorkerDef) (queueDef : QueueDef) (runtime : Runtime) : Runtime :=
  let started := Handler.startedState runtime.world.state workerName projectRoot runbookHash ns
    workerDef queueDef
  { runtime with workerStates := runtime.workerStates.insert workerName started }

/-- A worker without jobs has nothing to reconcile. -/
theorem reconcileActiveJobs_idle
    (idle : ∀ state : WorkerState, runtime.workerStates[workerName]? = some state →
      state.activeJobs.keys = []) :
    Handler.reconcileActiveJobs outside workerName runtime = (.ok (), runtime) := by
  have active : ((runtime.workerStates[workerName]?).map (·.activeJobs.keys)).getD [] = [] := by
    cases found : runtime.workerStates[workerName]? with
    | none => rfl
    | some state => exact idle state found
  have walked : outside.order.walk ([] : List JobId) = [] :=
    List.perm_nil.mp (outside.order.perm [])
  unfold Handler.reconcileActiveJobs
  rw [Program.run_bind]
  simp only [Handler.workerState, Program.run_read]
  rw [active, walked]
  rfl

/-- So has a worker that starts for the first time. -/
theorem reconcileActiveJobs_first
    (noJobs : runtime.world.state.jobsOfWorker workerName ns = []) :
    let started := runtime.starting projectRoot runbookHash workerName ns workerDef queueDef
    Handler.reconcileActiveJobs outside workerName started = (.ok (), started) := by
  intro started
  refine reconcileActiveJobs_idle fun state present => ?_
  have found : started.workerStates[workerName]? = _ :=
    (Table.lookup_insert _ _ _ _).trans (if_pos rfl)
  rw [found] at present
  cases present
  refine List.eq_nil_iff_forall_not_mem.mpr fun id member => ?_
  have active := (startedState_active projectRoot runbookHash runtime.world.state id).mp
    (Std.ExtTreeMap.mem_keys.mp member)
  rw [noJobs] at active
  cases active

/-- A worker of the record starts while no take command is under way. -/
theorem Reservations.started (kept : Reservations workerName ns concurrency [] jobs runtime)
    (remembers : Remembers workerName ns jobs runtime)
    (recorded : (runtime.world.state.workers[scopedName ns workerName]?).isSome = true)
    (sized : workerDef.concurrency = concurrency) (external : queueDef.queueType = .external) :
    Reservations workerName ns concurrency [] jobs
      (runtime.starting projectRoot runbookHash workerName ns workerDef queueDef) := by
  obtain ⟨record, present⟩ := Option.isSome_iff_exists.mp recorded
  constructor
  · refine ⟨⟨kept.newIds.apart, kept.newIds.jobs, fun n name state found => ?_⟩,
      kept.newIds.unlisted⟩
    unfold Runtime.starting at found
    dsimp only at found
    rw [Table.lookup_insert] at found
    split at found
    · cases found
      exact startedState_untracked projectRoot runbookHash kept.newIds n
    · exact kept.newIds.workers n name state found
  · exact kept.known
  · exact kept.distinct
  · exact kept.items
  · exact kept.few
  · exact kept.named
  · intro absent
    unfold Runtime.starting at absent
    dsimp only at absent
    rw [Table.lookup_insert, if_pos rfl] at absent
    cases absent
  · intro state found
    unfold Runtime.starting at found
    dsimp only at found
    rw [Table.lookup_insert, if_pos rfl] at found
    cases found
    have holds := startedState_holds projectRoot runbookHash kept remembers sized external
    refine ⟨holds, record, present, fun entry member => ?_⟩
    have listed := kept.listed entry member
    unfold MaterializedState.jobsOfWorker at listed
    rw [present] at listed
    exact listed

/-- The runbook of a start defines the worker and its queue. -/
def Starts (outside : Outside) (workerName runbookHash : String) (runtime : Runtime)
    (workerDef : WorkerDef) (queueDef : QueueDef) : Prop :=
  ∃ runbook, runtime.runbookAt outside runbookHash = some runbook ∧
    runbook.getWorker workerName = some workerDef ∧
    runbook.getQueue workerDef.queue = some queueDef

/-- A start either fails for want of a definition and changes nothing, or goes on with
the started worker. -/
theorem handleWorkerStarted_run :
    let after :=
      (Handler.handleWorkerStarted outside workerName projectRoot runbookHash ns runtime).2
    (Quiet runtime after ∧
      ∀ workerDef queueDef, ¬Starts outside workerName runbookHash runtime workerDef queueDef) ∨
    ∃ workerDef queueDef looked,
      Starts outside workerName runbookHash runtime workerDef queueDef ∧ Quiet runtime looked ∧
      looked.world = runtime.world ∧
      (queueDef.queueType = .external →
        let started := looked.starting projectRoot runbookHash workerName ns workerDef queueDef
        Quiet (Handler.reconcileActiveJobs outside workerName started).2 after) := by
  intro after
  cases known : runtime.runbookAt outside runbookHash with
  | none =>
      obtain ⟨error, unreadable⟩ := Handler.cachedRunbook_unknown outside known
      have stopped : after = runtime := congrArg Prod.snd (Program.bind_error unreadable)
      refine .inl ⟨stopped ▸ .refl runtime, ?_⟩
      rintro workerDef queueDef ⟨runbook, present, _⟩
      rw [known] at present
      cases present
  | some runbook =>
      obtain ⟨runbookCache, readable, aside, _⟩ := Handler.cachedRunbook_known outside known
      let looked : Runtime := { runtime with runbookCache }
      have goesOn : Handler.handleWorkerStarted outside workerName projectRoot runbookHash ns
        runtime = _ := Program.bind_ok readable
      cases worker : runbook.getWorker workerName with
      | none =>
          rw [worker] at goesOn
          have stopped : after = looked := congrArg Prod.snd goesOn
          refine .inl ⟨stopped ▸ .of_aside aside, ?_⟩
          rintro workerDef queueDef ⟨other, present, defined, _⟩
          rw [known] at present
          cases present
          rw [worker] at defined
          cases defined
      | some workerDef =>
          rw [worker] at goesOn
          have goesOn := goesOn.trans (Program.bind_ok rfl)
          cases queue : runbook.getQueue workerDef.queue with
          | none =>
              rw [queue] at goesOn
              have stopped : after = looked := congrArg Prod.snd goesOn
              refine .inl ⟨stopped ▸ .of_aside aside, ?_⟩
              rintro other queueDef ⟨_, present, defined, has⟩
              rw [known] at present
              cases present
              rw [worker] at defined
              cases defined
              rw [queue] at has
              cases has
          | some queueDef =>
              rw [queue] at goesOn
              have goesOn := (goesOn.trans (Program.bind_ok rfl)).trans (Program.bind_ok rfl)
              have goesOn := goesOn.trans (Program.bind_ok rfl)
              refine .inr ⟨workerDef, queueDef, looked, ⟨runbook, known, worker, queue⟩,
                .of_aside aside, rfl, fun external => ?_⟩
              rw [external] at goesOn
              have polls : Program.Moves Quiet (do
                  let events ← Handler.executeAll outside
                    [.pollQueue workerName (queueDef.list.getD "") projectRoot]
                  Handler.schedulePoll outside workerName ns queueDef.poll
                  pure events : Handler (List Event)) := by
                refine (Handler.pollQueue_quiet outside _ _ _).bind closed_quiet fun events => ?_
                exact (Handler.schedulePoll_quiet outside _ _ _).bind closed_quiet fun _ =>
                  Program.moves_pure closed_quiet _
              have ended : after = _ := congrArg Prod.snd goesOn
              rw [ended]
              exact Program.Moves.rest closed_quiet (fun _ => polls) _ _

/-- A start of the worker while no take command is under way. -/
theorem handleWorkerStarted_keeps
    (kept : Reservations workerName ns concurrency takes jobs runtime)
    (recorded : (runtime.world.state.workers[scopedName ns workerName]?).isSome = true)
    (defined : ∀ workerDef queueDef, Starts outside workerName runbookHash runtime workerDef queueDef →
      workerDef.concurrency = concurrency ∧ queueDef.queueType = .external)
    (orderly : (∃ workerDef queueDef,
        Starts outside workerName runbookHash runtime workerDef queueDef) →
      takes = [] ∧ Remembers workerName ns jobs runtime) :
    let after :=
      (Handler.handleWorkerStarted outside workerName projectRoot runbookHash ns runtime).2
    Reservations workerName ns concurrency takes jobs after ∧
      after.world.state.jobs = runtime.world.state.jobs ∧ after.world.takes = runtime.world.takes := by
  rcases @handleWorkerStarted_run outside workerName ns runtime projectRoot runbookHash with
    ⟨quiet, _⟩ | ⟨workerDef, queueDef, looked, starts, quiet, same, started⟩
  · exact ⟨kept.quiet quiet, quiet.jobs, quiet.takes⟩
  · obtain ⟨sized, external⟩ := defined workerDef queueDef starts
    obtain ⟨rfl, remembers⟩ := orderly ⟨workerDef, queueDef, starts⟩
    have rememberedThen : Remembers workerName ns jobs looked := by
      obtain ⟨apart, items⟩ := remembers
      rw [← same] at apart
      constructor
      · exact apart
      · rw [liveJobs_congr quiet.jobs, same]
        exact items
    rw [← same] at recorded
    have keptThen := (kept.quiet quiet).started projectRoot runbookHash rememberedThen recorded sized
      external
    obtain ⟨keptLast, jobsLast, takesLast⟩ :=
      @reconcileActiveJobs_keeps workerName ns concurrency [] jobs outside _ rfl keptThen
    have last := started external
    refine ⟨keptLast.quiet last, ?_, ?_⟩
    · rw [last.jobs, jobsLast]
      exact quiet.jobs
    · rw [last.takes, takesLast]
      exact quiet.takes

end Start

/-! ## What the events change -/

/-- The jobs are as they were, and the records of the workers list the same jobs. -/
structure SameLists (before after : MaterializedState) : Prop where
  jobs : after.jobs = before.jobs
  listed : ∀ id, after.Listed id → before.Listed id
  records : ∀ (key : String) (record : WorkerRecord), before.workers[key]? = some record →
    ∃ current : WorkerRecord, after.workers[key]? = some current ∧
      current.activeJobIds = record.activeJobIds

namespace SameLists

theorem workerStarted (state : MaterializedState) (workerName : String) (projectRoot : PathBuf)
    (runbookHash queueName : String) (concurrency : Nat) (ns : String) :
    SameLists state
      (state.applyWorkerStarted workerName projectRoot runbookHash queueName concurrency ns) where
  jobs := state.recordProjectRoot_jobs ns projectRoot
  listed := fun _ => MaterializedState.listed_started
  records := by
    intro key record found
    have workers := (MaterializedState.SameTables.recordProjectRoot state ns projectRoot).workers
    unfold MaterializedState.applyWorkerStarted
    dsimp only
    rw [Table.lookup_insert, workers]
    split
    · rename_i same
      refine ⟨_, rfl, ?_⟩
      rw [same, found]
      rfl
    · exact ⟨record, found, rfl⟩

theorem workerStopped (state : MaterializedState) (workerName ns : String) :
    SameLists state (state.updateWorker workerName ns fun record =>
      { record with status := "stopped" }) where
  jobs := rfl
  listed := fun _ listed => MaterializedState.listed_updateWorker listed fun _ member => member
  records := by
    intro key record found
    change ∃ current, (state.workers.modify (scopedName ns workerName) _)[key]? = some current ∧ _
    rw [Table.lookup_modify, found]
    split
    · exact ⟨_, rfl, rfl⟩
    · exact ⟨record, rfl, rfl⟩

end SameLists

section Events

variable {workerName ns : String} {concurrency : Nat} {takes : List (String × Value)}
  {jobs : List (JobId × String)} {before after : Runtime}

theorem Reservations.relisted (kept : Reservations workerName ns concurrency takes jobs before)
    (lists : SameLists before.world.state after.world.state)
    (workers : after.workerStates = before.workerStates)
    (readings : after.readings = before.readings) :
    Reservations workerName ns concurrency takes jobs after := by
  have live : liveJobs jobs after = liveJobs jobs before := liveJobs_congr lists.jobs
  constructor
  · refine ⟨⟨?_, ?_, ?_⟩, ?_⟩
    · rw [readings]
      exact kept.newIds.apart
    · rw [readings, lists.jobs]
      exact kept.newIds.jobs
    · rw [readings, workers]
      exact kept.newIds.workers
    · rw [readings]
      exact fun n listed => kept.newIds.unlisted n (lists.listed _ listed)
  · rw [lists.jobs]
    exact kept.known
  · exact kept.distinct
  · rw [live]
    exact kept.items
  · rw [live]
    exact kept.few
  · exact kept.named
  · rw [workers]
    exact kept.idle
  · intro state found
    rw [workers] at found
    obtain ⟨holds, record, recorded, listed⟩ := kept.worker state found
    obtain ⟨current, present, same⟩ := lists.records _ record recorded
    rw [live]
    exact ⟨holds, current, present, same ▸ listed⟩

theorem jobsOfWorker_started (state : MaterializedState) (workerName : String)
    (projectRoot : PathBuf) (runbookHash queueName : String) (concurrency : Nat) (ns : String) :
    (state.applyWorkerStarted workerName projectRoot runbookHash queueName concurrency
      ns).jobsOfWorker workerName ns = state.jobsOfWorker workerName ns := by
  unfold MaterializedState.jobsOfWorker MaterializedState.applyWorkerStarted
  dsimp only
  rw [Table.lookup_insert, if_pos rfl]
  rfl

theorem recorded_started (state : MaterializedState) (workerName : String) (projectRoot : PathBuf)
    (runbookHash queueName : String) (concurrency : Nat) (ns : String) :
    ((state.applyWorkerStarted workerName projectRoot runbookHash queueName concurrency
      ns).workers[scopedName ns workerName]?).isSome = true := by
  unfold MaterializedState.applyWorkerStarted
  dsimp only
  rw [Table.lookup_insert, if_pos rfl]
  rfl

/-- What a start reads of the runbook is not changed by other events. -/
theorem starts_applying {outside : Outside} {workerName runbookHash : String} {runtime : Runtime}
    (order : WalkOrder) {event : Event} (other : event.loadsRunbook = false)
    (workerDef : WorkerDef) (queueDef : QueueDef) :
    Starts outside workerName runbookHash (runtime.applying order event) workerDef queueDef ↔
      Starts outside workerName runbookHash runtime workerDef queueDef := by
  have read := Runtime.runbookAt_congr outside
    (show (runtime.applying order event).runbookCache = runtime.runbookCache from rfl)
    (MaterializedState.applyEvent_runbooks order (runtime.world.clocks 0) runtime.world.state other)
    runbookHash
  unfold Starts
  rw [read]

/-- A job ends. -/
theorem Reservations.advanced (kept : Reservations workerName ns concurrency takes jobs before)
    (order : WalkOrder) (id : JobId) {step : String} (terminal : isTerminalStep step = true) :
    Reservations workerName ns concurrency takes jobs
      (before.applying order (.jobAdvanced id step)) := by
  let after := before.applying order (.jobAdvanced id step)
  have steps : ∀ other : JobId, (after.world.state.jobs[other]?).map (fun job => job.step) =
      if id = other then (before.world.state.jobs[other]?).map fun _ => step
      else (before.world.state.jobs[other]?).map (·.step) := fun other =>
    step_applyJobAdvanced (before.world.clocks 0) id other step before.world.state
  have present : ∀ other : JobId, (after.world.state.jobs[other]?).isSome =
      (before.world.state.jobs[other]?).isSome := fun other =>
    isSome_applyJobAdvanced (before.world.clocks 0) id other step before.world.state
  have atWork : ∀ other : JobId, (after.world.state.jobs[other]?).any (!·.isTerminal) = true →
      id ≠ other ∧ (before.world.state.jobs[other]?).any (!·.isTerminal) = true := by
    intro other working
    rw [atWork_eq, steps] at working
    rw [atWork_eq]
    split at working
    · rw [Option.any_map] at working
      obtain ⟨_, _, ended⟩ := (Option.any_eq_true _ _).mp working
      rw [terminal] at ended
      cases ended
    · exact ⟨‹_›, working⟩
  have fewer : (liveJobs jobs after).Sublist (liveJobs jobs before) :=
    List.monotone_filter_right jobs fun entry working => (atWork entry.1 working).2
  have listedBefore : ∀ other, after.world.state.Listed other → before.world.state.Listed other :=
    fun other listed => MaterializedState.listed_advanced listed
  constructor
  · refine ⟨⟨kept.newIds.apart, fun n other job found => ?_, kept.newIds.workers⟩,
      fun n listed => kept.newIds.unlisted n (listedBefore _ listed)⟩
    have some := Option.isSome_of_mem found
    rw [present] at some
    obtain ⟨prior, stored⟩ := Option.isSome_iff_exists.mp some
    exact kept.newIds.jobs n other prior stored
  · intro entry member
    exact (present entry.1).trans (kept.known entry member)
  · exact kept.distinct
  · exact kept.items.sublist (fewer.map _)
  · exact fewer.length_le.trans kept.few
  · exact kept.named
  · exact kept.idle
  · intro state found
    obtain ⟨holds, record, recorded, lists⟩ := kept.worker state found
    refine ⟨holds.shrink fewer, ?_⟩
    have same := listedBut_applyJobAdvanced (before.world.clocks 0) id step before.world.state
      (scopedName ns workerName)
    unfold MaterializedState.listedBut at same
    rw [recorded, Option.map_some] at same
    obtain ⟨current, present, listed⟩ := Option.map_eq_some_iff.mp same
    refine ⟨current, present, fun entry member => ?_⟩
    have working := (List.mem_filter.mp member).2
    have filtered : entry.1 ∈ record.activeJobIds.filter (· ≠ id) :=
      List.mem_filter.mpr ⟨lists entry (fewer.subset member),
        decide_eq_true (Ne.symm (atWork entry.1 working).1)⟩
    rw [← listed] at filtered
    exact (List.mem_filter.mp filtered).1

end Events

/-! ## Runs -/

def Event.takenItem : Event → String
  | workerTakeComplete _ itemId _ _ _ => itemId
  | _ => ""

/-- The take commands that are still under way; they are told apart by their items. -/
def Event.remaining (takes : List (String × Value)) : Event → List (String × Value)
  | workerTakeComplete _ itemId _ _ _ => takes.eraseP (·.1 == itemId)
  | _ => takes

/-- A worker with its take commands under way, and the jobs created for it, each with
its item. -/
structure TakeRun where
  runtime : Runtime
  takes : List (String × Value)
  jobs : List (JobId × String)

namespace TakeRun

def step (outside : Outside) (others : OtherHandlers) (event : Event) (run : TakeRun) : TakeRun :=
  let after := (Handler.processEvent outside others event run.runtime).2
  { runtime := after
    takes := event.remaining run.takes ++
      after.world.takes.drop run.runtime.world.takes.length
    jobs := run.jobs ++ jobsFor event.takenItem run.runtime after }

def created (outside : Outside) (others : OtherHandlers) (event : Event) (run : TakeRun) :
    List (JobId × String) :=
  jobsFor event.takenItem run.runtime (run.step outside others event).runtime

/-- The events of a worker of an external queue that has the given number of slots, and
the ends of jobs.  Take commands end in any order, with any exit code. -/
def Concerns (outside : Outside) (workerName ns : String) (concurrency : Nat) (run : TakeRun) :
    Event → Prop
  | .workerStarted name _ runbookHash _ _ ns' => name = workerName ∧ ns' = ns ∧
      ∀ workerDef queueDef, Starts outside workerName runbookHash run.runtime workerDef queueDef →
        workerDef.concurrency = concurrency ∧ queueDef.queueType = .external
  | .workerStopped name _ | .workerWake name _ | .workerPollComplete name _ => name = workerName
  | .workerTakeComplete name itemId item _ _ => name = workerName ∧ (itemId, item) ∈ run.takes
  | .jobAdvanced _ step => isTerminalStep step = true
  | _ => False

/-- A start does not happen while take commands are under way, and finds the items of its
jobs on record; the job of a taken item fails only before it is recorded. -/
def Orderly (outside : Outside) (workerName ns : String) (run : TakeRun) (event : Event) : Prop :=
  match event with
  | .workerStarted _ _ runbookHash _ _ _ =>
      (∃ workerDef queueDef, Starts outside workerName runbookHash run.runtime workerDef queueDef) →
        run.takes = [] ∧ Remembers workerName ns run.jobs run.runtime
  | .workerTakeComplete _ _ item exitCode _ =>
      exitCode = 0 → SteadyTake outside workerName item (run.runtime.applying outside.order event)
  | _ => True

/-- The runs in which every event meets the condition. -/
inductive Reaches (outside : Outside) (others : OtherHandlers) (workerName ns : String)
    (concurrency : Nat) (condition : TakeRun → Event → Prop) : TakeRun → Prop
  /-- The worker has not been started and has no jobs. -/
  | start {runtime : Runtime} : runtime.workerStates[workerName]? = none →
      runtime.world.state.jobsOfWorker workerName ns = [] → NewIds runtime →
      Reaches outside others workerName ns concurrency condition ⟨runtime, [], []⟩
  | step {run : TakeRun} {event : Event} :
      Reaches outside others workerName ns concurrency condition run →
      run.Concerns outside workerName ns concurrency event → condition run event →
      Reaches outside others workerName ns concurrency condition (run.step outside others event)

/-- What ties the slots, the take commands and the jobs together. -/
def Kept (workerName ns : String) (concurrency : Nat) (run : TakeRun) : Prop :=
  Reservations workerName ns concurrency run.takes run.jobs run.runtime

section Steps

variable {outside : Outside} {others : OtherHandlers} {workerName ns : String} {concurrency : Nat}
  {run : TakeRun} {event : Event}

/-- An event that may have items taken, and creates no job. -/
theorem kept_of_fires (remaining : event.remaining run.takes = run.takes)
    (fires : Fires workerName ns concurrency run.takes run.jobs run.runtime
      (Handler.processEvent outside others event run.runtime).2)
    (kept : run.Kept workerName ns concurrency) :
    (run.step outside others event).Kept workerName ns concurrency ∧
      (liveJobs run.jobs run.runtime).length + (run.created outside others event).length ≤
        concurrency := by
  obtain ⟨fired, taken, same, keptThen⟩ := fires kept
  have none : jobsFor event.takenItem run.runtime
      (Handler.processEvent outside others event run.runtime).2 = [] := jobsFor_eq_nil same
  constructor
  · unfold Kept step
    dsimp only
    rw [none, List.append_nil, remaining, taken, List.drop_left]
    exact keptThen
  · unfold created step
    dsimp only
    rw [none]
    exact kept.few

theorem kept_of_keeps (remaining : event.remaining run.takes = run.takes)
    (keeps : run.Kept workerName ns concurrency →
      let after := (Handler.processEvent outside others event run.runtime).2
      Reservations workerName ns concurrency run.takes run.jobs after ∧
        after.world.state.jobs = run.runtime.world.state.jobs ∧
        after.world.takes = run.runtime.world.takes)
    (kept : run.Kept workerName ns concurrency) :
    (run.step outside others event).Kept workerName ns concurrency ∧
      (liveJobs run.jobs run.runtime).length + (run.created outside others event).length ≤
        concurrency := by
  refine kept_of_fires remaining (fun _ => ?_) kept
  obtain ⟨keptThen, same, taken⟩ := keeps kept
  refine ⟨[], ?_, same, ?_⟩
  · rw [taken, List.append_nil]
  · rw [List.append_nil]
    exact keptThen

/-- One event keeps the reservations, and there is a slot for the job that it creates. -/
theorem kept_step (kept : run.Kept workerName ns concurrency)
    (concerns : run.Concerns outside workerName ns concurrency event)
    (orderly : run.Orderly outside workerName ns event) :
    (run.step outside others event).Kept workerName ns concurrency ∧
      (liveJobs run.jobs run.runtime).length + (run.created outside others event).length ≤
        concurrency := by
  cases event with
  | workerStarted name projectRoot runbookHash queueName slots space =>
      obtain ⟨rfl, rfl, defined⟩ := concerns
      refine kept_of_keeps rfl (fun kept => ?_) kept
      let applied := run.runtime.applying outside.order
        (.workerStarted name projectRoot runbookHash queueName slots space)
      have lists : SameLists run.runtime.world.state applied.world.state :=
        .workerStarted run.runtime.world.state name projectRoot runbookHash queueName slots space
      have recorded : (applied.world.state.workers[scopedName space name]?).isSome = true :=
        recorded_started run.runtime.world.state name projectRoot runbookHash queueName slots space
      have remembersThen : Remembers name space run.jobs run.runtime →
          Remembers name space run.jobs applied := by
        rintro ⟨apart, items⟩
        have sameItems : ∀ id, applied.world.state.itemOfJob id =
            run.runtime.world.state.itemOfJob id := by
          intro id
          unfold MaterializedState.itemOfJob
          rw [lists.jobs]
        have sameJobs : applied.world.state.jobsOfWorker name space =
            run.runtime.world.state.jobsOfWorker name space :=
          jobsOfWorker_started run.runtime.world.state name projectRoot runbookHash queueName slots
            space
        constructor
        · rw [sameJobs]
          intro left inLeft right inRight item
          rw [sameItems, sameItems]
          exact apart left inLeft right inRight item
        · rw [liveJobs_congr lists.jobs]
          intro entry member
          rw [sameItems]
          exact items entry member
      have starts := @starts_applying outside name runbookHash run.runtime outside.order
        (.workerStarted name projectRoot runbookHash queueName slots space) rfl
      have started := @handleWorkerStarted_keeps outside name space concurrency run.takes run.jobs
        applied projectRoot runbookHash (kept.relisted lists rfl rfl) recorded
        (fun workerDef queueDef begins => defined workerDef queueDef ((starts _ _).mp begins)) ?_
      · obtain ⟨keptThen, sameJobs, taken⟩ := started
        exact ⟨keptThen, sameJobs.trans lists.jobs, taken⟩
      · rintro ⟨workerDef, queueDef, begins⟩
        obtain ⟨free, remembers⟩ := orderly ⟨workerDef, queueDef, (starts _ _).mp begins⟩
        exact ⟨free, remembersThen remembers⟩
  | workerStopped name space =>
      cases concerns
      refine kept_of_keeps rfl (fun kept => ?_) kept
      let applied := run.runtime.applying outside.order (.workerStopped workerName space)
      have lists : SameLists run.runtime.world.state applied.world.state :=
        .workerStopped run.runtime.world.state workerName space
      exact @handleWorkerStopped_keeps workerName ns concurrency run.takes run.jobs _ outside applied
        rfl (kept.relisted lists rfl rfl)
  | workerWake name space =>
      cases concerns
      refine kept_of_fires rfl (Quiet.fires ?_) kept
      have applied : Quiet run.runtime
          (run.runtime.applying outside.order (.workerWake workerName space)) :=
        ⟨rfl, rfl, rfl, fun _ => rfl, 0, fun _ => rfl⟩
      exact applied.trans (Handler.handleWorkerWake_quiet outside workerName _)
  | workerPollComplete name items =>
      cases concerns
      refine kept_of_fires rfl ?_ kept
      have applied : Quiet run.runtime
          (run.runtime.applying outside.order (.workerPollComplete workerName items)) :=
        ⟨rfl, rfl, rfl, fun _ => rfl, 0, fun _ => rfl⟩
      exact applied.then_fires (handleWorkerPollComplete_fires items _)
  | workerTakeComplete name itemId item exitCode errors =>
      obtain ⟨rfl, underWay⟩ := concerns
      let applied := run.runtime.applying outside.order
        (.workerTakeComplete name itemId item exitCode errors)
      have quiet : Quiet run.runtime applied := ⟨rfl, rfl, rfl, fun _ => rfl, 0, fun _ => rfl⟩
      have finishes := (handleWorkerTakeComplete_finishes (kept.quiet quiet) underWay
        orderly).after quiet.jobs quiet.takes
      constructor
      · have untaken := finishes.untaken
        unfold Kept step
        dsimp only
        rw [show (Handler.processEvent outside others (.workerTakeComplete name itemId item exitCode
          errors) run.runtime).2.world.takes = run.runtime.world.takes from untaken, List.drop_length,
          List.append_nil]
        exact finishes.kept
      · exact finishes.slot
  | jobAdvanced id step =>
      let applied := run.runtime.applying outside.order (.jobAdvanced id step)
      have terminal : isTerminalStep step = true := concerns
      have advanced := kept.advanced outside.order id terminal
      have ended := ended_applyJobAdvanced (run.runtime.world.clocks 0) id terminal
        run.runtime.world.state
      obtain ⟨keptThen, same, taken⟩ := @checkWorkerJobComplete_keeps workerName ns concurrency
        run.takes run.jobs _ outside id step ended applied rfl advanced
      have routed : Handler.processEvent outside others (.jobAdvanced id step) run.runtime =
          Handler.checkWorkerJobComplete outside id step applied := by
        rw [Handler.processEvent_run, Handler.handleEvent]
        rw [if_pos terminal]
      have none : jobsFor "" run.runtime
          (Handler.checkWorkerJobComplete outside id step applied).2 = [] := by
        refine List.map_eq_nil_iff.mpr (newJobs_eq_nil fun other => ?_)
        rw [same]
        exact isSome_applyJobAdvanced _ id other step run.runtime.world.state
      constructor
      · unfold Kept TakeRun.step
        dsimp only [Event.remaining, Event.takenItem]
        rw [routed, none, taken, List.append_nil, show applied.world.takes =
          run.runtime.world.takes from rfl, List.drop_length, List.append_nil]
        exact keptThen
      · unfold created TakeRun.step
        dsimp only [Event.takenItem]
        rw [routed, none]
        exact kept.few
  | _ => exact concerns.elim

end Steps

theorem Reaches.kept {outside : Outside} {others : OtherHandlers} {workerName ns : String}
    {concurrency : Nat} {run : TakeRun} (reached : Reaches outside others workerName ns concurrency
      (Orderly outside workerName ns) run) : run.Kept workerName ns concurrency := by
  induction reached with
  | start stopped _ newIds =>
      refine ⟨newIds, ?_, List.nodup_nil, List.nodup_nil, Nat.zero_le _, ?_, fun _ => ⟨rfl, rfl⟩, ?_⟩
      · intro entry member
        cases member
      · intro take member
        cases member
      · intro state found
        rw [stopped] at found
        cases found
  | step _ concerns orderly ih => exact (kept_step ih concerns orderly).1

end TakeRun

/-- In an orderly run, no item has two jobs at work, and a job is created only while
fewer jobs are at work than the worker has slots. -/
theorem external_worker_dispatches_within_slots (outside : Outside) (others : OtherHandlers)
    (workerName ns : String) (concurrency : Nat) (run : TakeRun)
    (reached : TakeRun.Reaches outside others workerName ns concurrency
      (TakeRun.Orderly outside workerName ns) run) :
    ((liveJobs run.jobs run.runtime).map (·.2)).Nodup ∧
      ∀ event, run.Concerns outside workerName ns concurrency event →
        run.Orderly outside workerName ns event →
        (liveJobs run.jobs run.runtime).length + (run.created outside others event).length ≤
          concurrency :=
  ⟨reached.kept.items, fun _ concerns orderly =>
    (TakeRun.kept_step reached.kept concerns orderly).2⟩

/-! ## A worker of one slot -/

def JobDef.isBare (jobDef : JobDef) : Bool :=
  jobDef.workspace.isNone && jobDef.steps.all fun step =>
    match step.run with
    | .shell _ => true
    | _ => false

/-- A job without a workspace has none set up. -/
theorem prepareJob_bare {outside : Outside} {params : CreateJobParams} {before after : Runtime}
    {prepared : Handler.PreparedJob}
    (ran : Handler.prepareJob outside params before = (.ok prepared, after))
    (bare : prepared.jobDef.workspace = none) : prepared.effects = [] := by
  unfold Handler.prepareJob at ran
  obtain ⟨jobDef, _, _, ran⟩ := Program.bind_eq_ok.mp ran
  obtain ⟨_, _, _, ran⟩ := Program.bind_eq_ok.mp ran
  obtain ⟨_, _, _, ran⟩ := Program.bind_eq_ok.mp ran
  obtain ⟨effects, _, setUp, ran⟩ := Program.bind_eq_ok.mp ran
  cases ran
  have unplaced : (Handler.placeJob outside params jobDef
      (Handler.jobDisplayName outside params jobDef)).workspace = none := by
    unfold Handler.placeJob
    dsimp only at bare
    rw [bare]
    cases jobDef.cwd with
    | none => rfl
    | some cwd => rfl
  unfold Handler.workspaceEffects at setUp
  rw [unplaced] at setUp
  cases setUp
  rfl

/-- Such a job can be started whenever it is prepared. -/
theorem canStart_of_bare {outside : Outside} {params : CreateJobParams} {before after : Runtime}
    {prepared : Handler.PreparedJob}
    (ran : Handler.prepareJob outside params before = (.ok prepared, after))
    (bare : prepared.jobDef.isBare = true) (runbook : Runbook) (used : Nat) :
    CanStart runbook prepared.jobDef prepared.effects after used := by
  obtain ⟨noWorkspace, shells⟩ := Bool.and_eq_true_iff.mp bare
  rw [prepareJob_bare ran (Option.isNone_iff_eq_none.mp noWorkspace)]
  refine .inl ⟨trivial, fun step first => ?_⟩
  have shell := List.all_eq_true.mp shells step (List.mem_of_mem_head? first)
  unfold Startable
  cases run : step.run with
  | shell command => trivial
  | agent agent prompt =>
      rw [run] at shell
      cases shell
  | job name =>
      rw [run] at shell
      cases shell

def Runtime.dispatched (outside : Outside) (workerName : String) (runtime : Runtime) :
    Option JobDef :=
  (runtime.workerStates[workerName]?).bind fun state =>
    (runtime.runbookAt outside state.runbookHash).bind fun runbook =>
      runbook.getJob state.jobKind

theorem steadyDispatch_of_bare {outside : Outside} {workerName : String} {turn : Runtime}
    (item : Value) (bare : (turn.dispatched outside workerName).all (·.isBare) = true) :
    SteadyDispatch outside workerName item turn := by
  rintro state runbook jobDef looked ⟨found, _, readable, defined⟩ prepared ready ran
  have known : turn.runbookAt outside state.runbookHash = some runbook := by
    cases known : turn.afterReading.runbookAt outside state.runbookHash with
    | none =>
        obtain ⟨error, unreadable⟩ := Handler.cachedRunbook_unknown outside known
        rw [unreadable] at readable
        cases readable
    | some other =>
        obtain ⟨_, read, _, _⟩ := Handler.cachedRunbook_known outside known
        rw [read] at readable
        cases readable
        exact known
  have dispatched : turn.dispatched outside workerName = some jobDef := by
    unfold Runtime.dispatched
    rw [found, Option.bind_some, known]
    exact defined
  have same : some prepared.jobDef = some jobDef := (prepareJob_ok ran).1.symm.trans defined
  cases same
  rw [dispatched] at bare
  exact canStart_of_bare ran bare runbook _

def Runbook.feed : Runbook where
  jobs := (∅ : HashMap JobDef).insert "build" {
    kind := "build"
    steps := [{ name := "plan", run := .shell "true" }] }
  queues := (∅ : HashMap QueueDef).insert "parts" {
    queueType := .external
    list := some "list"
    take := some "take" }
  workers := (∅ : HashMap WorkerDef).insert "joiner" { queue := "parts", job := "build" }

def feedItem : Value := .object [("id", .string "a")]

def TakeRun.feed : TakeRun where
  runtime := .numbered .feed (({} : MaterializedState).replay (fun _ => .byKey) (fun _ => ⟨0, 0⟩) 0
    [.runbookLoaded "hash" 1 .null])
  takes := []
  jobs := []

def TakeRun.after (events : List Event) : TakeRun :=
  events.foldl (fun run event => run.step (.plain .feed) .silent event) .feed

namespace TakeRun

/-- The start of the worker, a poll that finds the item, and its take command that ends. -/
def feedStart : Event := .workerStarted "joiner" "/" "hash" "parts" 1 ""

def feedPoll : Event := .workerPollComplete "joiner" [feedItem]

def feedTaken : Event := .workerTakeComplete "joiner" "a" feedItem 0 none

def startsAs (run : TakeRun) : Option (Nat × QueueType) :=
  (run.runtime.runbookAt (.plain .feed) "hash").bind fun runbook =>
    (runbook.getWorker "joiner").bind fun workerDef =>
      (runbook.getQueue workerDef.queue).map fun queueDef =>
        (workerDef.concurrency, queueDef.queueType)

theorem concerns_feedStart {run : TakeRun} (checked : run.startsAs = some (1, .external)) :
    run.Concerns (.plain .feed) "joiner" "" 1 feedStart := by
  refine ⟨rfl, rfl, ?_⟩
  rintro workerDef queueDef ⟨runbook, known, worker, queue⟩
  unfold startsAs at checked
  rw [known, Option.bind_some, worker, Option.bind_some, queue, Option.map_some] at checked
  exact Prod.mk.inj (Option.some.inj checked)

def takesItem (run : TakeRun) : Bool :=
  run.takes.any fun take => take.1 == "a" &&
    match take.2 with
    | .object [(key, .string text)] => key == "id" && text == "a"
    | _ => false

theorem concerns_feedTaken {run : TakeRun} (checked : run.takesItem = true) :
    run.Concerns (.plain .feed) "joiner" "" 1 feedTaken := by
  refine ⟨rfl, ?_⟩
  obtain ⟨⟨itemId, item⟩, member, same⟩ := List.any_eq_true.mp checked
  obtain ⟨sameId, sameItem⟩ := Bool.and_eq_true_iff.mp same
  dsimp only at sameId sameItem
  split at sameItem
  · obtain ⟨sameKey, sameText⟩ := Bool.and_eq_true_iff.mp sameItem
    rw [eq_of_beq sameId, eq_of_beq sameKey, eq_of_beq sameText] at member
    exact member
  · cases sameItem

theorem newIds_feed : NewIds TakeRun.feed.runtime := by
  have noJobs : TakeRun.feed.runtime.world.state.jobs.isEmpty = true := by decide +kernel
  have noRecords : TakeRun.feed.runtime.world.state.workers.isEmpty = true := by decide +kernel
  refine ⟨⟨?_, ?_, ?_⟩, ?_⟩
  · intro m n differs
    change ¬((String.ofList _).toList <+: (String.ofList _).toList)
    rw [String.toList_ofList, String.toList_ofList]
    exact numbered_apart differs
  · intro n id job present
    rw [Std.ExtTreeMap.isEmpty_iff.mp noJobs, Table.lookup_empty] at present
    cases present
  · intro n name state present
    change (∅ : HashMap WorkerState)[name]? = _ at present
    rw [Table.lookup_empty] at present
    cases present
  · rintro n ⟨key, record, present, _⟩
    rw [Std.ExtTreeMap.isEmpty_iff.mp noRecords, Table.lookup_empty] at present
    cases present

theorem jobsOfWorker_feed :
    TakeRun.feed.runtime.world.state.jobsOfWorker "joiner" "" = [] := by
  decide +kernel

theorem reaches_feed (condition : TakeRun → Event → Prop) :
    Reaches (.plain .feed) .silent "joiner" "" 1 condition .feed :=
  .start (Table.lookup_empty _) jobsOfWorker_feed newIds_feed

/-- The worker is stopped and started again while a take command is under way.  The item
is polled and taken a second time, and both take commands lead to a job: two jobs are at
work on it, and the worker has one slot. -/
theorem restart_over_dispatches :
    let run := after [feedStart, feedPoll, .workerStopped "joiner" "", feedStart, feedPoll, feedTaken]
    let next := run.step (.plain .feed) .silent feedTaken
    Reaches (.plain .feed) .silent "joiner" "" 1 (fun _ _ => True) run ∧
      run.Concerns (.plain .feed) "joiner" "" 1 feedTaken ∧
      (liveJobs run.jobs run.runtime).length +
        (run.created (.plain .feed) .silent feedTaken).length = 2 ∧
      ¬((liveJobs next.jobs next.runtime).map (·.2)).Nodup := by
  intro run next
  have stopped : Reaches (.plain .feed) .silent "joiner" "" 1 (fun _ _ => True)
      (after [feedStart, feedPoll, .workerStopped "joiner" ""]) := by
    refine .step (.step (.step (reaches_feed _) (concerns_feedStart ?_) trivial) rfl trivial) rfl
      trivial
    decide +kernel
  have polled : Reaches (.plain .feed) .silent "joiner" "" 1 (fun _ _ => True)
      (after [feedStart, feedPoll, .workerStopped "joiner" "", feedStart, feedPoll]) := by
    refine .step (.step stopped (concerns_feedStart ?_) trivial) rfl trivial
    decide +kernel
  refine ⟨.step polled (concerns_feedTaken ?_) trivial, concerns_feedTaken ?_, ?_, ?_⟩
  · decide +kernel
  · decide +kernel
  · decide +kernel
  · decide +kernel

/-- The item is taken once, and the worker gets a job for it in its one slot. -/
theorem taken_item_gets_its_slot :
    let run := after [feedStart, feedPoll]
    let next := run.step (.plain .feed) .silent feedTaken
    (liveJobs next.jobs next.runtime).length = 1 ∧
      ((liveJobs run.jobs run.runtime).map (·.2)).Nodup ∧
      (liveJobs run.jobs run.runtime).length +
        (run.created (.plain .feed) .silent feedTaken).length ≤ 1 := by
  intro run next
  have started : Reaches (.plain .feed) .silent "joiner" "" 1 (Orderly (.plain .feed) "joiner" "")
      (after [feedStart]) := by
    refine .step (reaches_feed _) (concerns_feedStart ?_) ?_
    · decide +kernel
    · refine fun _ => ⟨rfl, fun left listed => ?_, fun entry member => ?_⟩
      · rw [jobsOfWorker_feed] at listed
        cases listed
      · cases member
  have reached : Reaches (.plain .feed) .silent "joiner" "" 1 (Orderly (.plain .feed) "joiner" "")
      run := .step started rfl trivial
  have concerns : run.Concerns (.plain .feed) "joiner" "" 1 feedTaken := by
    refine concerns_feedTaken ?_
    decide +kernel
  have steady : run.Orderly (.plain .feed) "joiner" "" feedTaken := by
    intro _ loaded turn refreshed
    refine steadyDispatch_of_bare feedItem ?_
    have same := (congrArg Prod.snd refreshed).symm
    dsimp only at same
    rw [same]
    decide +kernel
  obtain ⟨distinct, slots⟩ := external_worker_dispatches_within_slots (.plain .feed) .silent "joiner"
    "" 1 run reached
  refine ⟨?_, distinct, slots feedTaken concerns steady⟩
  decide +kernel

end TakeRun

end OddJobs
