import OddJobs.Engine.Handlers

/-!
# Runs of the parts

What the parts that all handlers share do to the runtime: an event is emitted, a
timer is set, a runbook is looked up, a worker reads its runbook again.
-/

namespace OddJobs

open Library

namespace Runtime

def emitting (order : WalkOrder) (event : Event) (runtime : Runtime) : Runtime :=
  let after := runtime.applying order event
  { after with world := { after.world with replies := fun n => after.world.replies (n + 1) } }

def timing (id : TimerId) (duration : Nat) (runtime : Runtime) : Runtime :=
  { runtime with world := { runtime.world with
      timers := runtime.world.timers.insert id ((runtime.world.clocks 0).instant + duration)
      clocks := fun n => runtime.world.clocks (n + 1)
      replies := fun n => runtime.world.replies (n + 1) } }

def requesting (asked : Request) (runtime : Runtime) : Runtime :=
  { runtime with world := { runtime.world with
      requests := runtime.world.requests ++ [asked]
      replies := fun n => runtime.world.replies (n + 1) } }

def afterReading (runtime : Runtime) : Runtime :=
  { runtime with readings := fun n => runtime.readings (n + 1) }

def runbookAt (outside : Outside) (runtime : Runtime) (hash : String) : Option Runbook :=
  match runtime.runbookCache[hash]? with
  | some runbook => some runbook
  | none =>
      (runtime.world.state.runbooks[hash]?).bind fun stored =>
        (outside.decodeRunbook stored.data).toOption

theorem runbookAt_congr (outside : Outside) {left right : Runtime}
    (cache : left.runbookCache = right.runbookCache)
    (stored : left.world.state.runbooks = right.world.state.runbooks) (hash : String) :
    left.runbookAt outside hash = right.runbookAt outside hash := by
  rw [runbookAt, cache, stored]
  rfl

def reloaded (outside : Outside) (workerName : String) (state : WorkerState) (runbook : Runbook)
    (runtime : Runtime) : Runtime :=
  let hash := outside.contentHash (outside.encodeRunbook runbook)
  if state.runbookHash = hash then runtime.afterReading
  else
    { runtime.afterReading with
      workerStates := runtime.workerStates.modify workerName fun state =>
        { state with runbookHash := hash }
      runbookCache := runtime.runbookCache.insert hash runbook }

end Runtime

def Request.take? : Request → Option (String × Value)
  | takeQueueItem _ _ _ itemId item => some (itemId, item)
  | _ => none

/-- The items of all take commands so far. -/
def World.takes (world : World) : List (String × Value) := world.requests.filterMap Request.take?

/-- Only the adapters, the streams and the registered agents may differ; no item is
taken. -/
structure Aside (outside : Outside) (before after : Runtime) : Prop where
  state : after.world.state = before.world.state
  timers : after.world.timers = before.world.timers
  applied : after.world.applied = before.world.applied
  takes : after.world.takes = before.world.takes
  workers : after.workerStates = before.workerStates
  crons : after.cronStates = before.cronStates
  runbooks : ∀ hash, after.runbookAt outside hash = before.runbookAt outside hash
  readings : ∃ read, ∀ n, after.readings n = before.readings (n + read)

namespace Handler

variable (outside : Outside)

theorem executeAll_emit (event : Event) (runtime : Runtime) :
    executeAll outside [.emit event] runtime =
      (.ok [event], runtime.emitting outside.order event) := rfl

theorem carryOut_bind {α β : Type} (first : Exec α) (second : α → Exec β) :
    carryOut (first >>= second) = carryOut first >>= fun value => carryOut (second value) := by
  funext runtime
  have ran : (carryOut first >>= fun value => carryOut (second value)) runtime = _ :=
    Program.run_bind _ _ runtime
  rw [ran]
  unfold carryOut
  rw [Program.run_bind]
  cases first runtime.world with
  | mk result world =>
      cases result with
      | error error => rfl
      | ok value => rfl

/-- Effects are carried out one after the other. -/
theorem executeAll_cons (effect : Effect) (rest : List Effect) :
    executeAll outside (effect :: rest) =
      (do
        let event ← execute outside effect
        let events ← executeAll outside rest
        pure (event.toList ++ events) : Handler (List Event)) := by
  unfold executeAll execute
  rw [Executor.executeAll, carryOut_bind]
  congr 1
  funext event
  rw [carryOut_bind]
  rfl

/-- A job is found where it is asked for. -/
theorem requireJob_eq_ok {id : String} {before after : Runtime} {job : Job} :
    requireJob id before = (.ok job, after) ↔
      before = after ∧ before.world.state.getJob id = some job := by
  unfold requireJob
  rw [Program.run_bind]
  simp only [readState, Program.run_read]
  cases before.world.state.getJob id with
  | none =>
      constructor
      · intro ran
        cases ran
      · rintro ⟨_, found⟩
        cases found
  | some present =>
      constructor
      · intro ran
        cases ran
        exact ⟨rfl, rfl⟩
      · rintro ⟨rfl, found⟩
        cases found
        rfl

/-- A runbook that is known is returned, and found again afterwards. -/
theorem cachedRunbook_known {runtime : Runtime} {hash : String} {runbook : Runbook}
    (known : runtime.runbookAt outside hash = some runbook) :
    ∃ runbookCache : HashMap Runbook, cachedRunbook outside hash runtime =
        (.ok runbook, { runtime with runbookCache }) ∧
      Aside outside runtime { runtime with runbookCache } ∧
      runbookCache[hash]? = some runbook := by
  unfold Runtime.runbookAt at known
  cases cached : runtime.runbookCache[hash]? with
  | some present =>
      rw [cached] at known
      cases known
      refine ⟨runtime.runbookCache, ?_,
        ⟨rfl, rfl, rfl, rfl, rfl, rfl, fun _ => rfl, 0, fun _ => rfl⟩, cached⟩
      unfold cachedRunbook
      rw [Program.run_bind]
      simp only [Program.run_read, cached, Program.run_pure]
  | none =>
      rw [cached] at known
      obtain ⟨stored, found, decoded⟩ := Option.bind_eq_some_iff.mp known
      cases result : outside.decodeRunbook stored.data with
      | error error =>
          rw [result] at decoded
          cases decoded
      | ok present =>
          rw [result] at decoded
          cases decoded
          refine ⟨runtime.runbookCache.insert hash runbook, ?_,
            ⟨rfl, rfl, rfl, rfl, rfl, rfl, ?_, 0, fun _ => rfl⟩, ?_⟩
          · unfold cachedRunbook
            rw [Program.run_bind]
            simp only [Program.run_read, cached]
            rw [Program.run_bind]
            simp only [readState, Program.run_read, found]
            rw [Program.run_bind]
            simp only [require, Program.run_pure, result]
            rfl
          · intro other
            unfold Runtime.runbookAt
            rw [Table.lookup_insert]
            rcases Decidable.em (hash = other) with rfl | differs
            · rw [if_pos rfl, cached]
              simp only [found, Option.bind_some, result]
              rfl
            · rw [if_neg differs]
          · rw [Table.lookup_insert, if_pos rfl]

/-- A runbook that is not known is an error. -/
theorem cachedRunbook_unknown {runtime : Runtime} {hash : String}
    (unknown : runtime.runbookAt outside hash = none) :
    ∃ error, cachedRunbook outside hash runtime = (.error error, runtime) := by
  unfold Runtime.runbookAt at unknown
  cases cached : runtime.runbookCache[hash]? with
  | some present =>
      rw [cached] at unknown
      cases unknown
  | none =>
      rw [cached] at unknown
      unfold cachedRunbook
      rw [Program.run_bind]
      simp only [Program.run_read, cached]
      rw [Program.run_bind]
      simp only [readState, Program.run_read]
      cases found : runtime.world.state.runbooks[hash]? with
      | none => exact ⟨_, rfl⟩
      | some stored =>
          rw [found, Option.bind_some] at unknown
          rw [Program.run_bind]
          simp only [require, Program.run_pure]
          cases result : outside.decodeRunbook stored.data with
          | error error => exact ⟨_, rfl⟩
          | ok present =>
              rw [result] at unknown
              cases unknown

/-- A runbook that is returned was known; only the cache may have changed. -/
theorem cachedRunbook_eq_ok {hash : String} {before after : Runtime} {runbook : Runbook}
    (ran : cachedRunbook outside hash before = (.ok runbook, after)) :
    before.runbookAt outside hash = some runbook ∧
      ∃ runbookCache : HashMap Runbook, after = { before with runbookCache } := by
  cases known : before.runbookAt outside hash with
  | none =>
      obtain ⟨error, failed⟩ := cachedRunbook_unknown outside known
      rw [failed] at ran
      cases ran
  | some present =>
      obtain ⟨runbookCache, found, _⟩ := cachedRunbook_known outside known
      rw [found] at ran
      cases ran
      exact ⟨rfl, runbookCache, rfl⟩

theorem require_eq_ok {α : Type} {error : RuntimeError} {found : Option α} {value : α}
    {before after : Runtime} (ran : require error found before = (.ok value, after)) :
    found = some value ∧ before = after := by
  cases found with
  | none => cases ran
  | some present =>
      cases ran
      exact ⟨rfl, rfl⟩

def reloadEvent (state : WorkerState) (runbook : Runbook) : Option Event :=
  let json := outside.encodeRunbook runbook
  if state.runbookHash = outside.contentHash json then none
  else some (.runbookLoaded (outside.contentHash json) 1 json)

theorem refreshWorkerRunbook_ok {runtime : Runtime} {workerName : String} {state : WorkerState}
    {runbook : Runbook} (found : runtime.workerStates[workerName]? = some state)
    (readable : (runtime.readings 0).runbook = .ok (some runbook)) :
    refreshWorkerRunbook outside workerName runtime =
      (.ok (reloadEvent outside state runbook),
        runtime.reloaded outside workerName state runbook) := by
  unfold refreshWorkerRunbook
  rw [Program.run_bind]
  simp only [workerState, Program.run_read, found]
  rw [Program.run_bind]
  simp only [nextReading, readable, reloadEvent, Runtime.reloaded]
  split
  · rfl
  · rfl

theorem refreshWorkerRunbook_error {runtime : Runtime} {workerName : String} {state : WorkerState}
    (found : runtime.workerStates[workerName]? = some state)
    (unreadable : ∀ runbook, (runtime.readings 0).runbook ≠ .ok (some runbook)) :
    ∃ error, refreshWorkerRunbook outside workerName runtime =
      (.error error, runtime.afterReading) := by
  unfold refreshWorkerRunbook
  rw [Program.run_bind]
  simp only [workerState, Program.run_read, found]
  rw [Program.run_bind]
  cases read : (runtime.readings 0).runbook with
  | error error =>
      simp only [nextReading, read]
      exact ⟨_, rfl⟩
  | ok stored =>
      cases stored with
      | none =>
          simp only [nextReading, read]
          exact ⟨_, rfl⟩
      | some runbook => exact absurd read (unreadable runbook)

end Handler

end OddJobs
