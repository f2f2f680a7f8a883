import OddJobs.Daemon.EngineLoop
import OddJobs.Engine.Dispatch

/-!
# Taken items

When a worker has polled a persisted queue it takes items, and each of them is to end
up with a job at work.  An error in the creation of the job leaves the item active.
-/

namespace OddJobs

open Library

def Runtime.atWork (workerName : String) (runtime : Runtime) : Runtime :=
  { runtime with workerStates := runtime.workerStates.modify workerName fun state =>
      { state with status := .running } }

def pollStart (outside : Outside) (workerName : String) (items : List Value) (runtime : Runtime) :
    Option (WorkerState × Runtime) :=
  match Handler.refreshWorkerRunbook outside workerName runtime with
  | (.error _, _) => none
  | (.ok _, refreshed) =>
      (refreshed.workerStates[workerName]?).bind fun state =>
        if state.status = .stopped ∨ state.available = 0 ∨ items.isEmpty then none
        else
          match Handler.cachedRunbook outside state.runbookHash refreshed with
          | (.error _, _) => none
          | (.ok runbook, looked) =>
              (runbook.getQueue state.queueName).map fun _ =>
                (state, looked.atWork workerName)

def pollTurns (outside : Outside) (workerName : String) (items : List Value) (runtime : Runtime) :
    List (Value × Runtime) :=
  match pollStart outside workerName items runtime with
  | none => []
  | some (state, start) =>
      dispatchTurns outside workerName state.queueName state.ns state.available items start

section Polls

variable {outside : Outside} {workerName : String} {state : WorkerState} {items : List Value}
  {runtime : Runtime}

/-- Only the status of the worker, the runbook it follows, and readings are used up. -/
structure Retouched (workerName : String) (before after : Runtime) : Prop where
  state : after.world.state = before.world.state
  readings : ∃ read, ∀ n, after.readings n = before.readings (n + read)
  workers : ∃ update : WorkerState → WorkerState,
    after.workerStates = before.workerStates.modify workerName update ∧
    ∀ state, (update state).activeJobs = state.activeJobs ∧
      (update state).itemJobMap = state.itemJobMap ∧ (update state).queueName = state.queueName ∧
      (update state).ns = state.ns ∧ (update state).queueType = state.queueType

namespace Retouched

variable {before after : Runtime}

theorem trans {first second third : Runtime} (early : Retouched workerName first second)
    (late : Retouched workerName second third) : Retouched workerName first third where
  state := late.state.trans early.state
  readings := by
    obtain ⟨before, earlyReadings⟩ := early.readings
    obtain ⟨after, lateReadings⟩ := late.readings
    refine ⟨after + before, fun n => ?_⟩
    rw [lateReadings, earlyReadings, Nat.add_assoc]
  workers := by
    obtain ⟨inner, earlyWorkers, earlyKeeps⟩ := early.workers
    obtain ⟨outer, lateWorkers, lateKeeps⟩ := late.workers
    refine ⟨outer ∘ inner, ?_, fun state => ?_⟩
    · rw [lateWorkers, earlyWorkers, Table.modify_modify]
    · obtain ⟨active, items, queue, ns, type⟩ := lateKeeps (inner state)
      obtain ⟨active', items', queue', ns', type'⟩ := earlyKeeps state
      exact ⟨active.trans active', items.trans items', queue.trans queue', ns.trans ns',
        type.trans type'⟩

theorem of_aside (aside : Aside outside before after) : Retouched workerName before after where
  state := aside.state
  readings := aside.readings
  workers := by
    have unchanged : before.workerStates.modify workerName id = before.workerStates :=
      Table.modify_id before.workerStates workerName fun _ _ => rfl
    exact ⟨id, aside.workers.trans unchanged.symm, fun _ => ⟨rfl, rfl, rfl, rfl, rfl⟩⟩

theorem atWork (runtime : Runtime) : Retouched workerName runtime (runtime.atWork workerName) :=
  ⟨rfl, ⟨0, fun _ => rfl⟩, _, rfl, fun _ => ⟨rfl, rfl, rfl, rfl, rfl⟩⟩

theorem reloaded (state : WorkerState) (runbook : Runbook) (runtime : Runtime) :
    Retouched workerName runtime (runtime.reloaded outside workerName state runbook) := by
  unfold Runtime.reloaded
  dsimp only
  split
  · exact of_aside (nextReading_aside outside runtime)
  · exact ⟨rfl, ⟨1, fun _ => rfl⟩, _, rfl, fun _ => ⟨rfl, rfl, rfl, rfl, rfl⟩⟩

variable (same : Retouched workerName before after)

include same

theorem worker (found : before.workerStates[workerName]? = some state) :
    ∃ current, after.workerStates[workerName]? = some current ∧
      current.itemJobMap = state.itemJobMap ∧ current.queueName = state.queueName ∧
      current.ns = state.ns ∧ current.queueType = state.queueType := by
  obtain ⟨update, workers, keeps⟩ := same.workers
  refine ⟨update state, ?_, (keeps state).2⟩
  rw [workers, Table.lookup_modify, if_pos rfl, found, Option.map_some]

theorem fresh (fresh : FreshIds before) : FreshIds after := by
  obtain ⟨update, workers, keeps⟩ := same.workers
  obtain ⟨read, readings⟩ := same.readings
  constructor
  · intro m n differs
    rw [readings, readings]
    exact fresh.apart _ _ (by omega)
  · intro n
    rw [readings, same.state]
    exact fresh.jobs (n + read)
  · intro n name state found
    rw [readings]
    rw [workers, Table.lookup_modify] at found
    split at found
    · obtain ⟨prior, present, rfl⟩ := Option.map_eq_some_iff.mp found
      obtain ⟨active, items, _⟩ := keeps prior
      rw [active, items]
      exact fresh.workers (n + read) name prior present
    · exact fresh.workers (n + read) name state found

theorem working (found : before.workerStates[workerName]? = some state) (itemId : String) :
    Working workerName itemId after ↔ Working workerName itemId before := by
  obtain ⟨current, present, items, _⟩ := same.worker found
  unfold Working JobEnded
  rw [same.state, found, present]
  simp only [Option.some.injEq, exists_and_left, exists_eq_left', items]

theorem itemStatus (key itemId : String) :
    after.itemStatus key itemId = before.itemStatus key itemId := by
  unfold Runtime.itemStatus
  rw [same.state]

end Retouched

/-- A poll changes nothing of the items and of their jobs until it dispatches. -/
theorem handleWorkerPollComplete_run (found : runtime.workerStates[workerName]? = some state)
    (persisted : state.queueType = .persisted) :
    let after := (Handler.handleWorkerPollComplete outside workerName items runtime).2
    match pollStart outside workerName items runtime with
    | none => Retouched workerName runtime after
    | some (current, start) => Retouched workerName runtime start ∧
        current.queueName = state.queueName ∧ current.ns = state.ns ∧
        after = (Handler.dispatchItems outside workerName current.queueName current.ns
          current.available items start).2 := by
  intro after
  unfold pollStart
  rcases Classical.em (∃ runbook, (runtime.readings 0).runbook = .ok (some runbook)) with
    ⟨runbook, readable⟩ | unreadable
  · have refreshes := Handler.refreshWorkerRunbook_ok outside found readable
    let refreshed := runtime.reloaded outside workerName state runbook
    have reloaded : Retouched workerName runtime refreshed := .reloaded state runbook runtime
    obtain ⟨current, present, _, queueName, ns, queueType⟩ := reloaded.worker found
    rw [persisted] at queueType
    have goesOn : Handler.handleWorkerPollComplete outside workerName items runtime = _ :=
      (Program.bind_ok refreshes).trans (Program.run_bind _ _ _)
    simp only [Handler.workerState, Program.run_read] at goesOn
    rw [refreshes]
    dsimp only
    change refreshed.workerStates[workerName]? = some current at present
    rw [present] at goesOn ⊢
    dsimp only [Option.bind_some] at goesOn ⊢
    split at goesOn
    · rename_i stopped
      rw [if_pos (.inl stopped)]
      have ended : after = refreshed := congrArg Prod.snd goesOn
      rw [ended]
      exact reloaded
    · rename_i running
      split at goesOn
      · rename_i idle
        rw [if_pos (.inr idle)]
        have ended : after = refreshed.atWork workerName := congrArg Prod.snd goesOn
        rw [ended]
        exact reloaded.trans (.atWork refreshed)
      · rename_i busy
        rw [if_neg (not_or.mpr ⟨running, busy⟩)]
        cases known : refreshed.runbookAt outside current.runbookHash with
        | none =>
            obtain ⟨error, unreadable⟩ := Handler.cachedRunbook_unknown outside known
            have ended : after = refreshed :=
              congrArg Prod.snd (goesOn.trans (Program.bind_error unreadable))
            rw [unreadable, ended]
            exact reloaded
        | some book =>
            obtain ⟨runbookCache, readBook, aside, _⟩ := Handler.cachedRunbook_known outside known
            have looked := reloaded.trans (.of_aside aside)
            have goesOn := goesOn.trans (Program.bind_ok readBook)
            rw [readBook]
            dsimp only
            cases queue : book.getQueue current.queueName with
            | none =>
                rw [queue] at goesOn
                have ended : after = _ := congrArg Prod.snd goesOn
                rw [Option.map_none, ended]
                exact looked
            | some queueDef =>
                rw [queue] at goesOn
                have goesOn := (goesOn.trans (Program.bind_ok rfl)).trans (Program.bind_ok rfl)
                rw [queueType] at goesOn
                rw [Option.map_some]
                refine ⟨looked.trans (.atWork _), queueName, ns, ?_⟩
                exact (congrArg Prod.snd goesOn).trans (Program.bind_pure_state _ _ _)
  · have unreadable' : ∀ runbook, (runtime.readings 0).runbook ≠ .ok (some runbook) :=
      fun runbook read => unreadable ⟨runbook, read⟩
    obtain ⟨error, fails⟩ := Handler.refreshWorkerRunbook_error outside found unreadable'
    have stopped : after = runtime.afterReading :=
      congrArg Prod.snd (Program.bind_error fails)
    rw [fails, stopped]
    exact .of_aside (nextReading_aside outside runtime)

theorem handleWorkerPollComplete_ends (found : runtime.workerStates[workerName]? = some state)
    (persisted : state.queueType = .persisted) (fresh : FreshIds runtime) (itemId : String) :
    ItemEnds outside workerName (scopedName state.ns state.queueName) itemId
      (pollTurns outside workerName items runtime) runtime
      (Handler.handleWorkerPollComplete outside workerName items runtime).2 := by
  have ran := @handleWorkerPollComplete_run outside workerName state items runtime found persisted
  unfold pollTurns
  cases begins : pollStart outside workerName items runtime with
  | none =>
      rw [begins] at ran
      refine ⟨fun _ => ⟨ran.itemStatus _ itemId, ran.working found itemId⟩, ?_⟩
      intro turn member
      cases member
  | some entry =>
      obtain ⟨current, start⟩ := entry
      rw [begins] at ran
      obtain ⟨retouched, queueName, ns, ended⟩ := ran
      have ends := @dispatchItems_ends outside workerName current.queueName current.ns itemId items
        current.available start (retouched.fresh fresh)
      rw [← ended] at ends
      dsimp only
      rw [← queueName, ← ns]
      constructor
      · intro noTurn
        obtain ⟨sameStatus, sameJobs⟩ := ends.noTurn noTurn
        exact ⟨sameStatus.trans (retouched.itemStatus _ itemId),
          sameJobs.trans (retouched.working found itemId)⟩
      · intro turn member same
        obtain ⟨waits, active, works⟩ := ends.turn turn member same
        exact ⟨(retouched.itemStatus _ itemId).symm.trans waits, active, works⟩

/-- An item that a poll takes is accounted for, by a job at work that the worker has
for it, exactly if there was one already at its turn, or its job can be created. -/
theorem handleWorkerPollComplete_accounts_iff
    (found : runtime.workerStates[workerName]? = some state)
    (persisted : state.queueType = .persisted) (fresh : FreshIds runtime) (itemId : String) :
    let after := (Handler.handleWorkerPollComplete outside workerName items runtime).2
    let key := scopedName state.ns state.queueName
    (runtime.itemStatus key itemId = some .pending → after.itemStatus key itemId ≠ some .pending →
      after.itemStatus key itemId = some .active → Working workerName itemId after) ↔
      ∀ turn ∈ pollTurns outside workerName items runtime, itemIdOf turn.1 = itemId →
        Working workerName itemId turn.2 ∨ CanDispatch outside workerName turn.1 turn.2 := by
  intro after key
  have ends := @handleWorkerPollComplete_ends outside workerName state items runtime found
    persisted fresh itemId
  constructor
  · intro accounted turn member same
    obtain ⟨waits, active, works⟩ := ends.turn turn member same
    refine works.mp (accounted waits ?_ active)
    intro waiting
    have both := active.symm.trans waiting
    cases both
  · intro able waits taken _
    by_contra lost
    have noTurn : ∀ turn ∈ pollTurns outside workerName items runtime,
        itemIdOf turn.1 ≠ itemId := by
      intro turn member same
      obtain ⟨_, _, works⟩ := ends.turn turn member same
      exact lost (works.mpr (able turn member same))
    exact taken ((ends.noTurn noTurn).1.trans waits)

end Polls

def Runbook.tagged : Runbook :=
  { Runbook.shop with jobs := (∅ : HashMap JobDef).insert "build" {
      kind := "build"
      locals := (∅ : HashMap String).insert "version" "$(git describe)"
      steps := [{ name := "plan", run := .shell "true" }] } }

def Runtime.shellFails (runbook : Runbook) (state : MaterializedState) : Runtime :=
  let idle := Runtime.idle runbook state
  { idle with readings := fun n =>
      { idle.readings n with bash := fun _ _ => .ok ⟨false, "", "no tags"⟩ } }

/-- Without jobs, none is at work on an item. -/
theorem not_working_of_no_jobs {runtime : Runtime}
    (noJobs : runtime.world.state.jobs.isEmpty = true) (workerName itemId : String) :
    ¬Working workerName itemId runtime := by
  rintro ⟨_, id, _, _, job, found, _⟩
  rw [Std.ExtTreeMap.isEmpty_iff.mp noJobs, Table.lookup_empty] at found
  cases found

/-- A local of the job cannot be evaluated.  The item stays active without a job, and
nothing is left to be processed. -/
theorem failed_local_loses_item :
    let daemon := (Daemon.shop (.shellFails .tagged {})).steps (.plain .tagged) .silent 3
    let polled := daemon.runtime.world.state.pendingItems .byKey "parts"
    let after :=
      (Handler.handleWorkerPollComplete (.plain .tagged) "joiner" polled daemon.runtime).2
    daemon.runtime.itemStatus "parts" "item" = some .pending ∧
      after.itemStatus "parts" "item" = some .active ∧ ¬Working "joiner" "item" after ∧
      (daemon.step (.plain .tagged) .silent).log.isEmpty = true := by
  intro daemon polled after
  have noJobs : after.world.state.jobs.isEmpty = true := by decide +kernel
  refine ⟨?_, ?_, not_working_of_no_jobs noJobs "joiner" "item", ?_⟩
  · decide +kernel
  · decide +kernel
  · decide +kernel

/-- A runtime that gives out ids of which none is the beginning of another one. -/
def Runtime.numbered (runbook : Runbook) (state : MaterializedState) : Runtime :=
  let idle := Runtime.idle runbook state
  { idle with readings := fun n =>
      { idle.readings n with uuid := String.ofList (List.replicate n 'a' ++ ['b']) } }

theorem numbered_apart {m n : Nat} (differs : m ≠ n) :
    ¬(List.replicate m 'a' ++ ['b'] <+: List.replicate n 'a' ++ ['b']) := by
  induction m generalizing n with
  | zero =>
      cases n with
      | zero => exact absurd rfl differs
      | succ n =>
          rintro ⟨rest, same⟩
          cases same
  | succ m ih =>
      cases n with
      | zero =>
          rintro ⟨rest, same⟩
          cases same
      | succ n =>
          intro begins
          exact ih (by omega) (List.cons_prefix_cons.mp begins).2

def idleJoiner : WorkerState where
  projectRoot := "/"
  runbookHash := "hash"
  queueName := "parts"
  jobKind := "build"
  concurrency := 1
  activeJobs := ∅
  status := .running
  queueType := .persisted
  itemJobMap := ∅
  ns := ""
  pollInterval := none
  pendingTakes := 0
  inflightItems := ∅

/-- In surroundings that answer well, an item that is polled can be dispatched. -/
theorem polled_item_can_be_dispatched :
    let state := ({} : MaterializedState).replay (fun _ => .byKey) (fun _ => ⟨0, 0⟩) 0
      [.runbookLoaded "hash" 1 .null, .queuePushed "parts" "item" ∅ 0 ""]
    let runtime : Runtime := { Runtime.numbered .shop state with
      workerStates := (∅ : HashMap WorkerState).insert "joiner" idleJoiner }
    let polled := state.pendingItems .byKey "parts"
    ∀ turn ∈ pollTurns (.plain .shop) "joiner" polled runtime, itemIdOf turn.1 = "item" →
      Working "joiner" "item" turn.2 ∨ CanDispatch (.plain .shop) "joiner" turn.1 turn.2 := by
  intro state runtime polled
  have found : runtime.workerStates["joiner"]? = some idleJoiner := by
    change ((∅ : HashMap WorkerState).insert "joiner" idleJoiner)["joiner"]? = _
    rw [Table.lookup_insert, if_pos rfl]
  have fresh : FreshIds runtime := by
    refine ⟨?_, ?_, ?_⟩
    · intro m n differs
      change ¬((String.ofList _).toList <+: (String.ofList _).toList)
      rw [String.toList_ofList, String.toList_ofList]
      exact numbered_apart differs
    · intro n id job present
      have noJobs : runtime.world.state.jobs.isEmpty = true := by decide +kernel
      rw [Std.ExtTreeMap.isEmpty_iff.mp noJobs, Table.lookup_empty] at present
      cases present
    · intro n name worker present
      change ((∅ : HashMap WorkerState).insert "joiner" idleJoiner)[name]? = _ at present
      rw [Table.lookup_insert] at present
      split at present
      · cases present
        exact ⟨Std.ExtTreeMap.contains_empty, Table.lookup_empty _⟩
      · rw [Table.lookup_empty] at present
        cases present
  have accounts := @handleWorkerPollComplete_accounts_iff (.plain .shop) "joiner" idleJoiner polled
    runtime found rfl fresh "item"
  refine accounts.mp ?_
  intro _ _ _
  have tracked : (((Handler.handleWorkerPollComplete (.plain .shop) "joiner" polled
      runtime).2.workerStates["joiner"]?).bind fun worker => worker.itemJobMap["ab"]?) =
      some "item" := by
    decide +kernel
  have atWork : ((((Handler.handleWorkerPollComplete (.plain .shop) "joiner" polled
      runtime).2).world.state.jobs["ab"]?).map (·.isTerminal)) = some false := by
    decide +kernel
  obtain ⟨worker, present, mapped⟩ := Option.bind_eq_some_iff.mp tracked
  obtain ⟨job, stored, live⟩ := Option.map_eq_some_iff.mp atWork
  exact ⟨worker, "ab", present, mapped, job, stored, live⟩

end OddJobs
