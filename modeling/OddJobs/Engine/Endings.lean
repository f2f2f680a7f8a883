import OddJobs.Engine.ExternalWorkers
import OddJobs.Engine.JobMoves
import OddJobs.Engine.WriteAhead

/-!
# Ends of jobs

A job is completed, cancelled for good or failed for good: its effects are carried out,
and then its worker is told.  When an effect fails the worker is not told.
-/

namespace OddJobs

open Library

theorem step_applyJobAdvanced (clock : Clock) (id other : JobId) (step : String)
    (state : MaterializedState) :
    ((state.applyJobAdvanced clock id step).jobs[other]?).map (·.step) =
      if id = other then (state.jobs[other]?).map fun _ => step
      else (state.jobs[other]?).map (·.step) := by
  rw [MaterializedState.lookup_applyJobAdvanced]
  split
  · rw [Option.map_map]
    refine Option.map_congr fun job _ => ?_
    dsimp only [Function.comp_apply]
    split
    · rename_i skipped
      have same := (Bool.and_eq_true_iff.mp skipped).1
      exact eq_of_beq same
    · rw [Job.applyAdvanced_eq]
  · rfl

/-- A job that advances to a terminal step is not at work. -/
theorem ended_applyJobAdvanced (clock : Clock) (id : JobId) {step : String}
    (terminal : isTerminalStep step = true) (state : MaterializedState) :
    ((state.applyJobAdvanced clock id step).jobs[id]?).any (!·.isTerminal) = false := by
  have steps := step_applyJobAdvanced clock id id step state
  rw [if_pos rfl] at steps
  cases found : (state.applyJobAdvanced clock id step).jobs[id]? with
  | none => rfl
  | some job =>
      rw [found, Option.map_some] at steps
      obtain ⟨_, _, same⟩ := Option.map_eq_some_iff.mp steps.symm
      rw [Option.any_some, Job.isTerminal, ← same, terminal]
      rfl

theorem isSome_applyJobAdvanced (clock : Clock) (id other : JobId) (step : String)
    (state : MaterializedState) :
    ((state.applyJobAdvanced clock id step).jobs[other]?).isSome = (state.jobs[other]?).isSome := by
  rw [MaterializedState.lookup_applyJobAdvanced]
  split
  · exact Option.isSome_map
  · rfl

/-- What the end of a job leaves alone: the workers, their take commands and the other
jobs.  The job may end, and does not go back to work. -/
structure Parting (id : JobId) (before after : Runtime) : Prop where
  workers : after.workerStates = before.workerStates
  takes : after.world.takes = before.world.takes
  readings : ∃ read, ∀ n, after.readings n = before.readings (n + read)
  known : ∀ other : JobId, (after.world.state.jobs[other]?).isSome =
    (before.world.state.jobs[other]?).isSome
  others : ∀ other : JobId, other ≠ id → (after.world.state.jobs[other]?).map (·.step) =
    (before.world.state.jobs[other]?).map (·.step)
  ended : (before.world.state.jobs[id]?).any (!·.isTerminal) = false →
    (after.world.state.jobs[id]?).any (!·.isTerminal) = false

namespace Parting

variable {id : JobId} {before after : Runtime}

theorem of_jobs (workers : after.workerStates = before.workerStates)
    (takes : after.world.takes = before.world.takes)
    (readings : ∃ read, ∀ n, after.readings n = before.readings (n + read))
    (same : ∀ other : JobId, (after.world.state.jobs[other]?).map (·.step) =
      (before.world.state.jobs[other]?).map (·.step)) : Parting id before after where
  workers := workers
  takes := takes
  readings := readings
  known := fun other => by
    have present := congrArg Option.isSome (same other)
    rwa [Option.isSome_map, Option.isSome_map] at present
  others := fun other _ => same other
  ended := fun idle => by
    rw [atWork_eq, same, ← atWork_eq]
    exact idle

theorem closed (id : JobId) : Closed (Parting id) where
  refl := fun _ => of_jobs rfl rfl ⟨0, fun _ => rfl⟩ fun _ => rfl
  trans := fun {_ _ _} first second => by
    obtain ⟨early, firstReadings⟩ := first.readings
    obtain ⟨late, secondReadings⟩ := second.readings
    refine ⟨second.workers.trans first.workers, second.takes.trans first.takes,
      ⟨late + early, fun n => ?_⟩, fun other => (second.known other).trans (first.known other),
      fun other differs => (second.others other differs).trans (first.others other differs),
      fun idle => second.ended (first.ended idle)⟩
    rw [secondReadings, firstReadings, Nat.add_assoc]

theorem liveJobs (parting : Parting id before after) (jobs : List (JobId × String))
    (idle : (before.world.state.jobs[id]?).any (!·.isTerminal) = false) :
    liveJobs jobs after = OddJobs.liveJobs jobs before := by
  refine List.filter_congr fun entry _ => ?_
  rcases Decidable.em (entry.1 = id) with same | differs
  · rw [same, idle, parting.ended idle]
  · rw [atWork_eq, parting.others entry.1 differs, ← atWork_eq]

/-- A job that has ended is no longer among those at work. -/
theorem liveJobs_without (parting : Parting id before after) (jobs : List (JobId × String))
    (idle : (after.world.state.jobs[id]?).any (!·.isTerminal) = false) :
    OddJobs.liveJobs jobs after = (OddJobs.liveJobs jobs before).filter (·.1 ≠ id) := by
  unfold OddJobs.liveJobs
  rw [List.filter_filter]
  refine List.filter_congr fun entry _ => ?_
  rcases Decidable.em (entry.1 = id) with same | differs
  · rw [same, idle, decide_eq_false (not_not.mpr rfl), Bool.false_and]
  · rw [atWork_eq, parting.others entry.1 differs, ← atWork_eq, decide_eq_true differs,
      Bool.true_and]

end Parting

/-! ## The bounds of an end -/

/-- No job moves, except that this one may enter a terminal step. -/
def partingBounds (id : JobId) : Bounds where
  event event := event.movesJob = false ∨
    ∃ step, event = .jobAdvanced id step ∧ isTerminalStep step = true
  timer _ := True
  ends _ _ := False

theorem partingBounds_serves (id : JobId) : (partingBounds id).Serves id where
  spawned := fun _ _ _ => .inl rfl
  failed := fun _ _ => .inl rfl
  fails := .inr ⟨"failed", rfl, by decide⟩
  session := fun _ => .inl rfl
  sessionless := fun _ => .inl rfl
  removed := fun _ => .inl rfl
  liveness := trivial
  exitDeferred := trivial

theorem parting_applying {outside : Outside} {id : JobId} {event : Event}
    (within : (partingBounds id).event event) (runtime : Runtime) :
    Parting id runtime (runtime.applying outside.order event) := by
  rcases within with stays | ⟨step, rfl, terminal⟩
  · refine .of_jobs rfl rfl ⟨0, fun _ => rfl⟩ fun other => ?_
    have same := MaterializedState.applyEvent_sameHistory outside.order (runtime.world.clocks 0)
      runtime.world.state stays
    exact same.map_eq (fun _ _ history => history.step) other
  · let clock := runtime.world.clocks 0
    refine ⟨rfl, rfl, ⟨0, fun _ => rfl⟩,
      fun other => isSome_applyJobAdvanced clock id other step runtime.world.state,
      fun other differs => ?_, fun _ => ended_applyJobAdvanced clock id terminal runtime.world.state⟩
    exact (step_applyJobAdvanced clock id other step runtime.world.state).trans
      (if_neg (Ne.symm differs))

theorem partingCourse (outside : Outside) (id : JobId) :
    Course (partingBounds id) outside (Parting id) where
  toClosed := Parting.closed id
  aside := fun aside => .of_jobs aside.workers aside.takes aside.readings fun _ => by
    rw [aside.state]
  event := fun within runtime => parting_applying within runtime
  cleaning := fun _ _ => .of_jobs rfl rfl ⟨0, fun _ => rfl⟩ fun _ => rfl
  timers := fun _ _ _ => .of_jobs rfl rfl ⟨0, fun _ => rfl⟩ fun _ => rfl
  settles := fun _ _ never => never.elim

/-- Once the terminal step has been emitted, the job is not at work. -/
theorem executeAll_ends {outside : Outside} {id : JobId} {effects : List Effect} {step : String}
    {before after : Runtime} {events : List Event}
    (within : ∀ effect ∈ effects, effect.Within (partingBounds id))
    (terminal : isTerminalStep step = true) (member : .emit (.jobAdvanced id step) ∈ effects)
    (ran : Handler.executeAll outside effects before = (.ok events, after)) :
    (after.world.state.jobs[id]?).any (!·.isTerminal) = false := by
  have course := partingCourse outside id
  induction effects generalizing before events with
  | nil => cases member
  | cons effect rest ih =>
      have later : ∀ other ∈ rest, other.Within (partingBounds id) := fun other inRest =>
        within other (List.mem_cons_of_mem effect inRest)
      rw [Handler.executeAll_cons] at ran
      obtain ⟨_, middle, head, tail⟩ := Program.bind_eq_ok.mp ran
      obtain ⟨_, _, goesOn, returned⟩ := Program.bind_eq_ok.mp tail
      cases returned
      rcases List.mem_cons.mp member with rfl | inRest
      · have emitted : before.emitting outside.order (.jobAdvanced id step) = middle :=
          congrArg Prod.snd head
        have parting := course.executeAll_moves later middle
        rw [goesOn] at parting
        refine parting.ended ?_
        rw [← emitted]
        exact ended_applyJobAdvanced (before.world.clocks 0) id terminal before.world.state
      · exact ih later inRest goesOn

/-- What is told to the workers is no effect. -/
theorem Effect.Within.of_ends {bounds : Bounds} {ends : JobId → String → Prop} {effect : Effect}
    (within : effect.Within { bounds with ends }) : effect.Within bounds := by
  cases effect <;> exact within

theorem Handler.executeAll_performed {outside : Outside} {effects : List Effect}
    {runtime : Runtime} (performs : (Effect.performAll outside.order runtime.world.state
      runtime.world.replies effects).ok = true) :
    ∃ events after, Handler.executeAll outside effects runtime = (.ok events, after) := by
  have carries := @executeAll_carries outside.order _ runtime.world
    (.refl false runtime.world.state) effects
  unfold Handler.executeAll Handler.carryOut
  cases ran : Executor.executeAll outside.order effects runtime.world with
  | mk result world =>
      rw [ran] at carries
      cases result with
      | ok events => exact ⟨events, _, rfl⟩
      | error error =>
          have failed := carries.2
          rw [performs] at failed
          cases failed

/-! ## Ends -/

/-- How a job ends.  It may enter a step first, and be completed there. -/
inductive JobEnding where
  | complete (entering : Option String)
  | cancel
  | fail (error : String)

namespace JobEnding

def handler (outside : Outside) (job : Job) : JobEnding → Handler (List Event)
  | .complete none => Handler.completeJob outside job
  | .complete (some step) => do
      let moved ← Handler.executeAll outside (Steps.stepTransitionEffects job step)
      let completed ← Handler.completeJob outside job
      pure (moved ++ completed)
  | .cancel => Handler.terminateCancelled outside job
  | .fail error => Handler.terminateFailed outside job error

def terminalStep : JobEnding → String
  | .complete _ => "done"
  | .cancel => "cancelled"
  | .fail _ => "failed"

/-- Where the effects begin: the step that is entered has been. -/
def begun (outside : Outside) (job : Job) (runtime : Runtime) : JobEnding → Runtime
  | .complete (some step) => runtime.emitting outside.order (.jobAdvanced job.id step)
  | _ => runtime

/-- The workspace of the job is deleted, if there is one. -/
def cleanupEffects (order : WalkOrder) (job : Job) (state : MaterializedState) : List Effect :=
  let owned := (Table.findKey? order state.workspaces fun workspace =>
    workspace.owner == some (.job job.id)).bind fun key => (state.workspaces[key]?).map (·.id)
  match job.workspaceId.or owned with
  | none => []
  | some workspaceId =>
      if state.workspaces.contains workspaceId then [.deleteWorkspace workspaceId] else []

def effects (order : WalkOrder) (job : Job) (state : MaterializedState) : JobEnding → List Effect
  | .complete _ => Steps.completionEffects job ++ cleanupEffects order job state
  | .cancel => Steps.cancellationEffects job ++ cleanupEffects order job state
  | .fail error => Steps.failureEffects job error

/-- The adapters do what the end of the job asks for: its session is killed, and its
workspace is removed. -/
def Succeeds (outside : Outside) (job : Job) (ending : JobEnding) (runtime : Runtime) : Prop :=
  let begun := ending.begun outside job runtime
  (Effect.performAll outside.order begun.world.state begun.world.replies
    (ending.effects outside.order job begun.world.state)).ok = true

/-- A step that is entered is terminal, and a job that has ended before is no longer at
work. -/
structure Enters (job : Job) (ending : JobEnding) (runtime : Runtime) : Prop where
  terminal : ∀ step, ending = .complete (some step) → isTerminalStep step = true
  ended : job.isTerminal = true →
    (runtime.world.state.jobs[job.id]?).any (!·.isTerminal) = false

section Runs

variable {outside : Outside} {job : Job} {ending : JobEnding} {runtime : Runtime}

theorem workspaceCleanupEffects_run (outside : Outside) (job : Job) (runtime : Runtime) :
    Handler.workspaceCleanupEffects outside job runtime =
      (.ok (cleanupEffects outside.order job runtime.world.state), runtime) := by
  unfold Handler.workspaceCleanupEffects cleanupEffects
  rw [Program.run_bind]
  simp only [Handler.readState, Program.run_read]
  generalize job.workspaceId.or _ = chosen
  cases chosen with
  | none => rfl
  | some workspaceId => rfl

theorem effects_within (order : WalkOrder) (state : MaterializedState) :
    ∀ effect ∈ ending.effects order job state, effect.Within (partingBounds job.id) := by
  have serves := partingBounds_serves job.id
  let told : Bounds := { partingBounds job.id with ends := fun _ _ => True }
  have tells : told.Serves job.id := ⟨serves.1, serves.2, serves.3, serves.4, serves.5, serves.6,
    trivial, trivial⟩
  have cleans : ∀ effect ∈ cleanupEffects order job state,
      effect.Within (partingBounds job.id) := by
    intro effect member
    unfold cleanupEffects at member
    dsimp only at member
    split at member
    · cases member
    · split at member
      · rw [List.mem_singleton.mp member]
        exact serves.removed _
      · cases member
  intro effect member
  cases ending with
  | fail error => exact Course.failureEffects_within serves error effect member
  | cancel =>
      rcases List.mem_append.mp member with cancelling | cleanup
      · have cancels : told.Cancels job := ⟨fun _ => .inr ⟨"cancelled", rfl, by decide⟩, trivial⟩
        exact .of_ends (Course.cancellationEffects_within tells cancels effect cancelling)
      · exact cleans effect cleanup
  | complete entering =>
      rcases List.mem_append.mp member with completing | cleanup
      · have completes : told.Completes job :=
          ⟨fun _ => .inr ⟨"done", rfl, by decide⟩, .inl rfl, trivial⟩
        exact .of_ends (Course.completionEffects_within tells completes effect completing)
      · exact cleans effect cleanup

/-- Unless the job has ended before, its effects emit its terminal step. -/
theorem ends_effects (order : WalkOrder) (state : MaterializedState) (going : job.isTerminal = false) :
    .emit (.jobAdvanced job.id ending.terminalStep) ∈ ending.effects order job state := by
  cases ending with
  | fail error =>
      unfold effects terminalStep Steps.failureEffects
      simp
  | cancel =>
      unfold effects terminalStep Steps.cancellationEffects
      simp [going]
  | complete entering =>
      unfold effects terminalStep Steps.completionEffects
      simp [going]

/-- Once the effects are carried out, the worker is told. -/
theorem handler_run {carried : Runtime} {events : List Event}
    (ran : Handler.executeAll outside (ending.effects outside.order job
      (ending.begun outside job runtime).world.state) (ending.begun outside job runtime) =
        (.ok events, carried)) :
    Parting job.id (Handler.checkWorkerJobComplete outside job.id ending.terminalStep carried).2
      (ending.handler outside job runtime).2 := by
  have closed := Parting.closed job.id
  have completed : ∀ before : Runtime, Handler.executeAll outside
      (Steps.completionEffects job ++ cleanupEffects outside.order job before.world.state) before =
        (.ok events, carried) →
      Parting job.id (Handler.checkWorkerJobComplete outside job.id "done" carried).2
        (Handler.completeJob outside job before).2 := by
    intro before ran
    unfold Handler.completeJob
    rw [Program.bind_ok (workspaceCleanupEffects_run outside job before), Program.bind_ok ran]
    refine Program.Moves.rest closed (fun settled => ?_) _ carried
    exact ((partingCourse outside job.id).notifyDone_moves job).bind closed fun _ =>
      Program.moves_pure closed _
  cases ending with
  | complete entering =>
      cases entering with
      | none => exact completed runtime ran
      | some step =>
          have moved : (JobEnding.handler outside job (.complete (some step)) runtime).2 =
              (Handler.completeJob outside job
                (runtime.emitting outside.order (.jobAdvanced job.id step))).2 := by
            have entered := Handler.executeAll_emit outside (.jobAdvanced job.id step) runtime
            exact (congrArg Prod.snd (Program.bind_ok entered)).trans
              (Program.bind_pure_state _ _ _)
          rw [moved]
          exact completed _ ran
  | cancel =>
      have cancelled : Handler.executeAll outside (Steps.cancellationEffects job ++
          cleanupEffects outside.order job runtime.world.state) runtime = (.ok events, carried) := ran
      change Parting job.id _ (Handler.terminateCancelled outside job runtime).2
      unfold Handler.terminateCancelled
      rw [Program.bind_ok (workspaceCleanupEffects_run outside job runtime),
        Program.bind_ok cancelled]
      exact Program.Moves.rest closed (fun _ => Program.moves_pure closed _) _ carried
  | fail error =>
      have failed : Handler.executeAll outside (Steps.failureEffects job error) runtime =
          (.ok events, carried) := ran
      change Parting job.id _ (Handler.terminateFailed outside job error runtime).2
      unfold Handler.terminateFailed
      rw [Program.bind_ok failed]
      exact Program.Moves.rest closed (fun _ => Program.moves_pure closed _) _ carried

/-- When the effects succeed, the job has ended by the time its worker is told. -/
theorem handler_tells (succeeds : ending.Succeeds outside job runtime)
    (enters : ending.Enters job runtime) :
    ∃ carried, Parting job.id runtime carried ∧
      (carried.world.state.jobs[job.id]?).any (!·.isTerminal) = false ∧
      Parting job.id (Handler.checkWorkerJobComplete outside job.id ending.terminalStep carried).2
        (ending.handler outside job runtime).2 := by
  let begun := ending.begun outside job runtime
  let effects := ending.effects outside.order job begun.world.state
  have closed := Parting.closed job.id
  have within : ∀ effect ∈ effects, effect.Within (partingBounds job.id) :=
    effects_within outside.order begun.world.state
  have starts : Parting job.id runtime begun := by
    cases ending with
    | complete entering =>
        cases entering with
        | none => exact closed.refl _
        | some step =>
            have applied := @parting_applying outside job.id _
              (.inr ⟨step, rfl, enters.terminal step rfl⟩) runtime
            exact closed.trans applied (.of_jobs rfl rfl ⟨0, fun _ => rfl⟩ fun _ => rfl)
    | cancel | fail => exact closed.refl _
  obtain ⟨events, carried, ran⟩ := Handler.executeAll_performed succeeds
  have moved : Parting job.id begun carried :=
    ((partingCourse outside job.id).executeAll_moves within).ended ran
  refine ⟨carried, closed.trans starts moved, ?_, handler_run ran⟩
  cases going : job.isTerminal with
  | true => exact moved.ended (starts.ended (enters.ended going))
  | false =>
      have terminal : isTerminalStep ending.terminalStep = true := by
        cases ending <;> rfl
      exact executeAll_ends within terminal (ends_effects outside.order _ going) ran

end Runs

end JobEnding

end OddJobs
