import OddJobs.Engine.Timers
import OddJobs.Storage.Frames

/-!
# Timers and visits

A timer is named by its job alone, while the job moves from one visit of a step to the
next.  Leaving a step cancels neither the cooldown nor the idle-grace timer, so that a timer
may fire in a later visit than the one in which it was set.
-/

namespace OddJobs

open Library

/-- Every event keeps the jobs under their own ids. -/
theorem MaterializedState.Keyed.applyEvent {state : MaterializedState} (keyed : state.Keyed)
    (order : WalkOrder) (clock : Clock) (event : Event) :
    (state.applyEvent order clock event).Keyed := by
  intro id job found
  cases moves : event.movesJob with
  | false =>
      obtain ⟨prior, present, same⟩ :=
        (applyEvent_sameHistory order clock state moves).prior found
      exact same.id.trans (keyed id prior present)
  | true =>
      cases event with
      | jobCreated jobId kind name hash cwd vars initialStep createdAt ns cronName =>
          change (state.jobs.insert jobId _)[id]? = some job at found
          rw [Table.lookup_insert] at found
          split at found
          · rename_i own
            cases found
            exact own
          · exact keyed id job found
      | jobDeleted jobId =>
          change (state.jobs.erase jobId)[id]? = some job at found
          rw [Table.lookup_erase] at found
          split at found
          · cases found
          · exact keyed id job found
      | jobAdvanced jobId step =>
          change (state.applyJobAdvanced clock jobId step).jobs[id]? = some job at found
          rw [lookup_applyJobAdvanced] at found
          split at found
          · obtain ⟨prior, present, rfl⟩ := Option.map_eq_some_iff.mp found
            have own := keyed id prior present
            split
            · exact own
            · rw [Job.applyAdvanced_eq]
              exact own
          · exact keyed id job found
      | _ => cases moves

structure Firing where
  timer : StepTimer
  before : Runtime
  after : Runtime

/-- The engine, the timers of a job that are set or have fired, each with the visit in which
it was set, and the firings that came in another visit. -/
structure TimerRun where
  runtime : Runtime
  pending : List (StepTimer × Nat)
  late : List Firing

/-- The job sets a timer, a timer fires, or the engine handles an event. -/
inductive TimerMove where
  | set (timer : StepTimer)
  | fire (timer : StepTimer) (visit : Nat)
  | handle (event : Event)

def Runtime.visit (id : JobId) (runtime : Runtime) : Nat :=
  ((runtime.world.state.jobs[id]?).map (·.stepHistory.length)).getD 0

namespace TimerRun

variable (outside : Outside) (others : OtherHandlers) (id : JobId)

def next (run : TimerRun) : TimerMove → TimerRun
  | .set timer => { run with pending := run.pending ++ [(timer, run.runtime.visit id)] }
  | .fire timer visit =>
      let after := (Handler.handleStepTimer outside timer run.runtime).2
      { runtime := after
        pending := run.pending.erase (timer, visit)
        late := if visit = run.runtime.visit id then run.late
          else run.late ++ [⟨timer, run.runtime, after⟩] }
  | .handle event =>
      { run with runtime := (Handler.processEvent outside others event run.runtime).2 }

/-- A move that may come next: the job sets its own timers, and timers fire that are set. -/
def Concerns (run : TimerRun) : TimerMove → Prop
  | .set timer => timer = .idleGrace id ∨ ∃ (trigger : String) (chainPos : Nat),
      timer = .cooldown (id ++ ":" ++ trigger ++ ":" ++ toString chainPos)
  | .fire timer visit => (timer, visit) ∈ run.pending ∧ run.runtime.world.state.Keyed
  | .handle _ => True

inductive Reaches : TimerRun → Prop where
  | start (runtime : Runtime) : Reaches ⟨runtime, [], []⟩
  | next {run : TimerRun} {move : TimerMove} (reaches : Reaches run)
      (concerns : run.Concerns id move) : Reaches (run.next outside others id move)

variable {outside others id}

/-- A firing that is recorded is one of a handler. -/
theorem Reaches.late_fires {run : TimerRun} (reaches : Reaches outside others id run) :
    ∀ firing ∈ run.late, firing.before.world.state.Keyed ∧
      firing.after = (Handler.handleStepTimer outside firing.timer firing.before).2 := by
  induction reaches with
  | start runtime =>
      intro firing member
      cases member
  | @next run move _ concerns ih =>
      cases move with
      | set timer => exact ih
      | handle event => exact ih
      | fire timer visit =>
          intro firing member
          dsimp only [TimerRun.next] at member
          split at member
          · exact ih firing member
          · rcases List.mem_append.mp member with old | new
            · exact ih firing old
            · rw [List.mem_singleton.mp new]
              exact ⟨concerns.2, rfl⟩

/-- The timers that fire in another visit do nothing exactly when each of them finds
nothing to act on. -/
theorem late_timers_harmless_iff (outside : Outside) (others : OtherHandlers) (id : JobId)
    {run : TimerRun} (reaches : Reaches outside others id run) :
    (∀ firing ∈ run.late, Harmless firing.before firing.after) ↔
      ∀ firing ∈ run.late, firing.timer.Exits outside firing.before := by
  refine forall₂_congr fun firing member => ?_
  obtain ⟨keyed, fired⟩ := reaches.late_fires firing member
  rw [fired]
  exact Handler.handleStepTimer_harmless_iff outside keyed firing.timer

theorem exits_of_late {run : TimerRun} {timer : StepTimer} {before after : Runtime}
    (late : run.late = [⟨timer, before, after⟩]) (exits : timer.Exits outside before) :
    ∀ firing ∈ run.late, firing.timer.Exits outside firing.before := by
  rw [late]
  exact List.forall_mem_singleton.mpr exits

/-! ## A job that plans and goes on -/

def planning (second : RunDirective) : Runbook where
  jobs := (∅ : HashMap JobDef).insert "build"
    { kind := "build"
      steps := [{ name := "plan", run := .agent "planner" none, onDone := some ⟨"code"⟩ },
        { name := "code", run := second }] }
  agents := ((∅ : HashMap AgentDef).insert "planner" {
    name := "planner"
    onDead := .simple .done }).insert "coder" { name := "coder" }

/-- The planner has been idle, and its log was 120 bytes long then. -/
def planned : MaterializedState :=
  (({} : MaterializedState).replay (fun _ => .byKey) (fun _ => ⟨0, 0⟩) 0
    [.runbookLoaded "hash" 1 .null,
      .jobCreated "job" "build" "build" "hash" "/" ∅ "plan" 0 "" none,
      .stepStarted "job" "plan" (some "first") (some "planner")]).updateJob "job" fun job =>
    { job with idleGraceLogSize := some 120 }

def begun (second : RunDirective) : TimerRun where
  runtime := { Runtime.idle (planning second) planned with
    agentOwners := (∅ : HashMap OwnerId).insert "first" (.job "job")
    readings := fun n => { (Runtime.idle (planning second) planned).readings n with
      plan := .ok ⟨"second", ∅, "claude", [], "/", ∅⟩ } }
  pending := []
  late := []

def exited (second : RunDirective) : TimerRun :=
  ((begun second).next (.plain (planning second))
    (OtherHandlers.silent.withActions (.plain (planning second))) "job"
    (.set (.idleGrace "job"))).next (.plain (planning second))
    (OtherHandlers.silent.withActions (.plain (planning second))) "job"
    (.handle (.agentExited "first" (some 0) (.job "job")))

def overtaken (second : RunDirective) : TimerRun :=
  (exited second).next (.plain (planning second))
    (OtherHandlers.silent.withActions (.plain (planning second))) "job"
    (.fire (.idleGrace "job") 1)

theorem keyed_of_all {state : MaterializedState}
    (all : state.jobs.toList.all (fun entry => entry.2.id == entry.1) = true) : state.Keyed := by
  intro id job found
  have member := Std.ExtTreeMap.mem_toList_iff_getElem?_eq_some.mpr found
  exact beq_iff_eq.mp (List.all_eq_true.mp all (id, job) member)

theorem reaches_overtaken {second : RunDirective}
    (keyed : (exited second).runtime.world.state.Keyed) :
    Reaches (.plain (planning second)) (OtherHandlers.silent.withActions (.plain (planning second)))
      "job" (overtaken second) := by
  have visit : Runtime.visit "job" (begun second).runtime = 1 := by
    change ((planned.jobs["job"]?).map (·.stepHistory.length)).getD 0 = 1
    decide +kernel
  have begins := @Reaches.start (.plain (planning second))
    (OtherHandlers.silent.withActions (.plain (planning second))) "job" (begun second).runtime
  have sets := @Reaches.next _ _ _ _ (.set (.idleGrace "job")) begins (.inl rfl)
  have handles := @Reaches.next _ _ _ _ (.handle (.agentExited "first" (some 0) (.job "job")))
    sets trivial
  refine .next handles ⟨?_, keyed⟩
  change (StepTimer.idleGrace "job", 1) ∈ [(StepTimer.idleGrace "job",
    Runtime.visit "job" (begun second).runtime)]
  rw [visit]
  exact List.mem_singleton_self _

/-- The firing is late if the job is in another visit by then. -/
theorem late_overtaken {second : RunDirective}
    (later : Runtime.visit "job" (exited second).runtime = 2) :
    (overtaken second).late = [⟨.idleGrace "job", (exited second).runtime,
      (Handler.handleStepTimer (.plain (planning second)) (.idleGrace "job")
        (exited second).runtime).2⟩] := by
  have other : ¬1 = Runtime.visit "job" (exited second).runtime := by
    rw [later]
    decide
  exact if_neg other

/-- The grace period of the planner ends in an action on the step of the coder. -/
theorem idle_grace_of_another_step :
    ¬∀ (outside : Outside) (others : OtherHandlers) (id : JobId) (run : TimerRun),
      Reaches outside others id run →
        ∀ firing ∈ run.late, Harmless firing.before firing.after := by
  intro harmless
  have keyed := @keyed_of_all (exited (.agent "coder" none)).runtime.world.state (by decide +kernel)
  have late := @late_overtaken (.agent "coder" none) (by decide +kernel)
  have left := harmless _ _ _ _ (reaches_overtaken keyed) _ (late ▸ List.mem_singleton_self _)
  have applied := congrArg List.length left.applied
  exact absurd applied (by decide +kernel)

theorem exited_agentless (job : Job)
    (found : (exited (.shell "make")).runtime.world.state.getJob "job" = some job) :
    (exited (.shell "make")).runtime.agentOf (.plain (planning (.shell "make"))) job = none := by
  have agentless : ((exited (.shell "make")).runtime.world.state.getJob "job").all (fun job =>
      ((exited (.shell "make")).runtime.agentOf (.plain (planning (.shell "make")))
        job).isNone) = true := by
    decide +kernel
  rw [found, Option.all_some] at agentless
  exact Option.isNone_iff_eq_none.mp agentless

/-- It ends in nothing where the next step runs a command. -/
theorem idle_grace_at_a_shell_step :
    (overtaken (.shell "make")).late.length = 1 ∧
      ∀ firing ∈ (overtaken (.shell "make")).late, Harmless firing.before firing.after := by
  have keyed := @keyed_of_all (exited (.shell "make")).runtime.world.state (by decide +kernel)
  have late := @late_overtaken (.shell "make") (by decide +kernel)
  have exits := StepTimer.exits_of_agentless exited_agentless
  have iff := late_timers_harmless_iff (.plain (planning (.shell "make")))
    (OtherHandlers.silent.withActions (.plain (planning (.shell "make")))) "job"
    (reaches_overtaken keyed)
  exact ⟨congrArg List.length late, iff.mpr (exits_of_late late exits)⟩

end TimerRun

end OddJobs
