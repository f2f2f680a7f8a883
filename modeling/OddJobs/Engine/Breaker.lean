import OddJobs.Engine.Creation
import OddJobs.Engine.Visits

/-!
# The circuit breaker

A job that is created starts its first step, and then each step is started when the job has
moved to it.  As every such start is paid for by a visit, the breaker bounds them.  A step
that is done and leads to itself is started again without a visit.
-/

namespace OddJobs

open Library

/-! ## Leaving a step -/

/-- While the job remains where it is, the steps that it starts are paid for. -/
def Trace.Pays (id : JobId) (job : Job) (before after : Trace) : Prop :=
  ∀ now, before.state.jobs[id]? = some now → job.Remains now → Trace.Paid id 0 before after

theorem Trace.Undisturbed.pays {id : JobId} {before after : Trace}
    (quiet : Trace.Undisturbed id before after) (job : Job) : Trace.Pays id job before after :=
  fun _ _ _ => quiet.spares.paid 0

theorem Trace.Undisturbed.before_pays {id : JobId} {job : Job} {before between after : Trace}
    (quiet : Trace.Undisturbed id before between) (pays : Trace.Pays id job between after) :
    Trace.Pays id job before after := by
  intro now found remains
  obtain ⟨next, present, remains'⟩ := quiet.remains now found
  exact quiet.spares.before_paid (pays next present (remains.trans remains'))

theorem Trace.Undisturbed.before_enters {id : JobId} {step : String} {before between after : Trace}
    (quiet : Trace.Undisturbed id before between) (enters : Trace.Enters id step between after) :
    Trace.Enters id step before after where
  starts := fun other => (enters.starts other).trans (quiet.starts other)
  visits := fun other => (quiet.visits_le other).trans (enters.visits other)
  arrived := enters.arrived
  keyed := fun keyed => enters.keyed (quiet.keyed keyed)
  counted := fun continues => (Nat.add_le_add_right (quiet.visits_le step) 1).trans
    (enters.counted continues)

/-- What comes after a part that does not disturb the job. -/
theorem then_pays {α β : Type} {id : JobId} {job : Job} {program : Handler α} {next : α → Handler β}
    (quiet : Program.Moves (Traced (Trace.Undisturbed id)) program)
    (pays : ∀ value, Program.Moves (Traced (Trace.Pays id job)) (next value)) :
    Program.Moves (Traced (Trace.Pays id job)) (program >>= next) :=
  quiet.follow (fun moved => moved.pays job) (fun moved later => moved.before_pays later)
    fun _ value after _ => pays value after

theorem quiet_pays {α : Type} {id : JobId} (job : Job) {program : Handler α}
    (quiet : Program.Moves (Traced (Trace.Undisturbed id)) program) :
    Program.Moves (Traced (Trace.Pays id job)) program :=
  quiet.weaken fun _ _ moved => moved.pays job

def Handler.Leads (outside : Outside) (job : Job) (step : String) (transition : List Effect) :
    Prop :=
  ∀ (runtime : Runtime) (now : Job), runtime.world.state.jobs[job.id]? = some now →
    job.Remains now → ∃ events after, executeAll outside transition runtime = (.ok events, after) ∧
      Trace.Enters job.id step runtime.trace after.trace

section Transitions

variable (outside : Outside) (job : Job)

/-- A move to another step is no repeated one. -/
theorem leads_transition {step : String}
    (other : isTerminalStep step = false → job.step ≠ step) :
    Handler.Leads outside job step (Steps.stepTransitionEffects job step) := by
  intro runtime now found remains
  refine ⟨_, _, Handler.executeAll_emit outside _ runtime, ?_⟩
  refine Trace.enters_advanced found (fun continues => ?_) outside.order (runtime.world.clocks 0)
  have differs : now.step ≠ step := by
    intro same
    rcases remains.step with stays | ended
    · exact other continues (stays.symm.trans same)
    · unfold Job.isTerminal at ended
      rw [same, continues] at ended
      cases ended
  unfold Job.advanceSkipped
  rw [beq_eq_false_iff_ne.mpr differs, Bool.false_and]

/-- A move out of a step that has failed is no repeated one. -/
theorem leads_failureTransition (step error : String) :
    Handler.Leads outside job step (Steps.failureTransitionEffects job step error) := by
  intro runtime now found remains
  let failed := runtime.emitting outside.order (.stepFailed job.id job.step error)
  have ran : Handler.executeAll outside (Steps.failureTransitionEffects job step error) runtime =
      (.ok [.stepFailed job.id job.step error, .jobAdvanced job.id step],
        failed.emitting outside.order (.jobAdvanced job.id step)) := rfl
  refine ⟨_, _, ran, ?_⟩
  have stays : (Event.stepFailed job.id job.step error).Stays job.id := trivial
  refine (stays.undisturbed outside.order (runtime.world.clocks 0) runtime.trace).before_enters ?_
  have found' : failed.world.state.jobs[job.id]? =
      some (now.applyStepFailed (runtime.world.clocks 0).epochMs error) := by
    change (runtime.world.state.updateJob job.id _).jobs[job.id]? = _
    rw [MaterializedState.lookup_updateJob, if_pos rfl, found]
    rfl
  refine Trace.enters_advanced found' (fun _ => ?_) outside.order (failed.world.clocks 0)
  exact Bool.and_false _

variable {outside job} in
/-- The job moves to a step and starts it. -/
theorem routeTo_pays {step : String} {transition : List Effect}
    (leads : Handler.Leads outside job step transition) :
    Program.Moves (Traced (Trace.Pays job.id job))
      (Handler.routeTo outside job transition step) := by
  intro runtime now found remains
  obtain ⟨events, moved, ran, enters⟩ := leads runtime now found remains
  have starts := startStep_begun outside job.id step job.vars (executionDir job) moved
  unfold Handler.routeTo
  rw [Program.bind_ok ran, Program.bind_pure_state]
  exact enters.paid starts

theorem completeJob_undisturbed :
    Program.Moves (Traced (Trace.Undisturbed job.id)) (Handler.completeJob outside job) :=
  (course_undisturbed outside job.id).completeJob_moves (stays_serves job.id job.id)
    (stays_completes job.id job)

theorem finishJob_undisturbed :
    Program.Moves (Traced (Trace.Undisturbed job.id)) (Handler.finishJob outside job) :=
  (course_undisturbed outside job.id).finishJob_moves (stays_serves job.id job.id)
    ⟨fun _ => rfl, stays_completes job.id job⟩

theorem terminateCancelled_undisturbed :
    Program.Moves (Traced (Trace.Undisturbed job.id)) (Handler.terminateCancelled outside job) :=
  (course_undisturbed outside job.id).terminateCancelled_moves (stays_serves job.id job.id)
    (stays_cancels job.id job)

theorem terminateFailed_undisturbed (error : String) :
    Program.Moves (Traced (Trace.Undisturbed job.id)) (Handler.terminateFailed outside job error) :=
  (course_undisturbed outside job.id).terminateFailed_moves (stays_serves job.id job.id)
    (stays_settles job.id job.id "failed") error

theorem advanceTo_pays (jobDef : Option JobDef) {step : String}
    (other : isTerminalStep step = false → job.step ≠ step) :
    Program.Moves (Traced (Trace.Pays job.id job))
      (Handler.advanceTo outside job jobDef step) := by
  intro runtime now found remains
  have leads := leads_transition outside job other
  obtain ⟨events, moved, ran, enters⟩ := leads runtime now found remains
  unfold Handler.advanceTo
  dsimp only
  rw [Program.bind_ok ran]
  split
  · rw [Program.bind_pure_state]
    exact enters.paid ((completeJob_undisturbed outside job moved).begun _)
  · rw [Program.bind_pure_state]
    exact enters.paid (startStep_begun outside job.id step job.vars (executionDir job) moved)

def Job.repeats (job : Job) (jobDef : Option JobDef) : Bool :=
  ((jobDef.bind (·.getStep job.step)).bind (·.onDone)).any (·.stepName == job.step)

/-- The job is at a step that leads to itself under the runbook that it finds. -/
def Runtime.repeats (runtime : Runtime) : Bool :=
  (runtime.runbookAt outside job.runbookHash).any fun runbook =>
    job.repeats (runbook.getJob job.kind)

variable {outside job} in
/-- A step that is done and leads elsewhere. -/
theorem advanceJob_pays {runtime : Runtime} (onward : runtime.repeats outside job = false) :
    Traced (Trace.Pays job.id job) runtime (Handler.advanceJob outside job runtime).2 := by
  have course := course_undisturbed outside job.id
  have finishes := quiet_pays job (finishJob_undisturbed outside job)
  unfold Handler.advanceJob
  split
  · exact quiet_pays job (completeJob_undisturbed outside job) runtime
  cases known : runtime.runbookAt outside job.runbookHash with
  | none =>
      obtain ⟨error, failed⟩ := Handler.cachedRunbook_unknown outside known
      rw [Program.bind_error failed]
      exact (course.refl runtime).pays job
  | some runbook =>
  obtain ⟨_, looked, aside, _⟩ := Handler.cachedRunbook_known outside known
  rw [Program.bind_ok looked]
  refine (course.aside aside).before_pays ?_
  unfold Runtime.repeats at onward
  rw [known, Option.any_some] at onward
  generalize runbook.getJob job.kind = jobDef at onward ⊢
  refine (?_ : Program.Moves (Traced (Trace.Pays job.id job)) _) _
  refine then_pays (course.leaveStep_moves (stays_serves job.id job.id) _) fun _ => ?_
  refine then_pays (course.execute_moves trivial) fun _ => ?_
  split
  · rename_i transition chosen
    unfold Job.repeats at onward
    rw [chosen, Option.any_some] at onward
    exact advanceTo_pays outside job _ fun _ same => (beq_eq_false_iff_ne.mp onward) same.symm
  · split
    · split
      · rename_i other
        exact routeTo_pays (leads_transition outside job fun _ => other)
      · exact finishes
    · split
      · exact quiet_pays job (terminateCancelled_undisturbed outside job)
      · exact finishes

theorem failJob_pays (error : String) :
    Program.Moves (Traced (Trace.Pays job.id job)) (Handler.failJob outside job error) := by
  have course := course_undisturbed outside job.id
  have closed := course.toClosed
  have leads := fun step => leads_failureTransition outside job step error
  have fails := terminateFailed_undisturbed outside job error
  unfold Handler.failJob
  refine then_pays (course.cachedRunbook_moves _) fun runbook => ?_
  refine then_pays (course.leaveStep_moves (stays_serves job.id job.id) _) fun _ => ?_
  split
  · exact routeTo_pays (leads _)
  · split
    · split
      · exact routeTo_pays (leads _)
      · exact quiet_pays job fails
    · refine quiet_pays job (fails.bind closed fun _ => ?_)
      split
      · exact (course.emitNotify_moves _ _).bind closed fun _ => Program.moves_pure closed _
      · exact Program.moves_pure closed _

theorem cancelTo_pays (step : String) :
    Program.Moves (Traced (Trace.Pays job.id job)) (Handler.cancelTo outside job step) := by
  unfold Handler.cancelTo
  refine then_pays ((course_undisturbed outside job.id).execute_moves trivial) fun _ => ?_
  intro runtime
  unfold Traced
  rw [Program.bind_pure_state]
  exact routeTo_pays (leads_failureTransition outside job step "cancelled") runtime

theorem cancelJob_pays :
    Program.Moves (Traced (Trace.Pays job.id job)) (Handler.cancelJob outside job) := by
  have course := course_undisturbed outside job.id
  have ends := quiet_pays job (terminateCancelled_undisturbed outside job)
  unfold Handler.cancelJob
  split
  · exact quiet_pays job (Program.moves_pure course.toClosed _)
  refine then_pays (course.cachedRunbook_moves _) fun runbook => ?_
  refine then_pays (course.leaveStep_moves (stays_serves job.id job.id) _) fun _ => ?_
  split
  · exact cancelTo_pays outside job _
  · split
    · split
      · exact cancelTo_pays outside job _
      · exact ends
    · exact ends

end Transitions

/-! ## Beginning -/

/-- The record of a new job is at its first step. -/
theorem Trace.arrives_created {id : JobId} {trace : Trace}
    (unvisited : ∀ step, trace.state.visits id step = 0) (order : WalkOrder) (clock : Clock)
    (kind name hash : String) (cwd : PathBuf) (vars : HashMap String) (initialStep : String)
    (createdAt : Nat) (ns : String) (cronName : Option String) :
    Trace.Arrives id initialStep trace (trace.apply order clock
      (.jobCreated id kind name hash cwd vars initialStep createdAt ns cronName)) where
  starts := fun other => trace.starts_apply order clock _ id other
  visits := fun other => (unvisited other).le.trans (Nat.zero_le _)
  keyed := fun keyed => keyed.applyEvent order clock _
  arrived := by
    refine ⟨_, (Table.lookup_insert _ _ _ _).trans (if_pos rfl), .inl rfl⟩

theorem SetsUp.stays {id jobId : JobId} {effects : List Effect} (setsUp : SetsUp jobId effects) :
    ∀ effect ∈ effects, effect.Within (.permitting (Event.Stays id)) := by
  intro effect member
  cases setsUp with
  | nothing => cases member
  | folder workspaceId path =>
      rw [List.mem_singleton.mp member]
      exact ⟨trivial, trivial, fun _ => trivial⟩
  | worktree workspaceId path root branch ref =>
      rw [List.mem_singleton.mp member]
      exact ⟨trivial, trivial, fun _ => trivial⟩

section Beginning

variable (outside : Outside) (params : CreateJobParams)

def Handler.PreparedJob.initialStep (prepared : Handler.PreparedJob) : String :=
  (prepared.jobDef.firstStep.map (·.name)).getD "init"

theorem recordJob_arrives (prepared : Handler.PreparedJob) {runtime : Runtime}
    (unvisited : ∀ step, runtime.world.state.visits params.jobId step = 0) :
    Traced (Trace.Arrives params.jobId prepared.initialStep) runtime
      (Handler.recordJob outside params prepared runtime).2 := by
  have creates := fun {trace : Trace} (unvisited : ∀ step, trace.state.visits params.jobId step = 0)
      (clock : Clock) => Trace.arrives_created unvisited outside.order clock params.jobKind
        prepared.name params.runbookHash prepared.placement.executionPath
        (namespaceVars outside.order prepared.vars) prepared.initialStep
        (runtime.world.clocks 0).epochMs params.ns params.cronName
  unfold Handler.recordJob
  cases params.runbookJson with
  | none => exact creates unvisited (runtime.world.clocks 1)
  | some json =>
      have stays : (Event.runbookLoaded params.runbookHash 1 json).Stays params.jobId := trivial
      have loads := stays.undisturbed outside.order (runtime.world.clocks 1) runtime.trace
      exact loads.spares.before_arrives (creates unvisited (runtime.world.clocks 2))

/-- What remains to be done with a job that has come to its first step. -/
def Trace.Due (start : Trace) (id : JobId) (step : String) (before after : Trace) : Prop :=
  Trace.Arrives id step start before → Trace.Paid id 1 start after

theorem Trace.Undisturbed.due {id : JobId} {step : String} {start before after : Trace}
    (quiet : Trace.Undisturbed id before after) : start.Due id step before after :=
  fun arrives => (arrives.undisturbed quiet).toSpares.paid 1

theorem Trace.Undisturbed.before_due {id : JobId} {step : String}
    {start before between after : Trace} (quiet : Trace.Undisturbed id before between)
    (due : start.Due id step between after) : start.Due id step before after :=
  fun arrives => due (arrives.undisturbed quiet)

theorem launchJob_due {prepared : Handler.PreparedJob} {start : Trace} (keyed : start.state.Keyed)
    (setsUp : SetsUp params.jobId prepared.effects) :
    Program.Moves (Traced (start.Due params.jobId prepared.initialStep))
      (Handler.launchJob outside params prepared) := by
  have course := course_undisturbed outside params.jobId
  have closed := course.toClosed
  have setting : Program.Moves (Traced (Trace.Undisturbed params.jobId)) (Handler.carryOut
      (Program.attempt (Executor.executeAll outside.order prepared.effects))) :=
    Handler.carryOut_moves fun runtime =>
      Program.Moves.attempt (course.executorAll_moves runtime setsUp.stays)
  unfold Handler.launchJob
  refine setting.follow (fun quiet => quiet.due) (fun quiet due => quiet.before_due due)
    fun _ workspace now _ => ?_
  cases workspace with
  | error error =>
      intro arrives
      obtain ⟨job, found, _⟩ := arrives.arrived
      have named : job.id = params.jobId := arrives.keyed keyed _ _ found
      have required : Handler.requireJob params.jobId now = (.ok job, now) :=
        Handler.requireJob_eq_ok.mpr ⟨rfl, MaterializedState.getJob_found found⟩
      dsimp only
      rw [Program.bind_ok required]
      have pays := failJob_pays outside job error.display now
      rw [named] at pays
      exact Trace.Paid.mono (Nat.zero_le 1)
        (arrives.toSpares.before_paid (pays job found (.refl job)))
  | ok events =>
      cases first : prepared.jobDef.firstStep with
      | none => exact (closed.refl now).due
      | some step =>
          intro arrives
          have initial : prepared.initialStep = step.name := by
            unfold Handler.PreparedJob.initialStep
            rw [first]
            rfl
          rw [initial] at arrives
          have starts := startStep_begun outside params.jobId step.name prepared.vars
            prepared.placement.executionPath now
          dsimp only
          rw [Program.bind_pure_state]
          exact arrives.paid (Trace.Begun.mono (Trace.starting_le (Nat.zero_le _)) starts)

/-- A job that is created starts its first step, if any. -/
theorem createAndStartJob_paid {runtime : Runtime} (keyed : runtime.world.state.Keyed) :
    Trace.Paid params.jobId 1 runtime.trace
      (Handler.createAndStartJob outside params runtime).2.trace := by
  have course := course_undisturbed outside params.jobId
  have closed := course.toClosed
  unfold Handler.createAndStartJob
  rw [Handler.readState, Program.run_bind, Program.run_read]
  dsimp only
  split
  · exact (closed.refl runtime).spares.paid 1
  rename_i absent
  have unvisited : ∀ step, runtime.world.state.visits params.jobId step = 0 := by
    intro step
    unfold MaterializedState.visits
    cases found : runtime.world.state.jobs[params.jobId]? with
    | none => rfl
    | some job =>
        rw [MaterializedState.getJob_found found] at absent
        exact absurd rfl absent
  cases readied : Handler.prepareJob outside params runtime with
  | mk result ready =>
  have aside := (prepareJob_aside outside params).ended readied
  have quiet : Trace.Undisturbed params.jobId runtime.trace ready.trace := course.aside aside
  cases result with
  | error error =>
      rw [Program.bind_error readied]
      exact quiet.spares.paid 1
  | ok prepared =>
  obtain ⟨_, setsUp⟩ := prepareJob_ok readied
  rw [Program.bind_ok readied]
  refine quiet.spares.before_paid ?_
  rw [← aside.state] at unvisited
  have arrives := recordJob_arrives outside params prepared unvisited
  cases recorded : Handler.recordJob outside params prepared ready with
  | mk result begun =>
  rw [recorded] at arrives
  cases result with
  | error error =>
      rw [Program.bind_error recorded]
      exact arrives.toSpares.paid 1
  | ok events =>
  rw [Program.bind_ok recorded]
  have launches := launchJob_due outside params (quiet.keyed keyed) setsUp
  refine (?_ : Program.Moves (Traced (ready.trace.Due params.jobId prepared.initialStep)) _) begun
    arrives
  refine (course.notifyStart_moves params prepared).follow (fun quiet => quiet.due)
    (fun quiet due => quiet.before_due due) fun _ _ now _ => ?_
  rw [Program.bind_pure_state]
  exact launches now

end Beginning

/-! ## Runs of a job -/

inductive Leaving where
  | done
  | failed (error : String)
  | cancelled
  deriving DecidableEq, Repr

def Leaving.handle (outside : Outside) (job : Job) : Leaving → Handler (List Event)
  | done => Handler.advanceJob outside job
  | failed error => Handler.failJob outside job error
  | cancelled => Handler.cancelJob outside job

def Runtime.leave (outside : Outside) (id : JobId) (leaving : Leaving) (runtime : Runtime) :
    Runtime :=
  match runtime.world.state.jobs[id]? with
  | none => runtime
  | some job => (leaving.handle outside job runtime).2

def Runtime.LeavesOn (outside : Outside) (id : JobId) (runtime : Runtime) (leaving : Leaving) :
    Prop :=
  leaving = .done → ∀ job, runtime.world.state.jobs[id]? = some job →
    runtime.repeats outside job = false

theorem leave_paid {outside : Outside} {id : JobId} {leaving : Leaving} {runtime : Runtime}
    (keyed : runtime.world.state.Keyed) (onward : runtime.LeavesOn outside id leaving) :
    Trace.Paid id 0 runtime.trace (runtime.leave outside id leaving).trace := by
  unfold Runtime.leave
  cases found : runtime.world.state.jobs[id]? with
  | none => exact ((course_undisturbed outside id).refl runtime).spares.paid 0
  | some job =>
      have named : job.id = id := keyed id job found
      subst named
      cases leaving with
      | done => exact advanceJob_pays (onward rfl job found) job found (.refl job)
      | failed error => exact failJob_pays outside job error runtime job found (.refl job)
      | cancelled => exact cancelJob_pays outside job runtime job found (.refl job)

/-- An event that forgets no visit: the record of the job is not deleted, and it is made anew
only while no visit was counted. -/
def Event.KeepsVisits (id : JobId) (state : MaterializedState) : Event → Prop
  | jobDeleted jobId => jobId ≠ id
  | jobCreated jobId .. => jobId = id → ∀ step, state.visits id step = 0
  | _ => True

theorem Event.KeepsVisits.visits_le {id : JobId} {state : MaterializedState} {event : Event}
    (keeps : event.KeepsVisits id state) (order : WalkOrder) (clock : Clock) (step : String) :
    state.visits id step ≤ (state.applyEvent order clock event).visits id step := by
  have elsewhere {after : MaterializedState} (same : after.jobs[id]? = state.jobs[id]?) :
      state.visits id step ≤ after.visits id step := by
    unfold MaterializedState.visits
    rw [same]
  cases moves : event.movesJob with
  | false =>
      have same := MaterializedState.applyEvent_sameHistory order clock state moves
      have visits := same.map_eq (fun _ _ history => history.remains.getStepVisits_eq step) id
      unfold MaterializedState.visits
      rw [visits]
  | true =>
      cases event with
      | jobCreated jobId kind name hash cwd vars initialStep createdAt ns cronName =>
          rcases Decidable.em (jobId = id) with own | other
          · rw [keeps own step]
            exact Nat.zero_le _
          · exact elsewhere ((Table.lookup_insert _ _ _ _).trans (if_neg other))
      | jobDeleted jobId => exact elsewhere ((Table.lookup_erase _ _ _).trans (if_neg keeps))
      | jobAdvanced jobId target =>
          have advanced := state.lookup_applyJobAdvanced clock jobId id target
          rcases Decidable.em (jobId = id) with rfl | other
          · rw [if_pos rfl] at advanced
            unfold MaterializedState.visits
            cases found : state.jobs[jobId]? with
            | none => exact Nat.zero_le _
            | some job =>
                rw [found, Option.map_some] at advanced
                change _ ≤ (((state.applyJobAdvanced clock jobId target).jobs[jobId]?).map _).getD 0
                rw [advanced, Option.map_some, Option.map_some, Option.getD_some, Option.getD_some]
                split
                · exact le_rfl
                · rw [Job.getStepVisits_applyAdvanced]
                  exact Nat.le_add_right _ _
          · exact elsewhere (advanced.trans (if_neg other))
      | _ => cases moves

/-- Runs of a job that has been created: it leaves one step after the other, until it has
ended.  Meanwhile other handlers and the log apply other events, but none starts a step. -/
inductive JobReaches (outside : Outside) (params : CreateJobParams)
    (admits : Runtime → Leaving → Prop) (start : Runtime) : Runtime → Prop where
  | created : JobReaches outside params admits start
      (Handler.createAndStartJob outside params start).2
  | leaves {runtime : Runtime} (reaches : JobReaches outside params admits start runtime)
      (going : ¬runtime.trace.Ended params.jobId) (leaving : Leaving)
      (admitted : admits runtime leaving) :
      JobReaches outside params admits start (runtime.leave outside params.jobId leaving)
  | meanwhile {before after : Runtime} (reaches : JobReaches outside params admits start before)
      (going : ¬before.trace.Ended params.jobId) (clock : Clock) (event : Event)
      (keeps : event.KeepsVisits params.jobId before.world.state)
      (state : after.world.state = before.world.state.applyEvent outside.order clock event)
      (starts : ∀ step, after.trace.starts params.jobId step =
        before.trace.starts params.jobId step) :
      JobReaches outside params admits start after

theorem JobReaches.paid {outside : Outside} {params : CreateJobParams} {start now : Runtime}
    (keyed : start.world.state.Keyed)
    (reaches : JobReaches outside params (Runtime.LeavesOn outside params.jobId) start now) :
    Trace.Paid params.jobId 1 start.trace now.trace := by
  induction reaches with
  | created => exact createAndStartJob_paid outside params keyed
  | leaves _ going leaving admitted ih =>
      exact ih.trans going (leave_paid (ih.keyed keyed) admitted)
  | @meanwhile before after _ going clock event keeps state starts ih =>
      refine ih.trans going (Trace.Spares.paid ⟨starts, fun step => ?_, fun keyed => ?_⟩ 0)
      · rw [show after.trace.state = _ from state]
        exact keeps.visits_le outside.order clock step
      · rw [show after.trace.state = _ from state]
        exact keyed.applyEvent outside.order clock event

def cycling (next : String) : Runbook where
  jobs := (∅ : HashMap JobDef).insert "build"
    { kind := "build"
      steps := [{ name := "work", run := .shell "make", onDone := some ⟨next⟩ },
        { name := "retry", run := .shell "make", onDone := some ⟨"work"⟩ }] }

def cyclingParams (next : String) : CreateJobParams where
  jobId := "job"
  jobName := "build"
  jobKind := "build"
  vars := ∅
  runbookHash := "hash"
  runbookJson := none
  runbook := cycling next
  ns := ""
  cronName := none

/-- The job has been created, and so many steps of it are done. -/
def cycled (next : String) : Nat → Runtime
  | 0 => (Handler.createAndStartJob (.plain (cycling next)) (cyclingParams next)
      (Runtime.idle (cycling next) {})).2
  | n + 1 => (cycled next n).leave (.plain (cycling next)) "job" .done

theorem Trace.not_ended {trace : Trace} {id : JobId}
    (going : (trace.state.jobs[id]?).any (·.isTerminal) = false) : ¬trace.Ended id := by
  rintro ⟨job, found, ended⟩
  rw [found, Option.any_some, ended] at going
  cases going

theorem keyed_idle (runbook : Runbook) : (Runtime.idle runbook {}).world.state.Keyed :=
  TimerRun.keyed_of_all rfl

theorem cycled_reaches {next : String} {admits : Runtime → Leaving → Prop} {n : Nat}
    (going : ∀ k < n, (((cycled next k).world.state.jobs["job"]?).any (·.isTerminal)) = false)
    (admitted : ∀ k < n, admits (cycled next k) .done) :
    JobReaches (.plain (cycling next)) (cyclingParams next) admits (Runtime.idle (cycling next) {})
      (cycled next n) := by
  induction n with
  | zero => exact .created
  | succ n ih =>
      have reaches := ih (fun k less => going k (less.trans n.lt_succ_self))
        fun k less => admitted k (less.trans n.lt_succ_self)
      exact .leaves reaches (Trace.not_ended (going n n.lt_succ_self)) .done
        (admitted n n.lt_succ_self)

end OddJobs
