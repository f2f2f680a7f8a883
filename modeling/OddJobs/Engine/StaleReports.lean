import OddJobs.Engine.Handlers

/-!
# Reports about an old step

The handlers drop a report about an agent or a step that its job has left.  The
materialized state applies it all the same, so the job stays as it is only if the
report repeats what the job already repeated.
-/

namespace OddJobs

open Library

namespace Job

def openRecord (job : Job) : Option StepRecord :=
  (job.stepHistory.getLast?).filter (·.finishedAtMs.isNone)

/-- What reports must not change: step, status, error and records. -/
structure Untouched (before after : Job) : Prop where
  step : after.step = before.step
  stepStatus : after.stepStatus = before.stepStatus
  error : after.error = before.error
  stepHistory : after.stepHistory = before.stepHistory

/-- An update of the open record leaves the history alone iff it leaves the record alone. -/
theorem updateOpenRecord_eq_self_iff (update : StepRecord → StepRecord) (job : Job) :
    updateOpenRecord update job.stepHistory = job.stepHistory ↔
      ∀ record, job.openRecord = some record → update record = record := by
  unfold openRecord
  generalize job.stepHistory = history
  induction history using List.reverseRecOn with
  | nil =>
      constructor
      · rintro _ record ⟨⟩
      · exact fun _ => rfl
  | append_singleton init last _ =>
      rw [updateOpenRecord_concat, List.getLast?_concat, List.append_cancel_left_eq,
        List.singleton_inj]
      cases finished : last.finishedAtMs with
      | some epochMs =>
          constructor
          · intro _ record isOpen
            simp [Option.filter, finished] at isOpen
          · intro _
            rfl
      | none =>
          have isOpen : (some last).filter (·.finishedAtMs.isNone) = some last := by
            simp [Option.filter, finished]
          constructor
          · intro same record found
            rw [isOpen] at found
            cases found
            exact same
          · intro same
            exact same last isOpen

/-- A record that is finished by a report was open before. -/
theorem finalize_eq_self_iff (job : Job) (outcome : StepOutcome) (epochMs : Nat) :
    (job.finalizeCurrentStep outcome epochMs).stepHistory = job.stepHistory ↔
      job.openRecord = none := by
  unfold finalizeCurrentStep
  rw [updateOpenRecord_eq_self_iff]
  constructor
  · intro same
    cases found : job.openRecord with
    | none => rfl
    | some record =>
        have isOpen : record.finishedAtMs.isNone = true :=
          (Option.filter_eq_some_iff.mp found).2
        have finished := congrArg (·.finishedAtMs) (same record found)
        rw [← finished] at isOpen
        cases isOpen
  · intro closed record found
    rw [closed] at found
    cases found

end Job

def agentExitError (exitCode : Option Int) : String :=
  "exit code: " ++ match exitCode with
    | none => "None"
    | some code => "Some(" ++ toString code ++ ")"

def shellExitError (exitCode : Int) : String := "shell exit code: " ++ toString exitCode

namespace Event

/-- A report about something that the job has left behind: an agent that is not
the one of its current step, or another step. -/
def StaleFor (id : JobId) (job : Job) : Event → Prop
  | agentWorking agentId owner | agentFailed agentId _ owner | agentExited agentId _ owner
  | agentGone agentId owner => owner = .job id ∧ job.stepAgentId ≠ some agentId
  | shellExited jobId step _ _ _ | stepStarted jobId step _ _ | stepWaiting jobId step _ _
  | stepCompleted jobId step | stepFailed jobId step _ => jobId = id ∧ job.step ≠ step
  | _ => False

/-- The agent of a report is registered to the owner that the report names, or not
at all. -/
def OwnerRegistered (agentOwners : HashMap OwnerId) : Event → Prop
  | agentWorking agentId owner | agentFailed agentId _ owner | agentExited agentId _ owner
  | agentGone agentId owner => ∀ other, agentOwners[agentId]? = some other → other = owner
  | _ => True

/-- The report says what the job says already: its status, its error, and that the
last record is finished, or how the open one stands. -/
def Repeats (job : Job) : Event → Prop
  | agentWorking _ _ => job.stepStatus = .running
  | agentExited _ exitCode _ =>
      job.isTerminal = true ∨
      (exitCode = some 0 ∧ job.stepStatus = .completed) ∨
      (exitCode ≠ some 0 ∧ job.stepStatus = .failed ∧ job.error = some (agentExitError exitCode))
  | agentFailed _ error _ =>
      job.isTerminal = true ∨ (job.stepStatus = .failed ∧ job.error = some error.display)
  | agentGone _ _ =>
      job.isTerminal = true ∨
      (job.stepStatus = .failed ∧ job.error = some "session terminated unexpectedly")
  | shellExited _ _ exitCode _ _ =>
      job.openRecord = none ∧
      ((exitCode = 0 ∧ job.stepStatus = .completed) ∨
        (exitCode ≠ 0 ∧ job.stepStatus = .failed ∧ job.error = some (shellExitError exitCode)))
  | stepStarted _ _ agentId agentName =>
      job.stepStatus = .running ∧ ∀ record, job.openRecord = some record →
        record.outcome = .running ∧
        (∀ id, agentId = some id → record.agentId = some id) ∧
        ∀ name, agentName = some name → record.agentName = some name
  | stepWaiting _ _ reason decisionId =>
      job.stepStatus = .waiting decisionId ∧ (∀ text, reason = some text → job.error = some text) ∧
      ∀ record, job.openRecord = some record → record.outcome = .waiting (reason.getD "")
  | stepCompleted _ _ => job.openRecord = none ∧ job.stepStatus = .completed
  | stepFailed _ _ error =>
      job.openRecord = none ∧ job.stepStatus = .failed ∧ job.error = some error
  | _ => True

end Event

namespace Job

theorem untouched_agentExited_iff (job : Job) (exitCode : Option Int) :
    job.Untouched (job.applyAgentExited exitCode) ↔
      job.isTerminal = true ∨
      (exitCode = some 0 ∧ job.stepStatus = .completed) ∨
      (exitCode ≠ some 0 ∧ job.stepStatus = .failed ∧
        job.error = some (agentExitError exitCode)) := by
  unfold applyAgentExited
  cases ended : job.isTerminal with
  | true => exact ⟨fun _ => .inl rfl, fun _ => ⟨rfl, rfl, rfl, rfl⟩⟩
  | false =>
      simp only [Bool.false_eq_true, ↓reduceIte, false_or]
      split
      · next clean =>
          constructor
          · exact fun same => .inl ⟨clean, same.stepStatus.symm⟩
          · rintro (⟨_, completed⟩ | ⟨other, _⟩)
            · exact ⟨rfl, completed.symm, rfl, rfl⟩
            · exact absurd clean other
      · next failing =>
          constructor
          · exact fun same => .inr ⟨failing, same.stepStatus.symm, same.error.symm⟩
          · rintro (⟨clean, _⟩ | ⟨_, failed, error⟩)
            · exact absurd clean failing
            · exact ⟨rfl, failed.symm, error.symm, rfl⟩

theorem untouched_agentLost_iff (job : Job) (message : String) :
    job.Untouched (job.applyAgentLost message) ↔
      job.isTerminal = true ∨ (job.stepStatus = .failed ∧ job.error = some message) := by
  unfold applyAgentLost
  cases ended : job.isTerminal with
  | true => exact ⟨fun _ => .inl rfl, fun _ => ⟨rfl, rfl, rfl, rfl⟩⟩
  | false =>
      simp only [Bool.false_eq_true, ↓reduceIte, false_or]
      constructor
      · exact fun same => ⟨same.stepStatus.symm, same.error.symm⟩
      · exact fun repeated => ⟨rfl, repeated.1.symm, repeated.2.symm, rfl⟩

theorem stepAgentId_applyAgentExited (job : Job) (exitCode : Option Int) :
    (job.applyAgentExited exitCode).stepAgentId = job.stepAgentId := by
  unfold applyAgentExited
  split
  · rfl
  · split
    · rfl
    · rfl

theorem stepAgentId_applyAgentLost (job : Job) (message : String) :
    (job.applyAgentLost message).stepAgentId = job.stepAgentId := by
  unfold applyAgentLost
  split
  · rfl
  · rfl

theorem step_applyShellExited (job : Job) (epochMs : Nat) (exitCode : Int) :
    (job.applyShellExited epochMs exitCode).step = job.step := by
  unfold applyShellExited
  split
  · rfl
  · rfl

/-- A report that sets the status and finishes the record. -/
theorem untouched_finalize_iff (job : Job) (status : StepStatus) (error : Option String)
    (outcome : StepOutcome) (epochMs : Nat) :
    job.Untouched (({ job with stepStatus := status, error } : Job).finalizeCurrentStep outcome
      epochMs) ↔ job.openRecord = none ∧ job.stepStatus = status ∧ job.error = error := by
  have closed := finalize_eq_self_iff job outcome epochMs
  constructor
  · exact fun same => ⟨closed.mp same.stepHistory, same.stepStatus.symm, same.error.symm⟩
  · exact fun repeated => ⟨rfl, repeated.2.1.symm, repeated.2.2.symm, closed.mpr repeated.1⟩

theorem untouched_shellExited_iff (job : Job) (epochMs : Nat) (exitCode : Int) :
    job.Untouched (job.applyShellExited epochMs exitCode) ↔
      job.openRecord = none ∧
      ((exitCode = 0 ∧ job.stepStatus = .completed) ∨
        (exitCode ≠ 0 ∧ job.stepStatus = .failed ∧
          job.error = some (shellExitError exitCode))) := by
  unfold applyShellExited
  split
  · next clean =>
      have same := job.untouched_finalize_iff .completed job.error .completed epochMs
      constructor
      · intro untouched
        obtain ⟨closed, completed, _⟩ := same.mp untouched
        exact ⟨closed, .inl ⟨clean, completed⟩⟩
      · rintro ⟨closed, ⟨_, completed⟩ | ⟨other, _⟩⟩
        · exact same.mpr ⟨closed, completed, rfl⟩
        · exact absurd clean other
  · next failing =>
      have same := job.untouched_finalize_iff .failed (some (shellExitError exitCode))
        (.failed (shellExitError exitCode)) epochMs
      constructor
      · intro untouched
        obtain ⟨closed, failed, error⟩ := same.mp untouched
        exact ⟨closed, .inr ⟨failing, failed, error⟩⟩
      · rintro ⟨closed, ⟨clean, _⟩ | ⟨_, failed, error⟩⟩
        · exact absurd clean failing
        · exact same.mpr ⟨closed, failed, error⟩

theorem untouched_stepStarted_iff (job : Job) (agentId : Option AgentId)
    (agentName : Option String) :
    job.Untouched (job.applyStepStarted agentId agentName) ↔
      job.stepStatus = .running ∧ ∀ record, job.openRecord = some record →
        record.outcome = .running ∧
        (∀ id, agentId = some id → record.agentId = some id) ∧
        ∀ name, agentName = some name → record.agentName = some name := by
  have records := updateOpenRecord_eq_self_iff (startedRecord agentId agentName) job
  have started : ∀ record : StepRecord, startedRecord agentId agentName record = record ↔
      record.outcome = .running ∧
      (∀ id, agentId = some id → record.agentId = some id) ∧
      ∀ name, agentName = some name → record.agentName = some name := by
    intro record
    cases record
    cases agentId <;> cases agentName <;>
      simp [startedRecord, eq_comm]
  rw [applyStepStarted_eq]
  constructor
  · intro untouched
    exact ⟨untouched.stepStatus.symm, fun record found =>
      (started record).mp (records.mp untouched.stepHistory record found)⟩
  · rintro ⟨running, repeated⟩
    exact ⟨rfl, running.symm, rfl, records.mpr fun record found =>
      (started record).mpr (repeated record found)⟩

theorem untouched_stepWaiting_iff (job : Job) (reason decisionId : Option String) :
    job.Untouched (job.applyStepWaiting reason decisionId) ↔
      job.stepStatus = .waiting decisionId ∧
      (∀ text, reason = some text → job.error = some text) ∧
      ∀ record, job.openRecord = some record → record.outcome = .waiting (reason.getD "") := by
  have records := updateOpenRecord_eq_self_iff
    (fun record => { record with outcome := .waiting (reason.getD "") }) job
  have waiting : ∀ record : StepRecord,
      ({ record with outcome := .waiting (reason.getD "") } : StepRecord) = record ↔
        record.outcome = .waiting (reason.getD "") := by
    intro record
    cases record
    simp [eq_comm]
  have errors : (if reason.isSome then reason else job.error) = job.error ↔
      ∀ text, reason = some text → job.error = some text := by
    cases reason with
    | none => simp
    | some text => simp [eq_comm]
  constructor
  · intro untouched
    exact ⟨untouched.stepStatus.symm, errors.mp untouched.error, fun record found =>
      (waiting record).mp (records.mp untouched.stepHistory record found)⟩
  · rintro ⟨status, error, outcome⟩
    exact ⟨rfl, status.symm, errors.mpr error, records.mpr fun record found =>
      (waiting record).mpr (outcome record found)⟩

end Job

namespace MaterializedState

theorem lookup_applyStepStarted (clock : Clock) (agentId : Option AgentId)
    (agentName : Option String) {state : MaterializedState} {id : JobId} {job : Job}
    (found : state.jobs[id]? = some job) :
    (state.applyStepStarted clock id agentId agentName).jobs[id]? =
      some (job.applyStepStarted agentId agentName) := by
  have updated : (state.updateJob id (Job.applyStepStarted agentId agentName)).jobs[id]? =
      some (job.applyStepStarted agentId agentName) := by
    rw [lookup_updateJob, if_pos rfl, found, Option.map_some]
  unfold applyStepStarted
  rw [found]
  cases agentId with
  | none => exact updated
  | some agentId => exact updated

/-- A stale report finds the job, is stale for what it leaves of it, and leaves it
untouched iff it repeats what the job said. -/
theorem lookup_staleReport (order : WalkOrder) (clock : Clock) {state : MaterializedState}
    {id : JobId} {job : Job} {event : Event} (found : state.jobs[id]? = some job)
    (stale : event.StaleFor id job) :
    ∃ after : Job, (state.applyEvent order clock event).jobs[id]? = some after ∧
      event.StaleFor id after ∧ (job.Untouched after ↔ event.Repeats job) := by
  have updated : ∀ update : Job → Job,
      (state.updateJob id update).jobs[id]? = some (update job) := by
    intro update
    rw [lookup_updateJob, if_pos rfl, found, Option.map_some]
  cases event with
  | agentWorking agentId owner =>
      obtain ⟨rfl, other⟩ := stale
      refine ⟨_, updated _, ⟨rfl, other⟩, ?_⟩
      exact ⟨fun same => same.stepStatus.symm, fun running => ⟨rfl, running.symm, rfl, rfl⟩⟩
  | agentExited agentId exitCode owner =>
      obtain ⟨rfl, other⟩ := stale
      refine ⟨_, updated _, ⟨rfl, ?_⟩, job.untouched_agentExited_iff exitCode⟩
      rw [Job.stepAgentId_applyAgentExited]
      exact other
  | agentFailed agentId error owner =>
      obtain ⟨rfl, other⟩ := stale
      refine ⟨_, updated _, ⟨rfl, ?_⟩, job.untouched_agentLost_iff error.display⟩
      rw [Job.stepAgentId_applyAgentLost]
      exact other
  | agentGone agentId owner =>
      obtain ⟨rfl, other⟩ := stale
      refine ⟨_, updated _, ⟨rfl, ?_⟩, job.untouched_agentLost_iff _⟩
      rw [Job.stepAgentId_applyAgentLost]
      exact other
  | shellExited jobId step exitCode stdout stderr =>
      obtain ⟨rfl, other⟩ := stale
      refine ⟨_, updated _, ⟨rfl, ?_⟩, job.untouched_shellExited_iff clock.epochMs exitCode⟩
      rw [Job.step_applyShellExited]
      exact other
  | stepStarted jobId step agentId agentName =>
      obtain ⟨rfl, other⟩ := stale
      refine ⟨job.applyStepStarted agentId agentName, ?_, ⟨rfl, ?_⟩,
        job.untouched_stepStarted_iff agentId agentName⟩
      · exact lookup_applyStepStarted clock agentId agentName found
      · rw [Job.applyStepStarted_eq]
        exact other
  | stepWaiting jobId step reason decisionId =>
      obtain ⟨rfl, other⟩ := stale
      exact ⟨_, updated _, ⟨rfl, other⟩, job.untouched_stepWaiting_iff reason decisionId⟩
  | stepCompleted jobId step =>
      obtain ⟨rfl, other⟩ := stale
      have same := job.untouched_finalize_iff .completed job.error .completed clock.epochMs
      refine ⟨_, updated _, ⟨rfl, other⟩, same.trans ?_⟩
      exact ⟨fun repeated => ⟨repeated.1, repeated.2.1⟩,
        fun repeated => ⟨repeated.1, repeated.2, rfl⟩⟩
  | stepFailed jobId step error =>
      obtain ⟨rfl, other⟩ := stale
      exact ⟨_, updated _, ⟨rfl, other⟩,
        job.untouched_finalize_iff .failed (some error) (.failed error) clock.epochMs⟩
  | _ => exact stale.elim

end MaterializedState

namespace Handler

variable (outside : Outside) (others : OtherHandlers)

/-- An agent that its job has left has no owner context. -/
theorem getOwnerContext_stale {runtime : Runtime} {id : JobId} {job : Job} {agentId : AgentId}
    (found : runtime.world.state.jobs[id]? = some job)
    (registered : ∀ owner, runtime.agentOwners[agentId]? = some owner → owner = .job id)
    (stale : job.stepAgentId ≠ some agentId) :
    getOwnerContext agentId runtime = (.ok .skip, runtime) ∨
      getOwnerContext agentId runtime = (.ok .unknown, runtime) := by
  unfold getOwnerContext
  rw [Program.bind_ok (Program.run_read _ runtime)]
  cases owned : runtime.agentOwners[agentId]? with
  | none => exact .inr rfl
  | some owner =>
      cases registered owner owned
      left
      dsimp only
      have job? : readState (·.getJob id) runtime = (.ok (some job), runtime) := by
        rw [readState, Program.run_read, MaterializedState.getJob_found found]
      rw [Program.bind_ok job?]
      dsimp only
      cases job.isTerminal with
      | true => rfl
      | false =>
          rw [if_neg Bool.false_ne_true, if_pos stale]
          rfl

theorem handleAgentStateChanged_stale {runtime : Runtime} {id : JobId} {job : Job}
    {agentId : AgentId} (agentState : AgentState)
    (found : runtime.world.state.jobs[id]? = some job)
    (registered : ∀ owner, runtime.agentOwners[agentId]? = some owner → owner = .job id)
    (stale : job.stepAgentId ≠ some agentId) :
    handleAgentStateChanged outside others agentId agentState runtime = (.ok [], runtime) := by
  unfold handleAgentStateChanged
  rcases getOwnerContext_stale found registered stale with skipped | unknown
  · rw [Program.bind_ok skipped]
    rfl
  · rw [Program.bind_ok unknown]
    rfl

theorem handleShellExited_stale {runtime : Runtime} {id : JobId} {job : Job} {step : String}
    (exitCode : Int) (found : runtime.world.state.jobs[id]? = some job)
    (stale : job.step ≠ step) :
    handleShellExited outside id step exitCode runtime = (.ok [], runtime) := by
  have job? : requireJob id runtime = (.ok job, runtime) := by
    unfold requireJob
    have looked : readState (·.getJob id) runtime = (.ok (some job), runtime) := by
      rw [readState, Program.run_read, MaterializedState.getJob_found found]
    rw [Program.bind_ok looked]
    rfl
  unfold handleShellExited
  rw [Program.bind_ok job?, if_pos stale]
  rfl

/-- The handlers drop stale reports. -/
theorem handleEvent_stale {runtime : Runtime} {id : JobId} {job : Job} {event : Event}
    (found : runtime.world.state.jobs[id]? = some job)
    (registered : event.OwnerRegistered runtime.agentOwners) (stale : event.StaleFor id job) :
    handleEvent outside others event runtime = (.ok [], runtime) := by
  cases event with
  | agentWorking agentId owner =>
      obtain ⟨rfl, other⟩ := stale
      exact handleAgentStateChanged_stale outside others .working found registered other
  | agentExited agentId exitCode owner =>
      obtain ⟨rfl, other⟩ := stale
      exact handleAgentStateChanged_stale outside others (.exited exitCode) found registered other
  | agentFailed agentId error owner =>
      obtain ⟨rfl, other⟩ := stale
      exact handleAgentStateChanged_stale outside others (.failed error) found registered other
  | agentGone agentId owner =>
      obtain ⟨rfl, other⟩ := stale
      exact handleAgentStateChanged_stale outside others .sessionGone found registered other
  | shellExited jobId step exitCode stdout stderr =>
      obtain ⟨rfl, other⟩ := stale
      exact handleShellExited_stale outside exitCode found other
  | stepStarted | stepWaiting | stepCompleted | stepFailed => rfl
  | _ => exact stale.elim

/-- Processing a report about something that the job has left behind leaves the
job's step, status, error and records as they are iff the report repeats what they
say. -/
theorem processEvent_stale_iff {runtime : Runtime} {id : JobId} {job : Job} {event : Event}
    (found : runtime.world.state.jobs[id]? = some job)
    (registered : event.OwnerRegistered runtime.agentOwners) (stale : event.StaleFor id job) :
    (∃ after : Job,
      (processEvent outside others event runtime).2.world.state.jobs[id]? = some after ∧
      after.step = job.step ∧ after.stepStatus = job.stepStatus ∧ after.error = job.error ∧
      after.stepHistory = job.stepHistory) ↔ event.Repeats job := by
  obtain ⟨after, present, staleAfter, same⟩ :=
    MaterializedState.lookup_staleReport outside.order (runtime.world.clocks 0) found stale
  have dropped := @handleEvent_stale outside others (runtime.applying outside.order event) id after
    event present registered staleAfter
  rw [processEvent_run, dropped]
  constructor
  · rintro ⟨other, foundOther, step, stepStatus, error, stepHistory⟩
    cases present.symm.trans foundOther
    exact same.mp ⟨step, stepStatus, error, stepHistory⟩
  · intro repeated
    have untouched := same.mpr repeated
    exact ⟨after, present, untouched.step, untouched.stepStatus, untouched.error,
      untouched.stepHistory⟩

/-- A job that has gone on from the agent of `plan` to the agent of `code`. -/
def movedOn : Runtime :=
  Runtime.idle {} (({} : MaterializedState).replay (fun _ => .byKey) (fun _ => ⟨0, 0⟩) 0
    [.jobCreated "job" "build" "build" "hash" "/" ∅ "plan" 0 "" none,
      .stepStarted "job" "plan" (some "planner") none, .jobAdvanced "job" "code",
      .stepStarted "job" "code" (some "coder") none])

/-- No agent is registered after a restart. -/
theorem movedOn_unregistered (event : Event) : event.OwnerRegistered movedOn.agentOwners := by
  have none_ : ∀ agentId : AgentId, movedOn.agentOwners[agentId]? = none :=
    fun agentId => Table.lookup_empty agentId
  cases event with
  | agentWorking agentId owner | agentFailed agentId error owner
  | agentExited agentId exitCode owner | agentGone agentId owner =>
      intro other owned
      rw [none_] at owned
      cases owned
  | _ => trivial

/-- The session of the old agent is reported gone, and the new step counts as failed. -/
theorem agentGone_fails_new_step :
    let event : Event := .agentGone "planner" (.job "job")
    ∃ job after : Job, movedOn.world.state.jobs["job"]? = some job ∧ event.StaleFor "job" job ∧
      event.OwnerRegistered movedOn.agentOwners ∧
      (processEvent (.plain {}) .silent event movedOn).2.world.state.jobs["job"]? = some after ∧
      job.stepStatus = .running ∧ after.stepStatus = .failed := by
  intro event
  have moved : (movedOn.world.state.jobs["job"]?).map
      (fun job => (job.stepAgentId, job.stepStatus)) = some (some "coder", .running) := by
    decide +kernel
  have reported : ((processEvent (.plain {}) .silent event movedOn).2.world.state.jobs["job"]?).map
      (·.stepStatus) = some .failed := by
    decide +kernel
  obtain ⟨job, found, running⟩ := Option.map_eq_some_iff.mp moved
  obtain ⟨after, present, failed⟩ := Option.map_eq_some_iff.mp reported
  obtain ⟨coder, stepStatus⟩ := Prod.mk.inj running
  have other : job.stepAgentId ≠ some "planner" := by
    rw [coder]
    decide
  exact ⟨job, after, found, ⟨rfl, other⟩, movedOn_unregistered _, present, stepStatus, failed⟩

/-- A report that the old agent works, while the new step is running. -/
theorem processEvent_stale_repeated :
    let event : Event := .agentWorking "planner" (.job "job")
    ∃ job : Job, movedOn.world.state.jobs["job"]? = some job ∧ event.Repeats job ∧
      ∃ after : Job,
        (processEvent (.plain {}) .silent event movedOn).2.world.state.jobs["job"]? = some after ∧
        after.step = job.step ∧ after.stepStatus = job.stepStatus ∧ after.error = job.error ∧
        after.stepHistory = job.stepHistory := by
  intro event
  have moved : (movedOn.world.state.jobs["job"]?).map
      (fun job => (job.stepAgentId, job.stepStatus)) = some (some "coder", .running) := by
    decide +kernel
  obtain ⟨job, found, running⟩ := Option.map_eq_some_iff.mp moved
  obtain ⟨coder, stepStatus⟩ := Prod.mk.inj running
  have other : job.stepAgentId ≠ some "planner" := by
    rw [coder]
    decide
  have stale : event.StaleFor "job" job := ⟨rfl, other⟩
  have kept := processEvent_stale_iff (.plain {}) .silent found (movedOn_unregistered event) stale
  exact ⟨job, found, stepStatus, kept.mpr stepStatus⟩

end Handler

end OddJobs
