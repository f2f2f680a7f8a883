import OddJobs.Library.Every
import OddJobs.Storage.State

/-!
# Frames of events

Which tables an event leaves alone.  The events of jobs, agents and sessions do not
touch workers, queues, runbooks and crons.
-/

namespace OddJobs

open Library

namespace MaterializedState

/-- The tables that the events of jobs, steps, agents and sessions leave alone. -/
structure SameTables (before after : MaterializedState) : Prop where
  workers : after.workers = before.workers
  queueItems : after.queueItems = before.queueItems
  runbooks : after.runbooks = before.runbooks
  crons : after.crons = before.crons
  decisions : after.decisions = before.decisions

namespace SameTables

theorem refl (state : MaterializedState) : SameTables state state := ⟨rfl, rfl, rfl, rfl, rfl⟩

theorem updateJob (state : MaterializedState) (id : JobId) (update : Job → Job) :
    SameTables state (state.updateJob id update) := ⟨rfl, rfl, rfl, rfl, rfl⟩

theorem updateOwnerJob (state : MaterializedState) (owner : OwnerId) (update : Job → Job) :
    SameTables state (state.updateOwnerJob owner update) := by
  cases owner with
  | job id => exact .updateJob state id update
  | agentRun id => exact .refl state

theorem recordProjectRoot (state : MaterializedState) (ns : String) (projectRoot : PathBuf) :
    SameTables state (state.recordProjectRoot ns projectRoot) := by
  unfold MaterializedState.recordProjectRoot
  split
  · exact .refl state
  · exact ⟨rfl, rfl, rfl, rfl, rfl⟩

theorem stepStarted (state : MaterializedState) (clock : Clock) (jobId : JobId)
    (agentId : Option AgentId) (agentName : Option String) :
    SameTables state (state.applyStepStarted clock jobId agentId agentName) := by
  unfold applyStepStarted
  split
  · exact .refl state
  · cases agentId with
    | none => exact .updateJob state jobId _
    | some agentId => exact ⟨rfl, rfl, rfl, rfl, rfl⟩

theorem sessionCreated (state : MaterializedState) (id : SessionId) (owner : OwnerId) :
    SameTables state (state.applySessionCreated id owner) := by
  cases owner with
  | job jobId => exact ⟨rfl, rfl, rfl, rfl, rfl⟩
  | agentRun runId => exact ⟨rfl, rfl, rfl, rfl, rfl⟩

theorem workspaceCreated (state : MaterializedState) (clock : Clock) (id : WorkspaceId)
    (path : PathBuf) (branch : Option String) (owner : Option OwnerId)
    (workspaceType : Option String) :
    SameTables state (state.applyWorkspaceCreated clock id path branch owner workspaceType) := by
  cases owner with
  | none => exact ⟨rfl, rfl, rfl, rfl, rfl⟩
  | some owner =>
      cases owner with
      | job jobId => exact ⟨rfl, rfl, rfl, rfl, rfl⟩
      | agentRun runId => exact ⟨rfl, rfl, rfl, rfl, rfl⟩

theorem agentSignal (state : MaterializedState) (order : WalkOrder) (agentId : AgentId)
    (kind : AgentSignalKind) (message : Option String) :
    SameTables state (state.applyAgentSignal order agentId kind message) := by
  unfold applyAgentSignal
  split
  · exact .refl state
  · dsimp only
    split
    · exact ⟨rfl, rfl, rfl, rfl, rfl⟩
    · split
      · exact .updateJob state _ _
      · exact .refl state

theorem agentRunStarted (state : MaterializedState) (clock : Clock) (id : AgentRunId)
    (agentId : AgentId) : SameTables state (state.applyAgentRunStarted clock id agentId) := by
  unfold applyAgentRunStarted
  split
  · exact .refl state
  · exact ⟨rfl, rfl, rfl, rfl, rfl⟩

end SameTables

/-- The owner's status and the decisions are all that a decision touches. -/
theorem applyDecisionCreated_tables (id : String) (jobId : JobId) (agentId : Option String)
    (owner : OwnerId) (source : DecisionSource) (context : String)
    (options : List DecisionOption) (createdAtMs : Nat) (ns : String)
    (state : MaterializedState) :
    let after := state.applyDecisionCreated id jobId agentId owner source context options
      createdAtMs ns
    after.workers = state.workers ∧ after.queueItems = state.queueItems ∧
      after.runbooks = state.runbooks := by
  unfold applyDecisionCreated
  cases state.decisions.contains id with
  | true => cases owner <;> exact ⟨rfl, rfl, rfl⟩
  | false => cases owner <;> exact ⟨rfl, rfl, rfl⟩

theorem applyAgentRunStatusChanged_tables (clock : Clock) (id : AgentRunId)
    (status : AgentRunStatus) (reason : Option String) (state : MaterializedState) :
    let after := state.applyAgentRunStatusChanged clock id status reason
    after.workers = state.workers ∧ after.queueItems = state.queueItems ∧
      after.runbooks = state.runbooks := by
  unfold applyAgentRunStatusChanged
  dsimp only
  split
  · exact ⟨rfl, rfl, rfl⟩
  · exact ⟨rfl, rfl, rfl⟩

theorem applyJobAdvanced_tables (clock : Clock) (id : JobId) (step : String)
    (state : MaterializedState) :
    let after := state.applyJobAdvanced clock id step
    after.queueItems = state.queueItems ∧ after.runbooks = state.runbooks := by
  unfold applyJobAdvanced
  split
  · exact ⟨rfl, rfl⟩
  · dsimp only
    split
    · exact ⟨rfl, rfl⟩
    · exact ⟨rfl, rfl⟩

/-- What an advance makes of every job. -/
theorem lookup_applyJobAdvanced (clock : Clock) (id other : JobId) (step : String)
    (state : MaterializedState) :
    (state.applyJobAdvanced clock id step).jobs[other]? =
      if id = other then (state.jobs[other]?).map fun job =>
        if job.advanceSkipped step then job else job.applyAdvanced clock.epochMs step
      else state.jobs[other]? := by
  have updated := state.lookup_updateJob id other (Job.applyAdvanced clock.epochMs step)
  have released : ∀ after : MaterializedState, (after.releaseJob id).jobs = after.jobs :=
    fun _ => rfl
  unfold applyJobAdvanced
  rcases Decidable.em (id = other) with rfl | differs
  · rw [if_pos rfl] at updated ⊢
    cases found : state.jobs[id]? with
    | none =>
        rw [found] at updated
        rw [Option.any_none, if_neg Bool.false_ne_true]
        dsimp only
        split
        · rw [released]
          exact updated
        · exact updated
    | some job =>
        rw [found] at updated
        rw [Option.any_some]
        cases skipped : job.advanceSkipped step with
        | true => simp only [↓reduceIte, found, Option.map_some, skipped]
        | false =>
            simp only [Bool.false_eq_true, ↓reduceIte, Option.map_some, skipped]
            split
            · rw [released]
              exact updated
            · exact updated
  · rw [if_neg differs] at updated ⊢
    split
    · rfl
    · dsimp only
      split
      · rw [released]
        exact updated
      · exact updated

end MaterializedState

namespace Event

def onWorkers : Event → Bool
  | workerStarted .. | workerItemDispatched .. | workerStopped .. | workerResized ..
  | workerDeleted .. | jobAdvanced .. => true
  | _ => false

def onQueues : Event → Bool
  | queuePushed .. | queueTaken .. | queueCompleted .. | queueFailed .. | queueDropped ..
  | queueItemRetry .. | queueItemDead .. => true
  | _ => false

def loadsRunbook : Event → Bool
  | runbookLoaded .. => true
  | _ => false

end Event

namespace MaterializedState

def Listed (state : MaterializedState) (id : JobId) : Prop :=
  ∃ (key : String) (record : WorkerRecord),
    state.workers[key]? = some record ∧ id ∈ record.activeJobIds

/-- Other events leave the worker records alone. -/
theorem applyEvent_workers (order : WalkOrder) (clock : Clock) (state : MaterializedState)
    {event : Event} (other : event.onWorkers = false) :
    (state.applyEvent order clock event).workers = state.workers := by
  cases event with
  | workerStarted | workerItemDispatched | workerStopped | workerResized | workerDeleted
  | jobAdvanced => cases other
  | agentWorking agentId owner | agentExited agentId exitCode owner
  | agentFailed agentId error owner | agentGone agentId owner =>
      exact (SameTables.updateOwnerJob state owner _).workers
  | stepStarted jobId step agentId agentName =>
      exact (SameTables.stepStarted state clock jobId agentId agentName).workers
  | sessionCreated id owner => exact (SameTables.sessionCreated state id owner).workers
  | workspaceCreated id path branch owner workspaceType =>
      exact (SameTables.workspaceCreated state clock id path branch owner workspaceType).workers
  | agentSignal agentId kind message =>
      exact (SameTables.agentSignal state order agentId kind message).workers
  | cronStarted cronName projectRoot runbookHash interval runTarget ns =>
      exact (SameTables.recordProjectRoot state ns projectRoot).workers
  | decisionCreated id jobId agentId owner source context options createdAtMs ns =>
      exact (applyDecisionCreated_tables id jobId agentId owner source context options createdAtMs
        ns state).1
  | agentRunStarted id agentId => exact (SameTables.agentRunStarted state clock id agentId).workers
  | agentRunStatusChanged id status reason =>
      exact (applyAgentRunStatusChanged_tables clock id status reason state).1
  | commandRun jobId jobName projectRoot invokeDir ns command args =>
      exact (SameTables.recordProjectRoot state ns projectRoot).workers
  | _ => rfl

/-- Other events leave the queue items alone. -/
theorem applyEvent_queueItems (order : WalkOrder) (clock : Clock) (state : MaterializedState)
    {event : Event} (other : event.onQueues = false) :
    (state.applyEvent order clock event).queueItems = state.queueItems := by
  cases event with
  | queuePushed | queueTaken | queueCompleted | queueFailed | queueDropped | queueItemRetry
  | queueItemDead => cases other
  | agentWorking agentId owner | agentExited agentId exitCode owner
  | agentFailed agentId error owner | agentGone agentId owner =>
      exact (SameTables.updateOwnerJob state owner _).queueItems
  | jobAdvanced id step => exact (applyJobAdvanced_tables clock id step state).1
  | stepStarted jobId step agentId agentName =>
      exact (SameTables.stepStarted state clock jobId agentId agentName).queueItems
  | sessionCreated id owner => exact (SameTables.sessionCreated state id owner).queueItems
  | workspaceCreated id path branch owner workspaceType =>
      exact (SameTables.workspaceCreated state clock id path branch owner workspaceType).queueItems
  | agentSignal agentId kind message =>
      exact (SameTables.agentSignal state order agentId kind message).queueItems
  | workerStarted workerName projectRoot runbookHash queueName concurrency ns =>
      exact (SameTables.recordProjectRoot state ns projectRoot).queueItems
  | cronStarted cronName projectRoot runbookHash interval runTarget ns =>
      exact (SameTables.recordProjectRoot state ns projectRoot).queueItems
  | decisionCreated id jobId agentId owner source context options createdAtMs ns =>
      exact (applyDecisionCreated_tables id jobId agentId owner source context options createdAtMs
        ns state).2.1
  | agentRunStarted id agentId =>
      exact (SameTables.agentRunStarted state clock id agentId).queueItems
  | agentRunStatusChanged id status reason =>
      exact (applyAgentRunStatusChanged_tables clock id status reason state).2.1
  | commandRun jobId jobName projectRoot invokeDir ns command args =>
      exact (SameTables.recordProjectRoot state ns projectRoot).queueItems
  | _ => rfl

/-- Runbooks are only ever stored. -/
theorem applyEvent_runbooks (order : WalkOrder) (clock : Clock) (state : MaterializedState)
    {event : Event} (other : event.loadsRunbook = false) :
    (state.applyEvent order clock event).runbooks = state.runbooks := by
  cases event with
  | runbookLoaded => cases other
  | agentWorking agentId owner | agentExited agentId exitCode owner
  | agentFailed agentId error owner | agentGone agentId owner =>
      exact (SameTables.updateOwnerJob state owner _).runbooks
  | jobAdvanced id step => exact (applyJobAdvanced_tables clock id step state).2
  | stepStarted jobId step agentId agentName =>
      exact (SameTables.stepStarted state clock jobId agentId agentName).runbooks
  | sessionCreated id owner => exact (SameTables.sessionCreated state id owner).runbooks
  | workspaceCreated id path branch owner workspaceType =>
      exact (SameTables.workspaceCreated state clock id path branch owner workspaceType).runbooks
  | agentSignal agentId kind message =>
      exact (SameTables.agentSignal state order agentId kind message).runbooks
  | workerStarted workerName projectRoot runbookHash queueName concurrency ns =>
      exact (SameTables.recordProjectRoot state ns projectRoot).runbooks
  | cronStarted cronName projectRoot runbookHash interval runTarget ns =>
      exact (SameTables.recordProjectRoot state ns projectRoot).runbooks
  | decisionCreated id jobId agentId owner source context options createdAtMs ns =>
      exact (applyDecisionCreated_tables id jobId agentId owner source context options createdAtMs
        ns state).2.2
  | agentRunStarted id agentId => exact (SameTables.agentRunStarted state clock id agentId).runbooks
  | agentRunStatusChanged id status reason =>
      exact (applyAgentRunStatusChanged_tables clock id status reason state).2.2
  | commandRun jobId jobName projectRoot invokeDir ns command args =>
      exact (SameTables.recordProjectRoot state ns projectRoot).runbooks
  | _ => rfl

end MaterializedState

/-! ## What other events leave of a job -/

namespace Job

/-- An update that at most rewrites the open record, not its name. -/
structure SameHistory (before after : Job) : Prop where
  id : after.id = before.id
  step : after.step = before.step
  visits : after.stepVisits = before.stepVisits
  cancelled : before.cancelling = true → after.cancelling = true
  grace : after.idleGraceLogSize = before.idleGraceLogSize
  records : ∃ update : StepRecord → StepRecord, (∀ record, (update record).name = record.name) ∧
    after.stepHistory = updateOpenRecord update before.stepHistory

theorem updateOpenRecord_id (history : List StepRecord) :
    updateOpenRecord (fun record => record) history = history := by
  induction history using List.reverseRecOn with
  | nil => rfl
  | append_singleton init record _ =>
      rw [updateOpenRecord_concat]
      split <;> rfl

/-- An update of other fields. -/
theorem SameHistory.of_records {before after : Job} (id : after.id = before.id)
    (step : after.step = before.step) (visits : after.stepVisits = before.stepVisits)
    (cancelled : before.cancelling = true → after.cancelling = true)
    (grace : after.idleGraceLogSize = before.idleGraceLogSize)
    (records : after.stepHistory = before.stepHistory) : SameHistory before after where
  id
  step
  visits
  cancelled
  grace
  records := ⟨fun record => record, fun _ => rfl, records.trans (updateOpenRecord_id _).symm⟩

/-- An update of the open record. -/
theorem SameHistory.rewrite (update : StepRecord → StepRecord)
    (keepsName : ∀ record, (update record).name = record.name) {before after : Job}
    (id : after.id = before.id) (step : after.step = before.step)
    (visits : after.stepVisits = before.stepVisits)
    (cancelled : before.cancelling = true → after.cancelling = true)
    (grace : after.idleGraceLogSize = before.idleGraceLogSize)
    (records : after.stepHistory = updateOpenRecord update before.stepHistory) :
    SameHistory before after :=
  ⟨id, step, visits, cancelled, grace, update, keepsName, records⟩

theorem SameHistory.refl (job : Job) : SameHistory job job :=
  .of_records rfl rfl rfl (fun held => held) rfl rfl

/-! ## The other events -/

theorem sameHistory_finalize (job : Job) (status : StepStatus) (error : Option String)
    (outcome : StepOutcome) (epochMs : Nat) :
    SameHistory job
      (({ job with stepStatus := status, error } : Job).finalizeCurrentStep outcome epochMs) :=
  .rewrite (fun record => { record with finishedAtMs := some epochMs, outcome }) (fun _ => rfl)
    rfl rfl rfl (fun held => held) rfl rfl

theorem sameHistory_applyAgentExited (exitCode : Option Int) (job : Job) :
    SameHistory job (job.applyAgentExited exitCode) := by
  unfold applyAgentExited
  split
  · exact .refl job
  · split
    · exact .of_records rfl rfl rfl (fun held => held) rfl rfl
    · exact .of_records rfl rfl rfl (fun held => held) rfl rfl

theorem sameHistory_applyAgentLost (message : String) (job : Job) :
    SameHistory job (job.applyAgentLost message) := by
  unfold applyAgentLost
  split
  · exact .refl job
  · exact .of_records rfl rfl rfl (fun held => held) rfl rfl

theorem sameHistory_applyShellExited (epochMs : Nat) (exitCode : Int) (job : Job) :
    SameHistory job (job.applyShellExited epochMs exitCode) := by
  unfold applyShellExited
  split
  · exact job.sameHistory_finalize .completed job.error .completed epochMs
  · exact job.sameHistory_finalize .failed _ _ epochMs

theorem sameHistory_applyStepStarted (agentId : Option AgentId) (agentName : Option String)
    (job : Job) : SameHistory job (job.applyStepStarted agentId agentName) := by
  rw [applyStepStarted_eq]
  exact ⟨rfl, rfl, rfl, fun held => held, rfl, startedRecord agentId agentName, fun _ => rfl, rfl⟩

theorem sameHistory_applyStepWaiting (reason decisionId : Option String) (job : Job) :
    SameHistory job (job.applyStepWaiting reason decisionId) :=
  .rewrite (fun record => { record with outcome := .waiting (reason.getD "") }) (fun _ => rfl)
    rfl rfl rfl (fun held => held) rfl rfl

end Job

namespace MaterializedState

theorem sameHistory_updateJob (state : MaterializedState) (id : JobId) {update : Job → Job}
    (same : ∀ job : Job, job.SameHistory (update job)) :
    Table.Pointwise Job.SameHistory state.jobs (state.updateJob id update).jobs :=
  Table.Pointwise.modify Job.SameHistory.refl state.jobs id same

theorem sameHistory_updateOwnerJob (state : MaterializedState) (owner : OwnerId)
    {update : Job → Job} (same : ∀ job : Job, job.SameHistory (update job)) :
    Table.Pointwise Job.SameHistory state.jobs (state.updateOwnerJob owner update).jobs := by
  cases owner with
  | job id => exact state.sameHistory_updateJob id same
  | agentRun id => exact .refl Job.SameHistory.refl state.jobs

theorem sameHistory_stepStarted (state : MaterializedState) (clock : Clock) (jobId : JobId)
    (agentId : Option AgentId) (agentName : Option String) :
    Table.Pointwise Job.SameHistory state.jobs
      (state.applyStepStarted clock jobId agentId agentName).jobs := by
  have started := state.sameHistory_updateJob jobId
    fun job => job.sameHistory_applyStepStarted agentId agentName
  unfold applyStepStarted
  split
  · exact .refl Job.SameHistory.refl state.jobs
  · cases agentId with
    | none => exact started
    | some agentId => exact started

theorem sameHistory_sessionCreated (state : MaterializedState) (id : SessionId)
    (owner : OwnerId) :
    Table.Pointwise Job.SameHistory state.jobs (state.applySessionCreated id owner).jobs := by
  cases owner with
  | job jobId =>
      exact state.sameHistory_updateJob jobId fun _ =>
        .of_records rfl rfl rfl (fun held => held) rfl rfl
  | agentRun runId => exact .refl Job.SameHistory.refl state.jobs

theorem sameHistory_sessionDeleted (state : MaterializedState) (id : SessionId) :
    Table.Pointwise Job.SameHistory state.jobs (state.applySessionDeleted id).jobs := by
  refine .map state.jobs fun job => ?_
  split
  · exact .of_records rfl rfl rfl (fun held => held) rfl rfl
  · exact .refl job

theorem sameHistory_workspaceCreated (state : MaterializedState) (clock : Clock)
    (id : WorkspaceId) (path : PathBuf) (branch : Option String) (owner : Option OwnerId)
    (workspaceType : Option String) :
    Table.Pointwise Job.SameHistory state.jobs
      (state.applyWorkspaceCreated clock id path branch owner workspaceType).jobs := by
  cases owner with
  | none => exact .refl Job.SameHistory.refl state.jobs
  | some owner =>
      cases owner with
      | job jobId =>
          exact state.sameHistory_updateJob jobId fun _ =>
            .of_records rfl rfl rfl (fun held => held) rfl rfl
      | agentRun runId => exact .refl Job.SameHistory.refl state.jobs

theorem sameHistory_agentSignal (state : MaterializedState) (order : WalkOrder)
    (agentId : AgentId) (kind : AgentSignalKind) (message : Option String) :
    Table.Pointwise Job.SameHistory state.jobs
      (state.applyAgentSignal order agentId kind message).jobs := by
  unfold applyAgentSignal
  split
  · exact .refl Job.SameHistory.refl state.jobs
  · dsimp only
    split
    · exact .refl Job.SameHistory.refl state.jobs
    · split
      · exact state.sameHistory_updateJob _ fun _ => .of_records rfl rfl rfl (fun held => held) rfl rfl
      · exact .refl Job.SameHistory.refl state.jobs

theorem sameHistory_decisionCreated (state : MaterializedState) (id : String) (jobId : JobId)
    (agentId : Option String) (owner : OwnerId) (source : DecisionSource) (context : String)
    (options : List DecisionOption) (createdAtMs : Nat) (ns : String) :
    Table.Pointwise Job.SameHistory state.jobs
      (state.applyDecisionCreated id jobId agentId owner source context options createdAtMs
        ns).jobs := by
  have waiting : ∀ jobId, Table.Pointwise Job.SameHistory state.jobs
      (state.updateJob jobId fun job => { job with stepStatus := .waiting (some id) }).jobs :=
    fun jobId => state.sameHistory_updateJob jobId fun _ =>
      .of_records rfl rfl rfl (fun held => held) rfl rfl
  have kept := Table.Pointwise.refl Job.SameHistory.refl state.jobs
  unfold applyDecisionCreated
  cases state.decisions.contains id with
  | true =>
      cases owner with
      | job jobId => exact waiting jobId
      | agentRun runId => exact kept
  | false =>
      cases owner with
      | job jobId => exact waiting jobId
      | agentRun runId => exact kept

theorem applyAgentRunStarted_jobs (clock : Clock) (id : AgentRunId) (agentId : AgentId)
    (state : MaterializedState) :
    (state.applyAgentRunStarted clock id agentId).jobs = state.jobs := by
  unfold applyAgentRunStarted
  split <;> rfl

theorem applyAgentRunStatusChanged_jobs (clock : Clock) (id : AgentRunId)
    (status : AgentRunStatus) (reason : Option String) (state : MaterializedState) :
    (state.applyAgentRunStatusChanged clock id status reason).jobs = state.jobs := by
  unfold applyAgentRunStatusChanged
  dsimp only
  split <;> rfl

end MaterializedState

/-- The events that bring a job into being, move it to another step or remove it. -/
def Event.movesJob : Event → Bool
  | jobCreated .. | jobAdvanced .. | jobDeleted .. => true
  | _ => false

namespace MaterializedState

/-- The other events rewrite at most the open record of a job. -/
theorem applyEvent_sameHistory (order : WalkOrder) (clock : Clock) (state : MaterializedState)
    {event : Event} (stays : event.movesJob = false) :
    Table.Pointwise Job.SameHistory state.jobs (state.applyEvent order clock event).jobs := by
  have kept := Table.Pointwise.refl Job.SameHistory.refl state.jobs
  cases event with
  | jobCreated | jobAdvanced | jobDeleted => cases stays
  | agentWorking agentId owner =>
      exact state.sameHistory_updateOwnerJob owner fun _ =>
        .of_records rfl rfl rfl (fun held => held) rfl rfl
  | agentExited agentId exitCode owner =>
      exact state.sameHistory_updateOwnerJob owner fun job => job.sameHistory_applyAgentExited exitCode
  | agentFailed agentId error owner =>
      exact state.sameHistory_updateOwnerJob owner fun job => job.sameHistory_applyAgentLost error.display
  | agentGone agentId owner =>
      exact state.sameHistory_updateOwnerJob owner fun job => job.sameHistory_applyAgentLost _
  | shellExited jobId step exitCode stdout stderr =>
      exact state.sameHistory_updateJob jobId fun job =>
        job.sameHistory_applyShellExited clock.epochMs exitCode
  | stepStarted jobId step agentId agentName =>
      exact state.sameHistory_stepStarted clock jobId agentId agentName
  | stepWaiting jobId step reason decisionId =>
      exact state.sameHistory_updateJob jobId fun job =>
        job.sameHistory_applyStepWaiting reason decisionId
  | stepCompleted jobId step =>
      exact state.sameHistory_updateJob jobId fun job =>
        job.sameHistory_finalize .completed job.error .completed clock.epochMs
  | stepFailed jobId step error =>
      exact state.sameHistory_updateJob jobId fun job =>
        job.sameHistory_finalize .failed (some error) (.failed error) clock.epochMs
  | jobCancelling id =>
      exact state.sameHistory_updateJob id fun _ => .of_records rfl rfl rfl (fun _ => rfl) rfl rfl
  | jobUpdated id vars =>
      exact state.sameHistory_updateJob id fun _ =>
        .of_records rfl rfl rfl (fun held => held) rfl rfl
  | sessionCreated id owner => exact state.sameHistory_sessionCreated id owner
  | sessionDeleted id => exact state.sameHistory_sessionDeleted id
  | workspaceCreated id path branch owner workspaceType =>
      exact state.sameHistory_workspaceCreated clock id path branch owner workspaceType
  | agentSignal agentId kind message =>
      exact state.sameHistory_agentSignal order agentId kind message
  | workerStarted workerName projectRoot runbookHash queueName concurrency ns =>
      exact (state.recordProjectRoot_jobs ns projectRoot).symm ▸ kept
  | cronStarted cronName projectRoot runbookHash interval runTarget ns =>
      exact (state.recordProjectRoot_jobs ns projectRoot).symm ▸ kept
  | decisionCreated id jobId agentId owner source context options createdAtMs ns =>
      exact state.sameHistory_decisionCreated id jobId agentId owner source context options
        createdAtMs ns
  | agentRunStarted id agentId =>
      exact (applyAgentRunStarted_jobs clock id agentId state).symm ▸ kept
  | agentRunStatusChanged id status reason =>
      exact (applyAgentRunStatusChanged_jobs clock id status reason state).symm ▸ kept
  | commandRun jobId jobName projectRoot invokeDir ns command args =>
      exact (state.recordProjectRoot_jobs ns projectRoot).symm ▸ kept
  | _ => exact kept

/-! ## What events leave of the variables of a job -/

end MaterializedState

/-- The events that bring a job into being, remove it or rewrite its variables. -/
def Event.rewritesVars : Event → Bool
  | jobCreated .. | jobDeleted .. | jobUpdated .. => true
  | _ => false

def Job.SameVars (before after : Job) : Prop := after.vars = before.vars

theorem Job.SameVars.refl (job : Job) : SameVars job job := rfl

namespace MaterializedState

theorem sameVars_updateJob (state : MaterializedState) (id : JobId) {update : Job → Job}
    (same : ∀ job : Job, job.SameVars (update job)) :
    Table.Pointwise Job.SameVars state.jobs (state.updateJob id update).jobs :=
  Table.Pointwise.modify Job.SameVars.refl state.jobs id same

theorem sameVars_updateOwnerJob (state : MaterializedState) (owner : OwnerId)
    {update : Job → Job} (same : ∀ job : Job, job.SameVars (update job)) :
    Table.Pointwise Job.SameVars state.jobs (state.updateOwnerJob owner update).jobs := by
  cases owner with
  | job id => exact state.sameVars_updateJob id same
  | agentRun id => exact .refl Job.SameVars.refl state.jobs

theorem sameVars_jobAdvanced (state : MaterializedState) (clock : Clock) (id : JobId)
    (step : String) :
    Table.Pointwise Job.SameVars state.jobs (state.applyJobAdvanced clock id step).jobs := by
  unfold applyJobAdvanced
  have same (job : Job) : job.SameVars (job.applyAdvanced clock.epochMs step) := by
    rw [Job.SameVars, Job.applyAdvanced_eq]
  have advanced := state.sameVars_updateJob id same
  split
  · exact .refl Job.SameVars.refl state.jobs
  · dsimp only
    split
    · exact advanced
    · exact advanced

/-- The other events leave the variables of every job as they are. -/
theorem applyEvent_sameVars (order : WalkOrder) (clock : Clock) (state : MaterializedState)
    {event : Event} (stays : event.rewritesVars = false) :
    Table.Pointwise Job.SameVars state.jobs (state.applyEvent order clock event).jobs := by
  have kept := Table.Pointwise.refl Job.SameVars.refl state.jobs
  cases event with
  | jobCreated | jobUpdated | jobDeleted => cases stays
  | jobAdvanced id step => exact state.sameVars_jobAdvanced clock id step
  | agentWorking agentId owner => exact state.sameVars_updateOwnerJob owner fun _ => rfl
  | agentExited agentId exitCode owner =>
      refine state.sameVars_updateOwnerJob owner fun job => ?_
      unfold Job.applyAgentExited
      split
      · rfl
      · split <;> rfl
  | agentFailed agentId error owner | agentGone agentId owner =>
      refine state.sameVars_updateOwnerJob owner fun job => ?_
      unfold Job.applyAgentLost
      split <;> rfl
  | shellExited jobId step exitCode stdout stderr =>
      refine state.sameVars_updateJob jobId fun job => ?_
      unfold Job.applyShellExited
      split <;> rfl
  | stepStarted jobId step agentId agentName =>
      have same (job : Job) : job.SameVars (job.applyStepStarted agentId agentName) := by
        rw [Job.SameVars, Job.applyStepStarted_eq]
      have started := state.sameVars_updateJob jobId same
      change Table.Pointwise _ _ (state.applyStepStarted clock jobId agentId agentName).jobs
      unfold applyStepStarted
      split
      · exact kept
      · cases agentId with
        | none => exact started
        | some agentId => exact started
  | stepWaiting jobId | stepCompleted jobId | stepFailed jobId | jobCancelling jobId =>
      exact state.sameVars_updateJob jobId fun _ => rfl
  | sessionCreated id owner =>
      cases owner with
      | job jobId => exact state.sameVars_updateJob jobId fun _ => rfl
      | agentRun runId => exact kept
  | sessionDeleted id =>
      refine .map state.jobs fun job => ?_
      split <;> rfl
  | workspaceCreated id path branch owner workspaceType =>
      cases owner with
      | none => exact kept
      | some owner =>
          cases owner with
          | job jobId => exact state.sameVars_updateJob jobId fun _ => rfl
          | agentRun runId => exact kept
  | agentSignal agentId kind message =>
      change Table.Pointwise _ _ (state.applyAgentSignal order agentId kind message).jobs
      unfold applyAgentSignal
      split
      · exact kept
      · dsimp only
        split
        · exact kept
        · split
          · exact state.sameVars_updateJob _ fun _ => rfl
          · exact kept
  | workerStarted workerName projectRoot runbookHash queueName concurrency ns =>
      exact (state.recordProjectRoot_jobs ns projectRoot).symm ▸ kept
  | cronStarted cronName projectRoot runbookHash interval runTarget ns =>
      exact (state.recordProjectRoot_jobs ns projectRoot).symm ▸ kept
  | decisionCreated id jobId agentId owner source context options createdAtMs ns =>
      have waiting (jobId : JobId) : Table.Pointwise Job.SameVars state.jobs
          (state.updateJob jobId fun job => { job with stepStatus := .waiting (some id) }).jobs :=
        state.sameVars_updateJob jobId fun _ => rfl
      change Table.Pointwise _ _ (state.applyDecisionCreated id jobId agentId owner source context
        options createdAtMs ns).jobs
      unfold applyDecisionCreated
      cases state.decisions.contains id with
      | true =>
          cases owner with
          | job jobId => exact waiting jobId
          | agentRun runId => exact kept
      | false =>
          cases owner with
          | job jobId => exact waiting jobId
          | agentRun runId => exact kept
  | agentRunStarted id agentId =>
      exact (applyAgentRunStarted_jobs clock id agentId state).symm ▸ kept
  | agentRunStatusChanged id status reason =>
      exact (applyAgentRunStatusChanged_jobs clock id status reason state).symm ▸ kept
  | commandRun jobId jobName projectRoot invokeDir ns command args =>
      exact (state.recordProjectRoot_jobs ns projectRoot).symm ▸ kept
  | _ => exact kept

/-! ## What other events leave of an agent run -/

end MaterializedState

def Event.movesRun : Event → Bool
  | agentRunCreated .. | agentRunDeleted .. => true
  | _ => false

/-- What is noted of an agent run that becomes idle stays. -/
def AgentRun.SameGrace (before after : AgentRun) : Prop :=
  after.idleGraceLogSize = before.idleGraceLogSize

theorem AgentRun.SameGrace.refl (run : AgentRun) : SameGrace run run := rfl

namespace MaterializedState

theorem agentRuns_updateOwnerJob (state : MaterializedState) (owner : OwnerId)
    (update : Job → Job) : (state.updateOwnerJob owner update).agentRuns = state.agentRuns := by
  cases owner with
  | job id => rfl
  | agentRun id => rfl

theorem agentRuns_recordProjectRoot (state : MaterializedState) (ns : String)
    (projectRoot : PathBuf) :
    (state.recordProjectRoot ns projectRoot).agentRuns = state.agentRuns := by
  unfold MaterializedState.recordProjectRoot
  split
  · rfl
  · rfl

theorem agentRuns_stepStarted (state : MaterializedState) (clock : Clock) (jobId : JobId)
    (agentId : Option AgentId) (agentName : Option String) :
    (state.applyStepStarted clock jobId agentId agentName).agentRuns = state.agentRuns := by
  unfold applyStepStarted
  split
  · rfl
  · cases agentId with
    | none => rfl
    | some agentId => rfl

theorem agentRuns_jobAdvanced (state : MaterializedState) (clock : Clock) (id : JobId)
    (step : String) : (state.applyJobAdvanced clock id step).agentRuns = state.agentRuns := by
  unfold applyJobAdvanced
  split
  · rfl
  · dsimp only
    split
    · rfl
    · rfl

theorem agentRuns_workspaceCreated (state : MaterializedState) (clock : Clock) (id : WorkspaceId)
    (path : PathBuf) (branch : Option String) (owner : Option OwnerId)
    (workspaceType : Option String) :
    (state.applyWorkspaceCreated clock id path branch owner workspaceType).agentRuns =
      state.agentRuns := by
  cases owner with
  | none => rfl
  | some owner =>
      cases owner with
      | job jobId => rfl
      | agentRun runId => rfl

theorem sameGrace_modify (runs : HashMap AgentRun) (id : AgentRunId) {update : AgentRun → AgentRun}
    (same : ∀ run, AgentRun.SameGrace run (update run)) :
    Table.Pointwise AgentRun.SameGrace runs (runs.modify id update) :=
  Table.Pointwise.modify AgentRun.SameGrace.refl runs id same

theorem sameGrace_agentSignal (state : MaterializedState) (order : WalkOrder) (agentId : AgentId)
    (kind : AgentSignalKind) (message : Option String) :
    Table.Pointwise AgentRun.SameGrace state.agentRuns
      (state.applyAgentSignal order agentId kind message).agentRuns := by
  have kept := Table.Pointwise.refl AgentRun.SameGrace.refl state.agentRuns
  unfold applyAgentSignal
  split
  · exact kept
  · dsimp only
    split
    · exact sameGrace_modify _ _ fun _ => rfl
    · split
      · exact kept
      · exact kept

theorem sameGrace_decisionCreated (state : MaterializedState) (id : String) (jobId : JobId)
    (agentId : Option String) (owner : OwnerId) (source : DecisionSource) (context : String)
    (options : List DecisionOption) (createdAtMs : Nat) (ns : String) :
    Table.Pointwise AgentRun.SameGrace state.agentRuns
      (state.applyDecisionCreated id jobId agentId owner source context options createdAtMs
        ns).agentRuns := by
  have kept := Table.Pointwise.refl AgentRun.SameGrace.refl state.agentRuns
  unfold applyDecisionCreated
  cases state.decisions.contains id with
  | true =>
      cases owner with
      | job id => exact kept
      | agentRun id => exact sameGrace_modify _ _ fun _ => rfl
  | false =>
      cases owner with
      | job id => exact kept
      | agentRun id => exact sameGrace_modify _ _ fun _ => rfl

theorem sameGrace_agentRunStarted (state : MaterializedState) (clock : Clock) (id : AgentRunId)
    (agentId : AgentId) : Table.Pointwise AgentRun.SameGrace state.agentRuns
      (state.applyAgentRunStarted clock id agentId).agentRuns := by
  unfold applyAgentRunStarted
  split
  · exact Table.Pointwise.refl AgentRun.SameGrace.refl _
  · exact sameGrace_modify _ _ fun _ => rfl

theorem sameGrace_agentRunStatusChanged (state : MaterializedState) (clock : Clock)
    (id : AgentRunId) (status : AgentRunStatus) (reason : Option String) :
    Table.Pointwise AgentRun.SameGrace state.agentRuns
      (state.applyAgentRunStatusChanged clock id status reason).agentRuns := by
  unfold applyAgentRunStatusChanged
  dsimp only
  split
  · exact sameGrace_modify _ _ fun _ => rfl
  · exact sameGrace_modify _ _ fun _ => rfl

/-- The other events note nothing of the grace of an agent run. -/
theorem applyEvent_sameGrace (order : WalkOrder) (clock : Clock) (state : MaterializedState)
    {event : Event} (stays : event.movesRun = false) :
    Table.Pointwise AgentRun.SameGrace state.agentRuns
      (state.applyEvent order clock event).agentRuns := by
  have kept := Table.Pointwise.refl AgentRun.SameGrace.refl state.agentRuns
  cases event with
  | agentRunCreated | agentRunDeleted => cases stays
  | agentWorking agentId owner => exact (state.agentRuns_updateOwnerJob owner _).symm ▸ kept
  | agentExited agentId exitCode owner =>
      exact (state.agentRuns_updateOwnerJob owner _).symm ▸ kept
  | agentFailed agentId error owner => exact (state.agentRuns_updateOwnerJob owner _).symm ▸ kept
  | agentGone agentId owner => exact (state.agentRuns_updateOwnerJob owner _).symm ▸ kept
  | stepStarted jobId step agentId agentName =>
      exact (state.agentRuns_stepStarted clock jobId agentId agentName).symm ▸ kept
  | jobAdvanced id step => exact (state.agentRuns_jobAdvanced clock id step).symm ▸ kept
  | workspaceCreated id path branch owner workspaceType =>
      exact (state.agentRuns_workspaceCreated clock id path branch owner workspaceType).symm ▸ kept
  | workerStarted workerName projectRoot runbookHash queueName concurrency ns =>
      exact (state.agentRuns_recordProjectRoot ns projectRoot).symm ▸ kept
  | cronStarted cronName projectRoot runbookHash interval runTarget ns =>
      exact (state.agentRuns_recordProjectRoot ns projectRoot).symm ▸ kept
  | commandRun jobId jobName projectRoot invokeDir ns command args =>
      exact (state.agentRuns_recordProjectRoot ns projectRoot).symm ▸ kept
  | sessionCreated id owner =>
      cases owner with
      | job jobId => exact kept
      | agentRun runId => exact sameGrace_modify _ _ fun _ => rfl
  | sessionDeleted id =>
      refine Table.Pointwise.map _ fun run => ?_
      unfold AgentRun.SameGrace
      split
      · rfl
      · rfl
  | agentSignal agentId kind message => exact state.sameGrace_agentSignal order agentId kind message
  | decisionCreated id jobId agentId owner source context options createdAtMs ns =>
      exact state.sameGrace_decisionCreated id jobId agentId owner source context options
        createdAtMs ns
  | agentRunStarted id agentId => exact state.sameGrace_agentRunStarted clock id agentId
  | agentRunStatusChanged id status reason =>
      exact state.sameGrace_agentRunStatusChanged clock id status reason
  | _ => exact kept

end MaterializedState

end OddJobs
