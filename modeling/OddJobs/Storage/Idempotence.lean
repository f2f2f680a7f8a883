import OddJobs.Storage.Stamps

/-!
# Applying an event twice

The idempotency requirement of `apply_event`: a second application, at another
reading of the clock, changes no field but those stamped from the clock.
-/

namespace OddJobs

open Library

/-! ## Fields stamped from the clock -/

def Job.forgetInstants (job : Job) : Job := { job with createdAt := 0, stepStartedAt := 0 }

namespace MaterializedState

/-- Erase the epoch times that agents, agent runs, workspaces and crons take
from the wall clock. -/
def forgetStamps (state : MaterializedState) : MaterializedState :=
  { state with
    agents := Table.project state.agents AgentRecord.forgetStamps
    agentRuns := Table.project state.agentRuns AgentRun.forgetStamps
    workspaces := Table.project state.workspaces Workspace.forgetStamps
    crons := Table.project state.crons CronRecord.forgetStamps }

def forgetInstants (state : MaterializedState) : MaterializedState :=
  { state with jobs := Table.project state.jobs Job.forgetInstants }

end MaterializedState

/-! ## One job, one item -/

namespace Job

theorem applyAgentExited_twice (exitCode : Option Int) (job : Job) :
    applyAgentExited exitCode (applyAgentExited exitCode job) = applyAgentExited exitCode job := by
  cases ended : job.isTerminal with
  | true => simp [applyAgentExited, ended]
  | false =>
      by_cases success : exitCode = some 0
      · simp [applyAgentExited, ended, success]
      · have stays : ∀ error, ({ job with stepStatus := .failed, error } : Job).isTerminal = false :=
          fun _ => ended
        simp [applyAgentExited, ended, success, stays]

theorem applyAgentLost_twice (message : String) (job : Job) :
    applyAgentLost message (applyAgentLost message job) = applyAgentLost message job := by
  cases ended : job.isTerminal with
  | true => simp [applyAgentLost, ended]
  | false =>
      have stays : ({ job with stepStatus := .failed, error := some message } : Job).isTerminal = false :=
        ended
      simp [applyAgentLost, ended, stays]

/-- A status and an error written again before the record is finished again. -/
private theorem finalize_rewritten (job : Job) (status : StepStatus) (error : Option String)
    (outcome : StepOutcome) (epochMs again : Nat) :
    ({ ({ job with stepStatus := status, error } : Job).finalizeCurrentStep outcome epochMs with
        stepStatus := status, error } : Job).finalizeCurrentStep outcome again =
      ({ job with stepStatus := status, error } : Job).finalizeCurrentStep outcome epochMs :=
  finalizeCurrentStep_twice { job with stepStatus := status, error } outcome outcome epochMs again

theorem applyStepCompleted_twice (epochMs again : Nat) (job : Job) :
    applyStepCompleted again (applyStepCompleted epochMs job) = applyStepCompleted epochMs job :=
  finalize_rewritten job .completed job.error .completed epochMs again

theorem applyStepFailed_twice (epochMs again : Nat) (error : String) (job : Job) :
    applyStepFailed again error (applyStepFailed epochMs error job) =
      applyStepFailed epochMs error job :=
  finalize_rewritten job .failed (some error) (.failed error) epochMs again

theorem applyShellExited_twice (epochMs again : Nat) (exitCode : Int) (job : Job) :
    applyShellExited again exitCode (applyShellExited epochMs exitCode job) =
      applyShellExited epochMs exitCode job := by
  by_cases success : exitCode = 0
  · simp only [applyShellExited, success, ↓reduceIte]
    exact applyStepCompleted_twice epochMs again job
  · simp only [applyShellExited, success, ↓reduceIte]
    exact applyStepFailed_twice epochMs again _ job

theorem applyStepStarted_twice (agentId : Option AgentId) (agentName : Option String)
    (job : Job) :
    applyStepStarted agentId agentName (applyStepStarted agentId agentName job) =
      applyStepStarted agentId agentName job := by
  rw [applyStepStarted_eq agentId agentName job, applyStepStarted_eq]
  have history := updateOpenRecord_twice (startedRecord agentId agentName)
    (startedRecord agentId agentName) job.stepHistory
    (fun record _ => by cases agentId <;> cases agentName <;> rfl)
  simp only [history]

theorem applyStepWaiting_twice (reason decisionId : Option String) (job : Job) :
    applyStepWaiting reason decisionId (applyStepWaiting reason decisionId job) =
      applyStepWaiting reason decisionId job := by
  have history := updateOpenRecord_twice
    (fun record => { record with outcome := .waiting (reason.getD "") })
    (fun record => { record with outcome := .waiting (reason.getD "") })
    job.stepHistory (fun _ _ => rfl)
  simp only [applyStepWaiting, updateCurrentStepOutcome, history]
  cases reason <;> rfl

theorem applyUpdated_twice (vars : HashMap String) (job : Job) :
    applyUpdated vars (applyUpdated vars job) = applyUpdated vars job := by
  simp only [applyUpdated, Table.insertMany_twice]

/-- After a job has advanced to a step, the same advance is skipped, unless the
step is one of the two that end a job in failure. -/
theorem advanceSkipped_applyAdvanced (epochMs : Nat) (step : String) (job : Job) :
    advanceSkipped step (applyAdvanced epochMs step job) =
      !(step == "failed" || step == "cancelled") := by
  rw [applyAdvanced_eq]
  simp only [advanceSkipped, beq_self_eq_true, Bool.true_and, enteredStatus_eq_failed]

/-- Where the same advance is not skipped, it changes nothing. -/
theorem applyAdvanced_twice (epochMs again : Nat) (step : String) (job : Job)
    (fails : step = "failed" ∨ step = "cancelled") :
    applyAdvanced again step (applyAdvanced epochMs step job) = applyAdvanced epochMs step job := by
  have ends : isTerminalStep step = true := by rcases fails with rfl | rfl <;> decide
  have failing : enteredStatus step = .failed := by simp [enteredStatus, fails]
  rw [applyAdvanced_eq epochMs, applyAdvanced_eq again]
  have history := updateOpenRecord_twice
    (fun record => { record with finishedAtMs := some epochMs, outcome := job.advanceOutcome step })
    (fun record => { record with
      finishedAtMs := some again
      outcome := (applyAdvanced epochMs step job).advanceOutcome step })
    job.stepHistory (fun _ opened => absurd opened (Option.some_ne_none epochMs))
  rw [applyAdvanced_eq epochMs] at history
  simp only [ends, failing, resumes, Bool.not_true, Bool.and_false, Bool.false_eq_true,
    ↓reduceIte, List.append_nil, beq_self_eq_true] at history ⊢
  rw [history]

end Job

/-- Updating the first item with the id twice. -/
theorem updateItem_twice (itemId : String) {update : QueueItem → QueueItem}
    (keepsId : ∀ item, (update item).id = item.id)
    (absorbs : ∀ item, update (update item) = update item) (items : List QueueItem) :
    updateItem itemId update (updateItem itemId update items) = updateItem itemId update items := by
  induction items with
  | nil => rfl
  | cons item rest ih =>
      by_cases found : item.id = itemId
      · simp [updateItem, found, keepsId, absorbs]
      · simp [updateItem, found, ih]

theorem pushItem_twice (item : QueueItem) (items : List QueueItem) :
    pushItem item (pushItem item items) = pushItem item items := by
  cases stored : items.any (·.id == item.id) with
  | true => simp [pushItem, stored]
  | false => simp [pushItem, stored]

theorem QueueItem.applyFailed_twice (item : QueueItem) :
    item.applyFailed.applyFailed = item.applyFailed := rfl

theorem AgentRecord.applySessionCreated_twice (owner : OwnerId) (id : SessionId)
    (record : AgentRecord) :
    (record.applySessionCreated owner id).applySessionCreated owner id =
      record.applySessionCreated owner id := by
  by_cases unset : record.owner = owner ∧ record.sessionId = none
  · simp [applySessionCreated, unset]
  · simp [applySessionCreated, unset]

theorem AgentRecord.applySessionDeleted_twice (id : SessionId) (record : AgentRecord) :
    (record.applySessionDeleted id).applySessionDeleted id = record.applySessionDeleted id := by
  by_cases held : record.sessionId = some id
  · simp [applySessionDeleted, held]
  · simp [applySessionDeleted, held]

theorem AgentRecord.applyStatus_forgetStamps (status : AgentRecordStatus) (epochMs again : Nat)
    (record : AgentRecord) :
    ((record.applyStatus status epochMs).applyStatus status again).forgetStamps =
      (record.applyStatus status epochMs).forgetStamps := rfl

/-! ## The tables -/

namespace MaterializedState

variable (state : MaterializedState)

theorem updateJob_twice (id : JobId) {first second : Job → Job}
    (absorbs : ∀ job, second (first job) = first job) :
    (state.updateJob id first).updateJob id second = state.updateJob id first := by
  simp only [updateJob, Table.modify_twice state.jobs id first second absorbs]

theorem updateItems_twice (queueName ns : String) {update : List QueueItem → List QueueItem}
    (absorbs : ∀ items, update (update items) = update items) :
    (state.updateItems queueName ns update).updateItems queueName ns update =
      state.updateItems queueName ns update := by
  simp only [updateItems, Table.modify_twice state.queueItems _ update update absorbs]

theorem updateWorker_twice (workerName ns : String) {update : WorkerRecord → WorkerRecord}
    (absorbs : ∀ record, update (update record) = update record) :
    (state.updateWorker workerName ns update).updateWorker workerName ns update =
      state.updateWorker workerName ns update := by
  simp only [updateWorker, Table.modify_twice state.workers _ update update absorbs]

theorem updateWorkspace_twice (id : WorkspaceId) (status : WorkspaceStatus) :
    (state.updateWorkspace id status).updateWorkspace id status =
      state.updateWorkspace id status := by
  have workspaces := Table.modify_twice state.workspaces id
    (fun workspace => { workspace with status }) (fun workspace => { workspace with status })
    (fun _ => rfl)
  simp only [updateWorkspace, workspaces]

theorem recordProjectRoot_twice (ns : String) (projectRoot : PathBuf) :
    (state.recordProjectRoot ns projectRoot).recordProjectRoot ns projectRoot =
      state.recordProjectRoot ns projectRoot := by
  by_cases unnamed : ns = ""
  · simp [recordProjectRoot, unnamed]
  · simp [recordProjectRoot, unnamed, Table.insert_insert]

theorem releaseJob_twice (id : JobId) :
    (state.releaseJob id).releaseJob id = state.releaseJob id := by
  have workers := Table.map_twice state.workers
    (fun _ record => { record with activeJobIds := record.activeJobIds.filter (· ≠ id) })
    (fun _ record => { record with activeJobIds := record.activeJobIds.filter (· ≠ id) })
    (fun _ record => by simp)
  simp only [releaseJob, workers, Table.filter_filter]

/-- Two applications that agree up to the stamped fields. -/
def SameButClocks (left right : MaterializedState) : Prop :=
  left.forgetStamps.forgetInstants = right.forgetStamps.forgetInstants

theorem SameButClocks.of_eq {left right : MaterializedState} (same : left = right) :
    SameButClocks left right :=
  same ▸ rfl

theorem updateAgent_agents_twice (agentId : AgentId) (status : AgentRecordStatus)
    (epochMs again : Nat) :
    Table.project ((state.agents.modify agentId (·.applyStatus status epochMs)).modify agentId
        (·.applyStatus status again)) AgentRecord.forgetStamps =
      Table.project (state.agents.modify agentId (·.applyStatus status epochMs))
        AgentRecord.forgetStamps :=
  Table.project_modify_twice state.agents AgentRecord.forgetStamps agentId _ _
    (AgentRecord.applyStatus_forgetStamps status epochMs again)

/-- An agent's status written by an event that also routes to the owning job. -/
theorem ownerAgent_twice (owner : OwnerId) (agentId : AgentId) (status : AgentRecordStatus)
    (epochMs again : Nat) {update : Job → Job} (absorbs : ∀ job, update (update job) = update job) :
    SameButClocks
      ((((state.updateOwnerJob owner update).updateAgent agentId status epochMs).updateOwnerJob
        owner update).updateAgent agentId status again)
      ((state.updateOwnerJob owner update).updateAgent agentId status epochMs) := by
  cases owner with
  | job jobId =>
      have jobs := Table.modify_twice state.jobs jobId update update absorbs
      simp only [SameButClocks, forgetStamps, forgetInstants, updateOwnerJob, updateJob,
        updateAgent, updateAgent_agents_twice, jobs]
  | agentRun runId =>
      simp only [SameButClocks, forgetStamps, forgetInstants, updateOwnerJob, updateAgent,
        updateAgent_agents_twice]

/-- A job inserted twice differs in its instants only. -/
theorem jobCreated_twice (id : JobId) (config : JobConfig) (epochMs instant again : Nat) :
    Table.project
      ((state.jobs.insert id (Job.newWithEpochMs config epochMs instant)).insert id
        (Job.newWithEpochMs config epochMs again)) Job.forgetInstants =
      Table.project (state.jobs.insert id (Job.newWithEpochMs config epochMs instant))
        Job.forgetInstants := by
  rw [Table.insert_insert, Table.project_insert, Table.project_insert]
  rfl

/-- Releasing a job touches no job record. -/
theorem releaseJob_updateJob (id : JobId) (update : Job → Job) :
    (state.releaseJob id).updateJob id update = (state.updateJob id update).releaseJob id := rfl

/-- Where the job is missing, or has failed or been cancelled, the second advance
runs again; elsewhere it is skipped. -/
theorem applyJobAdvanced_twice (first second : Clock) (id : JobId) (step : String) :
    (state.applyJobAdvanced first id step).applyJobAdvanced second id step =
      state.applyJobAdvanced first id step := by
  cases skipped : (state.jobs[id]?).any (Job.advanceSkipped step) with
  | true => simp [applyJobAdvanced, skipped]
  | false =>
      have once : state.applyJobAdvanced first id step =
          if isTerminalStep step then
            (state.updateJob id (Job.applyAdvanced first.epochMs step)).releaseJob id
          else state.updateJob id (Job.applyAdvanced first.epochMs step) := by
        simp [applyJobAdvanced, skipped]
      have stored : (state.applyJobAdvanced first id step).jobs[id]? =
          (state.jobs[id]?).map (Job.applyAdvanced first.epochMs step) := by
        rw [once]
        cases isTerminalStep step <;> exact (lookup_updateJob state id id _).trans (if_pos rfl)
      by_cases repeats : state.jobs[id]? = none ∨ step = "failed" ∨ step = "cancelled"
      · have absorbed : (state.updateJob id (Job.applyAdvanced first.epochMs step)).updateJob id
            (Job.applyAdvanced second.epochMs step) =
              state.updateJob id (Job.applyAdvanced first.epochMs step) := by
          rcases repeats with missing | fails
          · rw [updateJob_missing state missing, updateJob_missing state missing]
          · exact updateJob_twice state id fun job =>
              Job.applyAdvanced_twice first.epochMs second.epochMs step job fails
        have again : ((state.applyJobAdvanced first id step).jobs[id]?).any
            (Job.advanceSkipped step) = false := by
          rw [stored]
          rcases repeats with missing | fails
          · rw [missing]
            rfl
          · cases state.jobs[id]? with
            | none => rfl
            | some job =>
                change Job.advanceSkipped step (Job.applyAdvanced first.epochMs step job) = false
                rw [Job.advanceSkipped_applyAdvanced]
                rcases fails with rfl | rfl <;> decide
        rw [applyJobAdvanced, again, once]
        cases ends : isTerminalStep step with
        | true =>
            simp only [Bool.false_eq_true, ↓reduceIte]
            rw [releaseJob_updateJob, absorbed, releaseJob_twice]
        | false =>
            simp only [Bool.false_eq_true, ↓reduceIte]
            exact absorbed
      · have stays := not_or.mp repeats
        have others := not_or.mp stays.2
        have again : ((state.applyJobAdvanced first id step).jobs[id]?).any
            (Job.advanceSkipped step) = true := by
          rw [stored]
          cases present : state.jobs[id]? with
          | none => exact absurd present stays.1
          | some job =>
              change Job.advanceSkipped step (Job.applyAdvanced first.epochMs step job) = true
              rw [Job.advanceSkipped_applyAdvanced, beq_false_of_ne others.1,
                beq_false_of_ne others.2]
              rfl
        rw [applyJobAdvanced, again]
        exact if_pos rfl

/-- The agent record is added once, so its stamps are those of the first application. -/
theorem applyStepStarted_twice (first second : Clock) (jobId : JobId) (agentId : Option AgentId)
    (agentName : Option String) :
    (state.applyStepStarted first jobId agentId agentName).applyStepStarted second jobId agentId
      agentName = state.applyStepStarted first jobId agentId agentName := by
  cases present : state.jobs[jobId]? with
  | none => simp only [applyStepStarted, present]
  | some job =>
      have stored : (state.updateJob jobId (Job.applyStepStarted agentId agentName)).jobs[jobId]? =
          some (job.applyStepStarted agentId agentName) := by
        rw [lookup_updateJob, if_pos rfl, present]
        rfl
      have jobs := updateJob_twice state jobId (Job.applyStepStarted_twice agentId agentName)
      cases agentId with
      | none =>
          simp only [applyStepStarted, present, stored]
          exact jobs
      | some agentId =>
          have jobTable := congrArg MaterializedState.jobs jobs
          simp only [updateJob] at stored jobTable
          simp only [applyStepStarted, present, updateJob, stored, jobTable,
            Table.insertIfNew_twice]

theorem applySessionCreated_twice (id : SessionId) (owner : OwnerId) :
    (state.applySessionCreated id owner).applySessionCreated id owner =
      state.applySessionCreated id owner := by
  have agents := Table.map_twice state.agents
    (fun _ record => record.applySessionCreated owner id)
    (fun _ record => record.applySessionCreated owner id)
    (fun _ record => record.applySessionCreated_twice owner id)
  cases owner with
  | job jobId =>
      have jobs := Table.modify_twice state.jobs jobId
        (fun job => { job with sessionId := some id })
        (fun job => { job with sessionId := some id }) (fun _ => rfl)
      simp only [applySessionCreated, updateJob, Table.insert_insert, jobs, agents]
  | agentRun runId =>
      have runs := Table.modify_twice state.agentRuns runId
        (fun run => { run with sessionId := some id })
        (fun run => { run with sessionId := some id }) (fun _ => rfl)
      simp only [applySessionCreated, Table.insert_insert, runs, agents]

theorem applySessionDeleted_twice (id : SessionId) :
    (state.applySessionDeleted id).applySessionDeleted id = state.applySessionDeleted id := by
  have jobs := Table.map_twice state.jobs
    (fun _ job => if job.sessionId = some id then { job with sessionId := none } else job)
    (fun _ job => if job.sessionId = some id then { job with sessionId := none } else job)
    (fun _ job => by by_cases held : job.sessionId = some id <;> simp [held])
  have runs := Table.map_twice state.agentRuns
    (fun _ run => if run.sessionId = some id then { run with sessionId := none } else run)
    (fun _ run => if run.sessionId = some id then { run with sessionId := none } else run)
    (fun _ run => by by_cases held : run.sessionId = some id <;> simp [held])
  have agents := Table.map_twice state.agents
    (fun _ record => record.applySessionDeleted id)
    (fun _ record => record.applySessionDeleted id)
    (fun _ record => record.applySessionDeleted_twice id)
  simp only [applySessionDeleted, Table.erase_erase, jobs, runs, agents]

theorem applyWorkspaceCreated_twice (first second : Clock) (id : WorkspaceId) (path : PathBuf)
    (branch : Option String) (owner : Option OwnerId) (workspaceType : Option String) :
    SameButClocks
      ((state.applyWorkspaceCreated first id path branch owner workspaceType).applyWorkspaceCreated
        second id path branch owner workspaceType)
      (state.applyWorkspaceCreated first id path branch owner workspaceType) := by
  rcases owner with _ | jobId | runId
  · simp only [SameButClocks, applyWorkspaceCreated, forgetStamps, forgetInstants,
      Table.insert_insert, Table.project_insert, Workspace.forgetStamps]
  · have jobs := Table.modify_twice state.jobs jobId
      (fun job => { job with workspacePath := some path, workspaceId := some id })
      (fun job => { job with workspacePath := some path, workspaceId := some id })
      (fun _ => rfl)
    simp only [SameButClocks, applyWorkspaceCreated, forgetStamps, forgetInstants, updateJob,
      jobs, Table.insert_insert, Table.project_insert, Workspace.forgetStamps]
  · simp only [SameButClocks, applyWorkspaceCreated, forgetStamps, forgetInstants,
      Table.insert_insert, Table.project_insert, Workspace.forgetStamps]

/-- Storing a signal moves neither search: both look at other fields. -/
theorem applyAgentSignal_twice (order : WalkOrder) (agentId : AgentId) (kind : AgentSignalKind)
    (message : Option String) :
    (state.applyAgentSignal order agentId kind message).applyAgentSignal order agentId kind
      message = state.applyAgentSignal order agentId kind message := by
  by_cases continues : kind = .continue
  · simp only [applyAgentSignal, continues, ↓reduceIte]
  · cases inRuns : Table.findKey? order state.agentRuns
        (fun run => run.agentId == some agentId) with
    | some runId =>
        have again := Table.findKey?_modify state.agentRuns order runId
          (·.setSignal { kind, message }) (fun run => run.agentId == some agentId) (fun _ => rfl)
        have runs := Table.modify_twice state.agentRuns runId
          (·.setSignal { kind, message }) (·.setSignal { kind, message }) (fun _ => rfl)
        simp only [applyAgentSignal, continues, ↓reduceIte, inRuns, again, runs]
    | none =>
        cases inJobs : Table.findKey? order state.jobs (Job.hasCurrentAgent agentId) with
        | none => simp only [applyAgentSignal, continues, ↓reduceIte, inRuns, inJobs]
        | some jobId =>
            have again := Table.findKey?_modify state.jobs order jobId
              (·.setSignal { kind, message }) (Job.hasCurrentAgent agentId) (fun _ => rfl)
            have jobs := Table.modify_twice state.jobs jobId
              (·.setSignal { kind, message }) (·.setSignal { kind, message }) (fun _ => rfl)
            simp only [applyAgentSignal, continues, ↓reduceIte, inRuns, inJobs, updateJob, again,
              jobs]

/-- The second application finds the decision stored and only routes the status. -/
theorem applyDecisionCreated_twice (id : String) (jobId : JobId) (agentId : Option String)
    (owner : OwnerId) (source : DecisionSource) (context : String)
    (options : List DecisionOption) (createdAtMs : Nat) (ns : String) :
    (state.applyDecisionCreated id jobId agentId owner source context options createdAtMs
      ns).applyDecisionCreated id jobId agentId owner source context options createdAtMs ns =
      state.applyDecisionCreated id jobId agentId owner source context options createdAtMs ns := by
  have stored : ∀ (decisions : HashMap Decision) (decision : Decision),
      (decisions.insert id decision).contains id = true := fun decisions decision => by simp
  cases owner with
  | job ownerId =>
      have jobs := Table.modify_twice state.jobs ownerId
        (fun job => { job with stepStatus := .waiting (some id) })
        (fun job => { job with stepStatus := .waiting (some id) }) (fun _ => rfl)
      cases present : state.decisions.contains id with
      | true => simp only [applyDecisionCreated, present, updateJob, ↓reduceIte, jobs]
      | false =>
          simp only [applyDecisionCreated, present, updateJob, Bool.false_eq_true, ↓reduceIte,
            stored, jobs]
  | agentRun runId =>
      have runs := Table.modify_twice state.agentRuns runId
        (fun run => { run with status := .waiting })
        (fun run => { run with status := .waiting }) (fun _ => rfl)
      cases present : state.decisions.contains id with
      | true => simp only [applyDecisionCreated, present, ↓reduceIte, runs]
      | false =>
          simp only [applyDecisionCreated, present, Bool.false_eq_true, ↓reduceIte, stored, runs]

theorem applyAgentRunStarted_twice (first second : Clock) (id : AgentRunId) (agentId : AgentId) :
    SameButClocks
      ((state.applyAgentRunStarted first id agentId).applyAgentRunStarted second id agentId)
      (state.applyAgentRunStarted first id agentId) := by
  cases present : state.agentRuns[id]? with
  | none => simp only [SameButClocks, applyAgentRunStarted, present]
  | some run =>
      have stored : (state.agentRuns.modify id (·.applyStarted agentId first.epochMs))[id]? =
          some (run.applyStarted agentId first.epochMs) := by
        rw [Table.lookup_modify, if_pos rfl, present]
        rfl
      have runs := Table.project_modify_twice state.agentRuns AgentRun.forgetStamps id
        (·.applyStarted agentId first.epochMs) (·.applyStarted agentId second.epochMs)
        (fun _ => rfl)
      simp only [SameButClocks, forgetStamps, forgetInstants, applyAgentRunStarted, present,
        stored, runs, Table.insertIfNew_twice]

theorem applyAgentRunStatusChanged_twice (first second : Clock) (id : AgentRunId)
    (status : AgentRunStatus) (reason : Option String) :
    SameButClocks
      ((state.applyAgentRunStatusChanged first id status reason).applyAgentRunStatusChanged second
        id status reason)
      (state.applyAgentRunStatusChanged first id status reason) := by
  have runs := Table.project_modify_twice state.agentRuns AgentRun.forgetStamps id
    (·.applyStatusChanged status reason first.epochMs)
    (·.applyStatusChanged status reason second.epochMs)
    (fun _ => by cases reason <;> rfl)
  cases ends : status.isTerminal with
  | true =>
      simp only [SameButClocks, forgetStamps, forgetInstants, applyAgentRunStatusChanged, ends,
        ↓reduceIte, runs, Table.filter_filter]
  | false =>
      simp only [SameButClocks, forgetStamps, forgetInstants, applyAgentRunStatusChanged, ends,
        Bool.false_eq_true, ↓reduceIte, runs]

theorem applyWorkerStarted_twice (workerName : String) (projectRoot : PathBuf)
    (runbookHash queueName : String) (concurrency : Nat) (ns : String) :
    (state.applyWorkerStarted workerName projectRoot runbookHash queueName concurrency
      ns).applyWorkerStarted workerName projectRoot runbookHash queueName concurrency ns =
      state.applyWorkerStarted workerName projectRoot runbookHash queueName concurrency ns := by
  by_cases unnamed : ns = ""
  · simp [applyWorkerStarted, recordProjectRoot, unnamed, Table.insert_insert]
  · simp [applyWorkerStarted, recordProjectRoot, unnamed, Table.insert_insert]

theorem applyCronStarted_twice (first second : Clock) (cronName : String) (projectRoot : PathBuf)
    (runbookHash interval runTarget ns : String) :
    SameButClocks
      ((state.applyCronStarted first cronName projectRoot runbookHash interval runTarget
        ns).applyCronStarted second cronName projectRoot runbookHash interval runTarget ns)
      (state.applyCronStarted first cronName projectRoot runbookHash interval runTarget ns) := by
  by_cases unnamed : ns = ""
  · simp [SameButClocks, forgetStamps, forgetInstants, applyCronStarted, recordProjectRoot,
      unnamed, Table.insert_insert, Table.project_insert, CronRecord.forgetStamps]
  · simp [SameButClocks, forgetStamps, forgetInstants, applyCronStarted, recordProjectRoot,
      unnamed, Table.insert_insert, Table.project_insert, CronRecord.forgetStamps]

theorem applyQueuePushed_twice (queueName itemId : String) (data : HashMap String)
    (pushedAtEpochMs : Nat) (ns : String) :
    (state.applyQueuePushed queueName itemId data pushedAtEpochMs ns).applyQueuePushed queueName
      itemId data pushedAtEpochMs ns =
      state.applyQueuePushed queueName itemId data pushedAtEpochMs ns := by
  simp only [applyQueuePushed, Table.lookup_insert, ↓reduceIte, Option.getD_some, pushItem_twice,
    Table.insert_insert]

theorem cronFired_twice (key : String) (epochMs again : Nat) :
    Table.project
      ((state.crons.modify key fun record => { record with lastFiredAtMs := some epochMs }).modify
        key fun record => { record with lastFiredAtMs := some again }) CronRecord.forgetStamps =
      Table.project
        (state.crons.modify key fun record => { record with lastFiredAtMs := some epochMs })
        CronRecord.forgetStamps :=
  Table.project_modify_twice state.crons CronRecord.forgetStamps key _ _ fun _ => rfl

/-- Applying an event a second time, at a later reading of the clock, changes
nothing but clock stamps. -/
theorem applyEvent_idempotent (order : WalkOrder) (first second : Clock)
    (state : MaterializedState) (event : Event) :
    ((state.applyEvent order first event).applyEvent order second
        event).forgetStamps.forgetInstants =
      (state.applyEvent order first event).forgetStamps.forgetInstants := by
  change SameButClocks _ _
  cases event with
  | agentWorking agentId owner =>
      exact ownerAgent_twice state owner agentId .running _ _ fun _ => rfl
  | agentWaiting agentId owner =>
      simp only [SameButClocks, applyEvent, updateAgent, forgetStamps, forgetInstants,
        updateAgent_agents_twice]
  | agentFailed agentId error owner =>
      exact ownerAgent_twice state owner agentId .exited _ _ (Job.applyAgentLost_twice _)
  | agentExited agentId exitCode owner =>
      exact ownerAgent_twice state owner agentId .exited _ _ (Job.applyAgentExited_twice exitCode)
  | agentGone agentId owner =>
      exact ownerAgent_twice state owner agentId .gone _ _ (Job.applyAgentLost_twice _)
  | agentSignal agentId kind message =>
      exact .of_eq (applyAgentSignal_twice state order agentId kind message)
  | commandRun jobId jobName projectRoot invokeDir ns command args =>
      exact .of_eq (recordProjectRoot_twice state ns projectRoot)
  | jobCreated id kind name runbookHash cwd vars initialStep createdAtEpochMs ns cronName =>
      simp only [SameButClocks, applyEvent, forgetStamps, forgetInstants, jobCreated_twice]
  | jobAdvanced id step => exact .of_eq (applyJobAdvanced_twice state first second id step)
  | jobUpdated id vars =>
      exact .of_eq (updateJob_twice state id (Job.applyUpdated_twice vars))
  | jobCancelling id => exact .of_eq (updateJob_twice state id fun _ => rfl)
  | jobDeleted id =>
      refine .of_eq ?_
      simp only [applyEvent, Table.erase_erase, Table.filter_filter]
  | runbookLoaded hash version runbook =>
      refine .of_eq ?_
      simp only [applyEvent, Table.insertIfNew_twice]
  | sessionCreated id owner => exact .of_eq (applySessionCreated_twice state id owner)
  | sessionDeleted id => exact .of_eq (applySessionDeleted_twice state id)
  | shellExited jobId step exitCode stdout stderr =>
      exact .of_eq (updateJob_twice state jobId (Job.applyShellExited_twice _ _ exitCode))
  | stepStarted jobId step agentId agentName =>
      exact .of_eq (applyStepStarted_twice state first second jobId agentId agentName)
  | stepWaiting jobId step reason decisionId =>
      exact .of_eq (updateJob_twice state jobId (Job.applyStepWaiting_twice reason decisionId))
  | stepCompleted jobId step =>
      exact .of_eq (updateJob_twice state jobId (Job.applyStepCompleted_twice _ _))
  | stepFailed jobId step error =>
      exact .of_eq (updateJob_twice state jobId (Job.applyStepFailed_twice _ _ error))
  | workspaceCreated id path branch owner workspaceType =>
      exact applyWorkspaceCreated_twice state first second id path branch owner workspaceType
  | workspaceReady id => exact .of_eq (updateWorkspace_twice state id .ready)
  | workspaceFailed id reason => exact .of_eq (updateWorkspace_twice state id (.failed reason))
  | workspaceDeleted id =>
      refine .of_eq ?_
      simp only [applyEvent, Table.erase_erase]
  | cronStarted cronName projectRoot runbookHash interval runTarget ns =>
      exact applyCronStarted_twice state first second cronName projectRoot runbookHash interval
        runTarget ns
  | cronStopped cronName ns =>
      have crons := Table.modify_twice state.crons (scopedName ns cronName)
        (fun record => { record with status := "stopped" })
        (fun record => { record with status := "stopped" }) (fun _ => rfl)
      simp only [SameButClocks, applyEvent, crons]
  | cronFired cronName jobId agentRunId ns =>
      simp only [SameButClocks, applyEvent, forgetStamps, forgetInstants, cronFired_twice]
  | cronDeleted cronName ns =>
      refine .of_eq ?_
      simp only [applyEvent, Table.erase_erase]
  | workerStarted workerName projectRoot runbookHash queueName concurrency ns =>
      exact .of_eq (applyWorkerStarted_twice state workerName projectRoot runbookHash queueName
        concurrency ns)
  | workerItemDispatched workerName itemId jobId ns =>
      refine .of_eq (updateWorker_twice state workerName ns fun record => ?_)
      by_cases active : jobId ∈ record.activeJobIds <;> simp [active]
  | workerStopped workerName ns =>
      exact .of_eq (updateWorker_twice state workerName ns fun _ => rfl)
  | workerResized workerName concurrency ns =>
      exact .of_eq (updateWorker_twice state workerName ns fun _ => rfl)
  | workerDeleted workerName ns =>
      refine .of_eq ?_
      simp only [applyEvent, Table.erase_erase]
  | queuePushed queueName itemId data pushedAtEpochMs ns =>
      exact .of_eq (applyQueuePushed_twice state queueName itemId data pushedAtEpochMs ns)
  | queueTaken queueName itemId workerName ns =>
      exact .of_eq (updateItems_twice state queueName ns
        (updateItem_twice itemId (fun _ => rfl) fun _ => rfl))
  | queueCompleted queueName itemId ns =>
      exact .of_eq (updateItems_twice state queueName ns
        (updateItem_twice itemId (fun _ => rfl) fun _ => rfl))
  | queueFailed queueName itemId error ns =>
      exact .of_eq (updateItems_twice state queueName ns
        (updateItem_twice itemId (fun _ => rfl) QueueItem.applyFailed_twice))
  | queueDropped queueName itemId ns =>
      exact .of_eq (updateItems_twice state queueName ns fun _ => by simp)
  | queueItemRetry queueName itemId ns =>
      exact .of_eq (updateItems_twice state queueName ns
        (updateItem_twice itemId (fun _ => rfl) fun _ => rfl))
  | queueItemDead queueName itemId ns =>
      exact .of_eq (updateItems_twice state queueName ns
        (updateItem_twice itemId (fun _ => rfl) fun _ => rfl))
  | decisionCreated id jobId agentId owner source context options createdAtMs ns =>
      exact .of_eq (applyDecisionCreated_twice state id jobId agentId owner source context options
        createdAtMs ns)
  | decisionResolved id chosen message resolvedAtMs ns =>
      have decisions := Table.modify_twice state.decisions id
        (fun decision => { decision with chosen, message, resolvedAtMs := some resolvedAtMs })
        (fun decision => { decision with chosen, message, resolvedAtMs := some resolvedAtMs })
        (fun _ => rfl)
      simp only [SameButClocks, applyEvent, decisions]
  | agentRunCreated id agentName commandName ns cwd runbookHash vars createdAtEpochMs =>
      refine .of_eq ?_
      simp only [applyEvent, Table.insert_insert]
  | agentRunStarted id agentId => exact applyAgentRunStarted_twice state first second id agentId
  | agentRunStatusChanged id status reason =>
      exact applyAgentRunStatusChanged_twice state first second id status reason
  | agentRunDeleted id =>
      refine .of_eq ?_
      simp only [applyEvent, Table.erase_erase, Table.filter_filter]
  | _ => rfl

/-- The instants of a job are stamped anew by each application of its creation. -/
theorem jobCreated_restamps_instants :
    ¬ ∀ (order : WalkOrder) (first second : Clock) (state : MaterializedState) (event : Event),
      ((state.applyEvent order first event).applyEvent order second event).forgetStamps =
        (state.applyEvent order first event).forgetStamps := by
  intro same
  have equal := same .byKey ⟨0, 1⟩ ⟨0, 2⟩ {}
    (.jobCreated "j" "build" "build" "hash" "/" ∅ "plan" 0 "" none)
  have instants := congrArg (fun state => (state.jobs["j"]?).map Job.createdAt) equal
  simp [applyEvent, forgetStamps, Job.newWithEpochMs] at instants

end MaterializedState

end OddJobs
