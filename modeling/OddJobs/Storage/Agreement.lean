import OddJobs.Storage.Stamps

/-!
# States that agree

A live state and a state folded from a log agree when they differ in nothing but
clock readings and in workspaces that the live one is cleaning.  Applying the
same event to both keeps them in agreement.
-/

namespace OddJobs

open Library

/-- Equal but for clock readings. -/
def Job.Agrees (live folded : Job) : Prop := live.forgetClock = folded.forgetClock

def AgentRun.Agrees (live folded : AgentRun) : Prop := live.forgetStamps = folded.forgetStamps

def AgentRecord.Agrees (live folded : AgentRecord) : Prop :=
  live.forgetStamps = folded.forgetStamps

def CronRecord.Agrees (live folded : CronRecord) : Prop := live.forgetStamps = folded.forgetStamps

/-- Equal but for clock readings and, if that is ignored, for a status of
`cleaning` in the live one. -/
def Workspace.Agrees (cleaning : Bool) (live folded : Workspace) : Prop :=
  live.forgetStamps = folded.forgetStamps ∨
    (cleaning = true ∧ live.forgetStamps = { folded.forgetStamps with status := .cleaning })

/-- Two states that differ in clock readings only and, if that is ignored, in the
transient status of workspaces that the live one is cleaning. -/
structure Agrees (cleaning : Bool) (live folded : MaterializedState) : Prop where
  jobs : Table.Related Job.Agrees live.jobs folded.jobs
  sessions : live.sessions = folded.sessions
  workspaces : Table.Related (Workspace.Agrees cleaning) live.workspaces folded.workspaces
  runbooks : live.runbooks = folded.runbooks
  workers : live.workers = folded.workers
  queueItems : live.queueItems = folded.queueItems
  crons : Table.Related CronRecord.Agrees live.crons folded.crons
  decisions : live.decisions = folded.decisions
  agentRuns : Table.Related AgentRun.Agrees live.agentRuns folded.agentRuns
  agents : Table.Related AgentRecord.Agrees live.agents folded.agents
  projectRoots : live.projectRoots = folded.projectRoots

theorem Job.Agrees.refl (job : Job) : job.Agrees job := rfl

theorem AgentRun.Agrees.refl (run : AgentRun) : run.Agrees run := rfl

theorem AgentRecord.Agrees.refl (record : AgentRecord) : record.Agrees record := rfl

theorem CronRecord.Agrees.refl (record : CronRecord) : record.Agrees record := rfl

theorem Workspace.Agrees.refl (cleaning : Bool) (workspace : Workspace) :
    Workspace.Agrees cleaning workspace workspace := Or.inl rfl

theorem Agrees.refl (cleaning : Bool) (state : MaterializedState) :
    Agrees cleaning state state where
  jobs := Table.related_refl Job.Agrees.refl _
  sessions := rfl
  workspaces := Table.related_refl (Workspace.Agrees.refl cleaning) _
  runbooks := rfl
  workers := rfl
  queueItems := rfl
  crons := Table.related_refl CronRecord.Agrees.refl _
  decisions := rfl
  agentRuns := Table.related_refl AgentRun.Agrees.refl _
  agents := Table.related_refl AgentRecord.Agrees.refl _
  projectRoots := rfl

theorem Agrees.trans {first second : Bool} {left middle right : MaterializedState}
    (toMiddle : Agrees first left middle) (fromMiddle : Agrees second middle right) :
    Agrees (first || second) left right where
  jobs := toMiddle.jobs.trans fromMiddle.jobs fun _ _ _ held next => Eq.trans held next
  sessions := toMiddle.sessions.trans fromMiddle.sessions
  workspaces := toMiddle.workspaces.trans fromMiddle.workspaces fun _ _ _ held next => by
    rcases held with equal | ⟨allowed, marked⟩
    · rcases next with equal' | ⟨allowed', marked'⟩
      · exact Or.inl (equal.trans equal')
      · exact Or.inr ⟨by rw [allowed', Bool.or_true], equal.trans marked'⟩
    · refine Or.inr ⟨by rw [allowed, Bool.true_or], marked.trans ?_⟩
      rcases next with equal' | ⟨allowed', marked'⟩
      · rw [equal']
      · rw [marked']
  runbooks := toMiddle.runbooks.trans fromMiddle.runbooks
  workers := toMiddle.workers.trans fromMiddle.workers
  queueItems := toMiddle.queueItems.trans fromMiddle.queueItems
  crons := toMiddle.crons.trans fromMiddle.crons fun _ _ _ held next => Eq.trans held next
  decisions := toMiddle.decisions.trans fromMiddle.decisions
  agentRuns := toMiddle.agentRuns.trans fromMiddle.agentRuns fun _ _ _ held next =>
    Eq.trans held next
  agents := toMiddle.agents.trans fromMiddle.agents fun _ _ _ held next => Eq.trans held next
  projectRoots := toMiddle.projectRoots.trans fromMiddle.projectRoots

/-! ## Fields that agree -/

theorem Job.Agrees.ns_eq {live folded : Job} (agrees : live.Agrees folded) :
    live.ns = folded.ns :=
  field_of_view Job.forgetClock Job.ns (fun _ => rfl) agrees

theorem Job.Agrees.place_eq {live folded : Job} (agrees : live.Agrees folded) :
    live.workspacePath.getD live.cwd = folded.workspacePath.getD folded.cwd :=
  field_of_view Job.forgetClock (fun job => job.workspacePath.getD job.cwd) (fun _ => rfl) agrees

theorem Job.Agrees.sessionId_eq {live folded : Job} (agrees : live.Agrees folded) :
    live.sessionId = folded.sessionId :=
  field_of_view Job.forgetClock Job.sessionId (fun _ => rfl) agrees

theorem AgentRun.Agrees.sessionId_eq {live folded : AgentRun} (agrees : live.Agrees folded) :
    live.sessionId = folded.sessionId :=
  field_of_view AgentRun.forgetStamps AgentRun.sessionId (fun _ => rfl) agrees

theorem AgentRecord.Agrees.owner_eq {live folded : AgentRecord} (agrees : live.Agrees folded) :
    live.owner = folded.owner :=
  field_of_view AgentRecord.forgetStamps AgentRecord.owner (fun _ => rfl) agrees

theorem AgentRecord.Agrees.sessionId_eq {live folded : AgentRecord}
    (agrees : live.Agrees folded) : live.sessionId = folded.sessionId :=
  field_of_view AgentRecord.forgetStamps AgentRecord.sessionId (fun _ => rfl) agrees

/-- The session field is set in the same way. -/
theorem Job.Agrees.setSession {live folded : Job} (agrees : live.Agrees folded)
    (sessionId : Option String) :
    Job.Agrees { live with sessionId } { folded with sessionId } :=
  same_update Job.forgetClock (fun job => { job with sessionId }) (fun _ => rfl) agrees

theorem AgentRun.Agrees.setSession {live folded : AgentRun} (agrees : live.Agrees folded)
    (sessionId : Option String) :
    AgentRun.Agrees { live with sessionId } { folded with sessionId } :=
  same_update AgentRun.forgetStamps (fun run => { run with sessionId }) (fun _ => rfl) agrees

theorem AgentRecord.Agrees.setSession {live folded : AgentRecord} (agrees : live.Agrees folded)
    (sessionId : Option String) :
    AgentRecord.Agrees { live with sessionId } { folded with sessionId } :=
  same_update AgentRecord.forgetStamps (fun record => { record with sessionId }) (fun _ => rfl)
    agrees

/-! ## The tables -/

namespace Agrees

variable {cleaning : Bool} {live folded : MaterializedState} (agrees : Agrees cleaning live folded)
include agrees

theorem updateJob (id : JobId) (image : Job → Job) {first second : Job → Job}
    (onFirst : ∀ job, (first job).forgetClock = image job.forgetClock)
    (onSecond : ∀ job, (second job).forgetClock = image job.forgetClock) :
    Agrees cleaning (live.updateJob id first) (folded.updateJob id second) :=
  { agrees with
    jobs := agrees.jobs.modify id fun _ _ held =>
      update_of_view Job.forgetClock image onFirst onSecond held }

/-- The same update of a job on both sides. -/
theorem sameJob (id : JobId) (update : Job → Job)
    (commutes : ∀ job, (update job).forgetClock = update job.forgetClock) :
    Agrees cleaning (live.updateJob id update) (folded.updateJob id update) :=
  agrees.updateJob id update commutes commutes

theorem updateOwnerJob (owner : OwnerId) (image : Job → Job) {first second : Job → Job}
    (onFirst : ∀ job, (first job).forgetClock = image job.forgetClock)
    (onSecond : ∀ job, (second job).forgetClock = image job.forgetClock) :
    Agrees cleaning (live.updateOwnerJob owner first) (folded.updateOwnerJob owner second) := by
  cases owner with
  | job jobId => exact agrees.updateJob jobId image onFirst onSecond
  | agentRun runId => exact agrees

theorem updateAgent (agentId : AgentId) (status : AgentRecordStatus) (first second : Nat) :
    Agrees cleaning (live.updateAgent agentId status first) (folded.updateAgent agentId status second) :=
  { agrees with
    agents := agrees.agents.modify agentId fun _ _ held =>
      update_of_view AgentRecord.forgetStamps (fun record => { record with status })
        (fun _ => rfl) (fun _ => rfl) held }

theorem updateWorker (workerName ns : String) (update : WorkerRecord → WorkerRecord) :
    Agrees cleaning (live.updateWorker workerName ns update) (folded.updateWorker workerName ns update) :=
  { agrees with
    workers := by simp only [MaterializedState.updateWorker, agrees.workers] }

theorem updateItems (queueName ns : String) (update : List QueueItem → List QueueItem) :
    Agrees cleaning (live.updateItems queueName ns update) (folded.updateItems queueName ns update) :=
  { agrees with
    queueItems := by simp only [MaterializedState.updateItems, agrees.queueItems] }

theorem recordProjectRoot (ns : String) (projectRoot : PathBuf) :
    Agrees cleaning (live.recordProjectRoot ns projectRoot) (folded.recordProjectRoot ns projectRoot) := by
  by_cases unnamed : ns = ""
  · simpa [MaterializedState.recordProjectRoot, unnamed] using agrees
  · simp only [MaterializedState.recordProjectRoot, unnamed, ↓reduceIte]
    exact { agrees with projectRoots := by simp only [agrees.projectRoots] }

theorem releaseJob (id : JobId) : Agrees cleaning (live.releaseJob id) (folded.releaseJob id) :=
  { agrees with
    workers := by simp only [MaterializedState.releaseJob, agrees.workers]
    decisions := by simp only [MaterializedState.releaseJob, agrees.decisions] }

theorem jobAdvanced (first second : Clock) (id : JobId) (step : String) :
    Agrees cleaning (live.applyJobAdvanced first id step) (folded.applyJobAdvanced second id step) := by
  have skips : (live.jobs[id]?).any (Job.advanceSkipped step) =
      (folded.jobs[id]?).any (Job.advanceSkipped step) := by
    rcases (agrees.jobs id).cases_on with ⟨none, none'⟩ | ⟨job, job', found, found', held⟩
    · rw [none, none']
    · rw [found, found', Option.any_some, Option.any_some, ← Job.advanceSkipped_forgetClock job,
        ← Job.advanceSkipped_forgetClock job', held]
  have advanced := agrees.updateJob id _ (fun job => Job.applyAdvanced_forgetClock job first.epochMs step)
    (fun job => Job.applyAdvanced_forgetClock job second.epochMs step)
  simp only [MaterializedState.applyJobAdvanced, skips]
  split
  · exact agrees
  · split
    · exact advanced.releaseJob id
    · exact advanced

theorem stepStarted (first second : Clock) (jobId : JobId) (agentId : Option AgentId)
    (agentName : Option String) :
    Agrees cleaning (live.applyStepStarted first jobId agentId agentName)
      (folded.applyStepStarted second jobId agentId agentName) := by
  have started := agrees.updateJob jobId _
    (fun job => Job.applyStepStarted_forgetClock job agentId agentName)
    (fun job => Job.applyStepStarted_forgetClock job agentId agentName)
  rcases (agrees.jobs jobId).cases_on with ⟨none, none'⟩ | ⟨job, job', found, found', held⟩
  · simpa only [MaterializedState.applyStepStarted, none, none'] using agrees
  · simp only [MaterializedState.applyStepStarted, found, found']
    cases agentId with
    | none => exact started
    | some agentId =>
        exact { started with
          agents := started.agents.insertIfNew agentId (by
            simp only [AgentRecord.Agrees, AgentRecord.forgetStamps, held.ns_eq, held.place_eq]) }

theorem sessionCreated (id : SessionId) (owner : OwnerId) :
    Agrees cleaning (live.applySessionCreated id owner) (folded.applySessionCreated id owner) := by
  have record : ∀ (_ : AgentId) (left right : AgentRecord), left.Agrees right →
      (left.applySessionCreated owner id).Agrees (right.applySessionCreated owner id) := by
    intro _ left right held
    have same : (left.owner = owner ∧ left.sessionId = none) ↔
        (right.owner = owner ∧ right.sessionId = none) := by
      rw [held.owner_eq, held.sessionId_eq]
    by_cases free : left.owner = owner ∧ left.sessionId = none
    · rw [AgentRecord.applySessionCreated, AgentRecord.applySessionCreated, if_pos free,
        if_pos (same.mp free)]
      exact held.setSession (some id)
    · rw [AgentRecord.applySessionCreated, AgentRecord.applySessionCreated, if_neg free,
        if_neg fun free' => free (same.mpr free')]
      exact held
  have opened : ∀ jobId : String,
      Agrees cleaning { live with sessions := live.sessions.insert id { id, jobId } }
        { folded with sessions := folded.sessions.insert id { id, jobId } } := fun jobId =>
    { agrees with sessions := by simp only [agrees.sessions] }
  cases owner with
  | job jobId =>
      have owned := opened jobId
      exact { owned with
        jobs := owned.jobs.modify jobId fun _ _ held => held.setSession (some id)
        agents := owned.agents.map record }
  | agentRun runId =>
      have owned := opened ""
      exact { owned with
        agentRuns := owned.agentRuns.modify runId fun _ _ held => held.setSession (some id)
        agents := owned.agents.map record }

theorem sessionDeleted (id : SessionId) :
    Agrees cleaning (live.applySessionDeleted id) (folded.applySessionDeleted id) :=
  { agrees with
    sessions := by simp only [MaterializedState.applySessionDeleted, agrees.sessions]
    jobs := agrees.jobs.map fun _ left right held => by
      rw [held.sessionId_eq]
      split
      · exact held.setSession none
      · exact held
    agentRuns := agrees.agentRuns.map fun _ left right held => by
      rw [held.sessionId_eq]
      split
      · exact held.setSession none
      · exact held
    agents := agrees.agents.map fun _ left right held => by
      simp only [AgentRecord.applySessionDeleted, held.sessionId_eq]
      split
      · exact held.setSession none
      · exact held }

theorem updateWorkspace (id : WorkspaceId) (status : WorkspaceStatus) :
    Agrees cleaning (live.updateWorkspace id status) (folded.updateWorkspace id status) :=
  { agrees with
    workspaces := agrees.workspaces.modify id fun _ _ held => by
      have same : ∀ {left right : Workspace}, left.forgetStamps = right.forgetStamps →
          ({ left with status } : Workspace).forgetStamps =
            ({ right with status } : Workspace).forgetStamps := fun equal =>
        same_update Workspace.forgetStamps (fun workspace => { workspace with status })
          (fun _ => rfl) equal
      rcases held with equal | ⟨_, marked⟩
      · exact Or.inl (same equal)
      · have equal := congrArg (fun workspace : Workspace => { workspace with status }) marked
        exact Or.inl equal }

theorem workspaceCreated (first second : Clock) (id : WorkspaceId) (path : PathBuf)
    (branch : Option String) (owner : Option OwnerId) (workspaceType : Option String) :
    Agrees cleaning (live.applyWorkspaceCreated first id path branch owner workspaceType)
      (folded.applyWorkspaceCreated second id path branch owner workspaceType) := by
  have stored : ∀ {live folded : MaterializedState}, Agrees cleaning live folded →
      ∀ left right : Workspace, Workspace.Agrees cleaning left right →
      Agrees cleaning { live with workspaces := live.workspaces.insert id left }
        { folded with workspaces := folded.workspaces.insert id right } := fun agrees _ _ held =>
    { agrees with workspaces := agrees.workspaces.insert id held }
  cases owner with
  | none => exact stored agrees _ _ (Or.inl rfl)
  | some owner =>
      cases owner with
      | agentRun runId => exact stored agrees _ _ (Or.inl rfl)
      | job jobId =>
          have placed := agrees.sameJob jobId
            (fun job => { job with workspacePath := some path, workspaceId := some id })
            fun _ => rfl
          exact stored placed _ _ (Or.inl rfl)

theorem agentSignal (order : WalkOrder) (agentId : AgentId) (kind : AgentSignalKind)
    (message : Option String) :
    Agrees cleaning (live.applyAgentSignal order agentId kind message)
      (folded.applyAgentSignal order agentId kind message) := by
  have runs : Table.findKey? order live.agentRuns (fun run => run.agentId == some agentId) =
      Table.findKey? order folded.agentRuns fun run => run.agentId == some agentId :=
    agrees.agentRuns.findKey? order fun left right held => by
      rw [field_of_view AgentRun.forgetStamps AgentRun.agentId (fun _ => rfl) held]
  have jobs : Table.findKey? order live.jobs (Job.hasCurrentAgent agentId) =
      Table.findKey? order folded.jobs (Job.hasCurrentAgent agentId) :=
    agrees.jobs.findKey? order fun left right held =>
      field_of_view Job.forgetClock (Job.hasCurrentAgent agentId)
        (fun job => Job.hasCurrentAgent_forgetClock job agentId) held
  by_cases goes_on : kind = .continue
  · simpa only [MaterializedState.applyAgentSignal, goes_on, ↓reduceIte] using agrees
  · simp only [MaterializedState.applyAgentSignal, goes_on, ↓reduceIte, runs, jobs]
    split
    next runId _ =>
      exact { agrees with
        agentRuns := agrees.agentRuns.modify runId fun _ _ held =>
          same_update AgentRun.forgetStamps (·.setSignal { kind, message }) (fun _ => rfl) held }
    next =>
      split
      next jobId _ =>
        exact agrees.sameJob jobId (·.setSignal { kind, message }) fun _ => rfl
      next => exact agrees

theorem workerStarted (workerName : String) (projectRoot : PathBuf)
    (runbookHash queueName : String) (concurrency : Nat) (ns : String) :
    Agrees cleaning (live.applyWorkerStarted workerName projectRoot runbookHash queueName concurrency ns)
      (folded.applyWorkerStarted workerName projectRoot runbookHash queueName concurrency ns) := by
  have rooted := agrees.recordProjectRoot ns projectRoot
  exact { rooted with
    workers := by simp only [MaterializedState.applyWorkerStarted, agrees.workers, rooted.workers] }

theorem queuePushed (queueName itemId : String) (data : HashMap String) (pushedAtEpochMs : Nat)
    (ns : String) :
    Agrees cleaning (live.applyQueuePushed queueName itemId data pushedAtEpochMs ns)
      (folded.applyQueuePushed queueName itemId data pushedAtEpochMs ns) :=
  { agrees with
    queueItems := by simp only [MaterializedState.applyQueuePushed, agrees.queueItems] }

theorem cronStarted (first second : Clock) (cronName : String) (projectRoot : PathBuf)
    (runbookHash interval runTarget ns : String) :
    Agrees cleaning (live.applyCronStarted first cronName projectRoot runbookHash interval runTarget ns)
      (folded.applyCronStarted second cronName projectRoot runbookHash interval runTarget ns) := by
  have rooted := agrees.recordProjectRoot ns projectRoot
  have fired : (((live.recordProjectRoot ns projectRoot).crons[scopedName ns cronName]?).bind
        (·.lastFiredAtMs)).map (fun _ => 0) =
      (((folded.recordProjectRoot ns projectRoot).crons[scopedName ns cronName]?).bind
        (·.lastFiredAtMs)).map (fun _ => 0) := by
    rcases (rooted.crons (scopedName ns cronName)).cases_on with
      ⟨none, none'⟩ | ⟨left, right, found, found', held⟩
    · rw [none, none']
    · rw [found, found']
      exact congrArg CronRecord.lastFiredAtMs held
  exact { rooted with
    crons := rooted.crons.insert (scopedName ns cronName) (by
      simp only [CronRecord.Agrees, CronRecord.forgetStamps, fired]) }

theorem decisionCreated (id : String) (jobId : JobId) (agentId : Option String)
    (owner : OwnerId) (source : DecisionSource) (context : String)
    (options : List DecisionOption) (createdAtMs : Nat) (ns : String) :
    Agrees cleaning (live.applyDecisionCreated id jobId agentId owner source context options createdAtMs ns)
      (folded.applyDecisionCreated id jobId agentId owner source context options createdAtMs ns) := by
  have decided : ∀ {live folded : MaterializedState}, Agrees cleaning live folded →
      ∀ left right : HashMap Decision, left = right →
      Agrees cleaning { live with decisions := left } { folded with decisions := right } :=
    fun agrees _ _ equal => { agrees with decisions := equal }
  have waits : ∀ {live folded : MaterializedState}, Agrees cleaning live folded → ∀ jobId,
      Agrees cleaning
        (live.updateJob jobId fun job => { job with stepStatus := .waiting (some id) })
        (folded.updateJob jobId fun job => { job with stepStatus := .waiting (some id) }) :=
    fun agrees jobId => agrees.sameJob jobId
      (fun job => { job with stepStatus := .waiting (some id) }) fun _ => rfl
  have runWaits : ∀ {live folded : MaterializedState}, Agrees cleaning live folded → ∀ runId,
      Agrees cleaning
        { live with agentRuns := live.agentRuns.modify runId fun run =>
            { run with status := .waiting } }
        { folded with agentRuns := folded.agentRuns.modify runId fun run =>
            { run with status := .waiting } } :=
    fun agrees runId => { agrees with
      agentRuns := agrees.agentRuns.modify runId fun _ _ held =>
        same_update AgentRun.forgetStamps (fun run => { run with status := .waiting })
          (fun _ => rfl) held }
  simp only [MaterializedState.applyDecisionCreated, agrees.decisions]
  cases stored : folded.decisions.contains id with
  | true =>
      cases owner with
      | job jobId => exact waits agrees jobId
      | agentRun runId => exact runWaits agrees runId
  | false =>
      cases owner with
      | job jobId => exact waits (decided agrees _ _ rfl) jobId
      | agentRun runId => exact runWaits (decided agrees _ _ rfl) runId

theorem agentRunStarted (first second : Clock) (id : AgentRunId) (agentId : AgentId) :
    Agrees cleaning (live.applyAgentRunStarted first id agentId)
      (folded.applyAgentRunStarted second id agentId) := by
  rcases (agrees.agentRuns id).cases_on with ⟨none, none'⟩ | ⟨run, run', found, found', held⟩
  · simpa only [MaterializedState.applyAgentRunStarted, none, none'] using agrees
  · have name : run.agentName = run'.agentName :=
      field_of_view AgentRun.forgetStamps AgentRun.agentName (fun _ => rfl) held
    have ns : run.ns = run'.ns :=
      field_of_view AgentRun.forgetStamps AgentRun.ns (fun _ => rfl) held
    have cwd : run.cwd = run'.cwd :=
      field_of_view AgentRun.forgetStamps AgentRun.cwd (fun _ => rfl) held
    simp only [MaterializedState.applyAgentRunStarted, found, found', name, ns, cwd]
    exact { agrees with
      agentRuns := agrees.agentRuns.modify id fun _ _ held =>
        update_of_view AgentRun.forgetStamps
          (fun run => { run with status := .running, agentId := some agentId })
          (fun _ => rfl) (fun _ => rfl) held
      agents := agrees.agents.insertIfNew agentId rfl }

theorem agentRunStatusChanged (first second : Clock) (id : AgentRunId) (status : AgentRunStatus)
    (reason : Option String) :
    Agrees cleaning (live.applyAgentRunStatusChanged first id status reason)
      (folded.applyAgentRunStatusChanged second id status reason) := by
  have changed : Agrees cleaning
      { live with agentRuns :=
          live.agentRuns.modify id (·.applyStatusChanged status reason first.epochMs) }
      { folded with agentRuns :=
          folded.agentRuns.modify id (·.applyStatusChanged status reason second.epochMs) } :=
    { agrees with
      agentRuns := agrees.agentRuns.modify id fun _ _ held =>
        update_of_view AgentRun.forgetStamps (·.applyStatusChanged status reason 0)
          (fun _ => rfl) (fun _ => rfl) held }
  simp only [MaterializedState.applyAgentRunStatusChanged]
  split
  · exact { changed with decisions := by simp only [agrees.decisions] }
  · exact changed

/-- The same event, applied at any two readings of the clock. -/
theorem applyEvent (order : WalkOrder) (first second : Clock) (event : Event) :
    Agrees cleaning (live.applyEvent order first event) (folded.applyEvent order second event) := by
  cases event with
  | agentWorking agentId owner =>
      exact (agrees.updateOwnerJob owner (fun job => { job with stepStatus := .running })
        (fun _ => rfl) fun _ => rfl).updateAgent agentId .running _ _
  | agentWaiting agentId owner => exact agrees.updateAgent agentId .idle _ _
  | agentFailed agentId error owner =>
      exact (agrees.updateOwnerJob owner _ (fun job => Job.applyAgentLost_forgetClock job _)
        fun job => Job.applyAgentLost_forgetClock job _).updateAgent agentId .exited _ _
  | agentExited agentId exitCode owner =>
      exact (agrees.updateOwnerJob owner _ (fun job => Job.applyAgentExited_forgetClock job exitCode)
        fun job => Job.applyAgentExited_forgetClock job exitCode).updateAgent agentId .exited _ _
  | agentGone agentId owner =>
      exact (agrees.updateOwnerJob owner _ (fun job => Job.applyAgentLost_forgetClock job _)
        fun job => Job.applyAgentLost_forgetClock job _).updateAgent agentId .gone _ _
  | agentSignal agentId kind message => exact agrees.agentSignal order agentId kind message
  | commandRun jobId jobName projectRoot invokeDir ns command args =>
      exact agrees.recordProjectRoot ns projectRoot
  | jobCreated id kind name runbookHash cwd vars initialStep createdAtEpochMs ns cronName =>
      exact { agrees with jobs := agrees.jobs.insert id rfl }
  | jobAdvanced id step => exact agrees.jobAdvanced first second id step
  | jobUpdated id vars => exact agrees.sameJob id (Job.applyUpdated vars) fun _ => rfl
  | jobCancelling id =>
      exact agrees.sameJob id (fun job => { job with cancelling := true }) fun _ => rfl
  | jobDeleted id =>
      exact { agrees with
        jobs := agrees.jobs.erase id
        decisions := by simp only [MaterializedState.applyEvent, agrees.decisions]
        agents := agrees.agents.filter fun _ _ _ held => by rw [held.owner_eq] }
  | runbookLoaded hash version runbook =>
      exact { agrees with
        runbooks := by simp only [MaterializedState.applyEvent, agrees.runbooks] }
  | sessionCreated id owner => exact agrees.sessionCreated id owner
  | sessionDeleted id => exact agrees.sessionDeleted id
  | shellExited jobId step exitCode stdout stderr =>
      exact agrees.updateJob jobId _ (fun job => Job.applyShellExited_forgetClock job _ exitCode)
        fun job => Job.applyShellExited_forgetClock job _ exitCode
  | stepStarted jobId step agentId agentName =>
      exact agrees.stepStarted first second jobId agentId agentName
  | stepWaiting jobId step reason decisionId =>
      exact agrees.sameJob jobId _ fun job => Job.applyStepWaiting_forgetClock job reason decisionId
  | stepCompleted jobId step =>
      exact agrees.updateJob jobId _ (fun job => Job.applyStepCompleted_forgetClock job _)
        fun job => Job.applyStepCompleted_forgetClock job _
  | stepFailed jobId step error =>
      exact agrees.updateJob jobId _ (fun job => Job.applyStepFailed_forgetClock job _ error)
        fun job => Job.applyStepFailed_forgetClock job _ error
  | workspaceCreated id path branch owner workspaceType =>
      exact agrees.workspaceCreated first second id path branch owner workspaceType
  | workspaceReady id => exact agrees.updateWorkspace id .ready
  | workspaceFailed id reason => exact agrees.updateWorkspace id (.failed reason)
  | workspaceDeleted id =>
      exact { agrees with workspaces := agrees.workspaces.erase id }
  | cronStarted cronName projectRoot runbookHash interval runTarget ns =>
      exact agrees.cronStarted first second cronName projectRoot runbookHash interval runTarget ns
  | cronStopped cronName ns =>
      exact { agrees with
        crons := agrees.crons.modify _ fun _ _ held =>
          same_update CronRecord.forgetStamps (fun record => { record with status := "stopped" })
            (fun _ => rfl) held }
  | cronFired cronName jobId agentRunId ns =>
      exact { agrees with
        crons := agrees.crons.modify _ fun _ _ held =>
          same_update CronRecord.forgetStamps (fun record => { record with lastFiredAtMs := some 0 })
            (fun _ => rfl) held }
  | cronDeleted cronName ns => exact { agrees with crons := agrees.crons.erase _ }
  | workerStarted workerName projectRoot runbookHash queueName concurrency ns =>
      exact agrees.workerStarted workerName projectRoot runbookHash queueName concurrency ns
  | workerItemDispatched workerName itemId jobId ns => exact agrees.updateWorker workerName ns _
  | workerStopped workerName ns => exact agrees.updateWorker workerName ns _
  | workerResized workerName concurrency ns => exact agrees.updateWorker workerName ns _
  | workerDeleted workerName ns =>
      exact { agrees with
        workers := by simp only [MaterializedState.applyEvent, agrees.workers] }
  | queuePushed queueName itemId data pushedAtEpochMs ns =>
      exact agrees.queuePushed queueName itemId data pushedAtEpochMs ns
  | queueTaken queueName itemId workerName ns => exact agrees.updateItems queueName ns _
  | queueCompleted queueName itemId ns => exact agrees.updateItems queueName ns _
  | queueFailed queueName itemId error ns => exact agrees.updateItems queueName ns _
  | queueDropped queueName itemId ns => exact agrees.updateItems queueName ns _
  | queueItemRetry queueName itemId ns => exact agrees.updateItems queueName ns _
  | queueItemDead queueName itemId ns => exact agrees.updateItems queueName ns _
  | decisionCreated id jobId agentId owner source context options createdAtMs ns =>
      exact agrees.decisionCreated id jobId agentId owner source context options createdAtMs ns
  | decisionResolved id chosen message resolvedAtMs ns =>
      exact { agrees with
        decisions := by simp only [MaterializedState.applyEvent, agrees.decisions] }
  | agentRunCreated id agentName commandName ns cwd runbookHash vars createdAtEpochMs =>
      exact { agrees with agentRuns := agrees.agentRuns.insert id rfl }
  | agentRunStarted id agentId => exact agrees.agentRunStarted first second id agentId
  | agentRunStatusChanged id status reason =>
      exact agrees.agentRunStatusChanged first second id status reason
  | agentRunDeleted id =>
      exact { agrees with
        agentRuns := agrees.agentRuns.erase id
        agents := agrees.agents.filter fun _ _ _ held => by rw [held.owner_eq] }
  | _ => exact agrees

end Agrees

/-! ## Any walk of the tables -/

namespace MaterializedState

/-- An agent's signal finds one standalone run at most, and one job. -/
def Unambiguous (state : MaterializedState) : Event → Prop
  | .agentSignal agentId _ _ =>
      Table.Single state.agentRuns (fun run => run.agentId == some agentId) ∧
        Table.Single state.jobs (Job.hasCurrentAgent agentId)
  | _ => True

/-- Only a signal walks the tables. -/
theorem applyEvent_order {state : MaterializedState} {event : Event}
    (single : state.Unambiguous event) (order other : WalkOrder) (clock : Clock) :
    state.applyEvent order clock event = state.applyEvent other clock event := by
  cases event with
  | agentSignal agentId kind message =>
      obtain ⟨runs, jobs⟩ := single
      simp only [applyEvent, applyAgentSignal, runs.findKey? order other,
        jobs.findKey? order other]
  | _ => rfl

/-- Each signal is unambiguous when it is applied. -/
def AllUnambiguous (orders : Nat → WalkOrder) (clocks : Nat → Clock) (state : MaterializedState) :
    Nat → List Event → Prop
  | _, [] => True
  | n, event :: rest =>
      state.Unambiguous event ∧
        AllUnambiguous orders clocks (state.applyEvent (orders n) (clocks n) event) (n + 1) rest

end MaterializedState

/-- Folds of the same events, in whatever order the tables are walked. -/
theorem Agrees.replay_any {cleaning : Bool} {live folded : MaterializedState}
    (agrees : Agrees cleaning live folded) {orders : Nat → WalkOrder} {clocks : Nat → Clock}
    {n : Nat} {events : List Event} (single : live.AllUnambiguous orders clocks n events)
    (orders' : Nat → WalkOrder) (clocks' : Nat → Clock) (m : Nat) :
    Agrees cleaning (live.replay orders clocks n events)
      (folded.replay orders' clocks' m events) := by
  induction events generalizing live folded n m with
  | nil => exact agrees
  | cons event rest ih =>
      obtain ⟨here, later⟩ := single
      refine ih ?_ later (m + 1)
      rw [MaterializedState.applyEvent_order here (orders n) (orders' m)]
      exact agrees.applyEvent (orders' m) (clocks n) (clocks' m) event

end OddJobs
