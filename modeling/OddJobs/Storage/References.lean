import OddJobs.Library.Every
import OddJobs.Storage.State

/-!
# Referential integrity

Jobs, agent runs and agent records point to sessions, and agent records to
their owners.  No event leaves a reference to something that is gone.
-/

namespace OddJobs

open Library

def SessionKnown (sessions : HashMap Session) (held : Option String) : Prop :=
  ∀ id, held = some id → sessions.contains id = true

theorem sessionKnown_none (sessions : HashMap Session) : SessionKnown sessions none := by
  intro id held
  cases held

theorem SessionKnown.insert {sessions : HashMap Session} {held : Option String}
    (known : SessionKnown sessions held) (id : SessionId) (session : Session) :
    SessionKnown (sessions.insert id session) held := by
  intro other isHeld
  rw [Std.ExtTreeMap.contains_insert, known other isHeld, Bool.or_true]

/-- Other keys stay in a table when one has gone. -/
theorem contains_erase {V : Type} {table : HashMap V} {id other : String}
    (held : table.contains other = true) (differs : id ≠ other) :
    (table.erase id).contains other = true := by
  rw [Table.contains_eq_isSome] at held
  rw [Table.contains_eq_isSome, Table.lookup_erase, if_neg differs]
  exact held

/-- Other sessions are still known when one has gone. -/
theorem SessionKnown.erase {sessions : HashMap Session} {held : Option String}
    (known : SessionKnown sessions held) {id : SessionId} (other : held ≠ some id) :
    SessionKnown (sessions.erase id) held := by
  intro key isHeld
  refine contains_erase (known key isHeld) ?_
  rintro rfl
  exact other isHeld

def OwnerKnown (jobs : HashMap Job) (agentRuns : HashMap AgentRun) : OwnerId → Prop
  | .job id => jobs.contains id = true
  | .agentRun id => agentRuns.contains id = true

theorem OwnerKnown.mono {jobs jobs' : HashMap Job} {agentRuns agentRuns' : HashMap AgentRun}
    {owner : OwnerId} (known : OwnerKnown jobs agentRuns owner)
    (sameJobs : ∀ id : JobId, owner = .job id → jobs.contains id = true →
      jobs'.contains id = true)
    (sameRuns : ∀ id : AgentRunId, owner = .agentRun id → agentRuns.contains id = true →
      agentRuns'.contains id = true) : OwnerKnown jobs' agentRuns' owner := by
  cases owner with
  | job id => exact sameJobs id rfl known
  | agentRun id => exact sameRuns id rfl known

/-- All references between the tables lead somewhere. -/
structure Referential (sessions : HashMap Session) (jobs : HashMap Job)
    (agentRuns : HashMap AgentRun) (agents : HashMap AgentRecord) : Prop where
  jobSessions : Table.Every (fun _ job => SessionKnown sessions job.sessionId) jobs
  runSessions : Table.Every (fun _ run => SessionKnown sessions run.sessionId) agentRuns
  agentSessions : Table.Every (fun _ record => SessionKnown sessions record.sessionId) agents
  owners : Table.Every (fun _ record => OwnerKnown jobs agentRuns record.owner) agents

namespace Referential

variable {sessions : HashMap Session} {jobs : HashMap Job} {agentRuns : HashMap AgentRun}
  {agents : HashMap AgentRecord}

theorem empty : Referential ∅ ∅ ∅ ∅ where
  jobSessions := Table.every_empty
  runSessions := Table.every_empty
  agentSessions := Table.every_empty
  owners := Table.every_empty

theorem modifyJob (referential : Referential sessions jobs agentRuns agents) (id : JobId)
    {update : Job → Job}
    (keeps : ∀ job : Job, SessionKnown sessions job.sessionId →
      SessionKnown sessions (update job).sessionId) :
    Referential sessions (jobs.modify id update) agentRuns agents where
  jobSessions := referential.jobSessions.modify id keeps
  runSessions := referential.runSessions
  agentSessions := referential.agentSessions
  owners := referential.owners.mono fun _ _ known =>
    known.mono (fun jobId _ held => (Table.contains_modify jobs id jobId update).trans held)
      fun _ _ held => held

theorem modifyRun (referential : Referential sessions jobs agentRuns agents) (id : AgentRunId)
    {update : AgentRun → AgentRun}
    (keeps : ∀ run : AgentRun, SessionKnown sessions run.sessionId →
      SessionKnown sessions (update run).sessionId) :
    Referential sessions jobs (agentRuns.modify id update) agents where
  jobSessions := referential.jobSessions
  runSessions := referential.runSessions.modify id keeps
  agentSessions := referential.agentSessions
  owners := referential.owners.mono fun _ _ known =>
    known.mono (fun _ _ held => held)
      fun runId _ held => (Table.contains_modify agentRuns id runId update).trans held

theorem modifyAgent (referential : Referential sessions jobs agentRuns agents) (id : AgentId)
    {update : AgentRecord → AgentRecord}
    (session : ∀ record : AgentRecord, (update record).sessionId = record.sessionId)
    (owner : ∀ record : AgentRecord, (update record).owner = record.owner) :
    Referential sessions jobs agentRuns (agents.modify id update) where
  jobSessions := referential.jobSessions
  runSessions := referential.runSessions
  agentSessions := referential.agentSessions.modify id fun record known =>
    (session record).symm ▸ known
  owners := referential.owners.modify id fun record known => (owner record).symm ▸ known

/-- A new job holds no session, and takes the place of an old one. -/
theorem insertJob (referential : Referential sessions jobs agentRuns agents) (id : JobId)
    {job : Job} (fresh : job.sessionId = none) :
    Referential sessions (jobs.insert id job) agentRuns agents where
  jobSessions := referential.jobSessions.insert (fresh.symm ▸ sessionKnown_none sessions)
  runSessions := referential.runSessions
  agentSessions := referential.agentSessions
  owners := referential.owners.mono fun _ _ known => known.mono
    (fun jobId _ held => by rw [Std.ExtTreeMap.contains_insert, held, Bool.or_true])
    fun _ _ held => held

theorem insertRun (referential : Referential sessions jobs agentRuns agents) (id : AgentRunId)
    {run : AgentRun} (fresh : run.sessionId = none) :
    Referential sessions jobs (agentRuns.insert id run) agents where
  jobSessions := referential.jobSessions
  runSessions := referential.runSessions.insert (fresh.symm ▸ sessionKnown_none sessions)
  agentSessions := referential.agentSessions
  owners := referential.owners.mono fun _ _ known => known.mono
    (fun _ _ held => held)
    fun runId _ held => by rw [Std.ExtTreeMap.contains_insert, held, Bool.or_true]

theorem insertAgent (referential : Referential sessions jobs agentRuns agents) (id : AgentId)
    {record : AgentRecord} (fresh : record.sessionId = none)
    (owner : OwnerKnown jobs agentRuns record.owner) :
    Referential sessions jobs agentRuns (agents.insertIfNew id record) where
  jobSessions := referential.jobSessions
  runSessions := referential.runSessions
  agentSessions := referential.agentSessions.insertIfNew (fresh.symm ▸ sessionKnown_none sessions)
  owners := referential.owners.insertIfNew owner

/-- A job goes together with the records of its agents. -/
theorem eraseJob (referential : Referential sessions jobs agentRuns agents) (id : JobId) :
    Referential sessions (jobs.erase id) agentRuns
      (agents.filter fun _ record => record.owner ≠ .job id) where
  jobSessions := referential.jobSessions.erase id
  runSessions := referential.runSessions
  agentSessions := referential.agentSessions.filter _
  owners := by
    intro key record found
    obtain ⟨present, keep⟩ := Table.kept_of_filter found
    refine (referential.owners key record present).mono (fun jobId owner held => ?_)
      fun _ _ held => held
    refine contains_erase held ?_
    rintro rfl
    exact of_decide_eq_true keep owner

theorem eraseRun (referential : Referential sessions jobs agentRuns agents) (id : AgentRunId) :
    Referential sessions jobs (agentRuns.erase id)
      (agents.filter fun _ record => record.owner ≠ .agentRun id) where
  jobSessions := referential.jobSessions
  runSessions := referential.runSessions.erase id
  agentSessions := referential.agentSessions.filter _
  owners := by
    intro key record found
    obtain ⟨present, keep⟩ := Table.kept_of_filter found
    refine (referential.owners key record present).mono (fun _ _ held => held)
      fun runId owner held => ?_
    refine contains_erase held ?_
    rintro rfl
    exact of_decide_eq_true keep owner

theorem insertSession (referential : Referential sessions jobs agentRuns agents)
    (id : SessionId) (session : Session) :
    Referential (sessions.insert id session) jobs agentRuns agents where
  jobSessions := referential.jobSessions.mono fun _ _ known => known.insert id session
  runSessions := referential.runSessions.mono fun _ _ known => known.insert id session
  agentSessions := referential.agentSessions.mono fun _ _ known => known.insert id session
  owners := referential.owners

/-- The agents of an owner are told of its session. -/
theorem mapAgents (referential : Referential sessions jobs agentRuns agents)
    {update : AgentRecord → AgentRecord}
    (keeps : ∀ record : AgentRecord, SessionKnown sessions record.sessionId →
      SessionKnown sessions (update record).sessionId)
    (owner : ∀ record : AgentRecord, (update record).owner = record.owner) :
    Referential sessions jobs agentRuns (agents.map fun _ record => update record) where
  jobSessions := referential.jobSessions
  runSessions := referential.runSessions
  agentSessions := referential.agentSessions.map _ fun _ record known => keeps record known
  owners := referential.owners.map _ fun _ record known => (owner record).symm ▸ known

end Referential

namespace MaterializedState

def ReferencesHold (state : MaterializedState) : Prop :=
  Referential state.sessions state.jobs state.agentRuns state.agents

namespace ReferencesHold

variable {state : MaterializedState}

/-- A job that keeps its session, or gives it up. -/
theorem updateJob (hold : state.ReferencesHold) (id : JobId) {update : Job → Job}
    (keeps : ∀ job : Job, SessionKnown state.sessions job.sessionId →
      SessionKnown state.sessions (update job).sessionId) :
    (state.updateJob id update).ReferencesHold :=
  hold.modifyJob id keeps

theorem updateOwnerJob (hold : state.ReferencesHold) (owner : OwnerId) {update : Job → Job}
    (keeps : ∀ job : Job, (update job).sessionId = job.sessionId) :
    (state.updateOwnerJob owner update).ReferencesHold := by
  cases owner with
  | job jobId => exact hold.updateJob jobId fun job known => (keeps job).symm ▸ known
  | agentRun runId => exact hold

theorem updateAgent (hold : state.ReferencesHold) (id : AgentId) (status : AgentRecordStatus)
    (epochMs : Nat) : (state.updateAgent id status epochMs).ReferencesHold :=
  hold.modifyAgent id (fun _ => rfl) fun _ => rfl

theorem recordProjectRoot (hold : state.ReferencesHold) (ns : String) (projectRoot : PathBuf) :
    (state.recordProjectRoot ns projectRoot).ReferencesHold := by
  unfold MaterializedState.recordProjectRoot
  split
  · exact hold
  · exact hold

theorem jobAdvanced (hold : state.ReferencesHold) (clock : Clock) (id : JobId) (step : String) :
    (state.applyJobAdvanced clock id step).ReferencesHold := by
  have advanced : (state.updateJob id (Job.applyAdvanced clock.epochMs step)).ReferencesHold := by
    refine hold.updateJob id fun job known => ?_
    rw [Job.applyAdvanced_eq]
    dsimp only
    split
    · exact sessionKnown_none state.sessions
    · exact known
  unfold applyJobAdvanced
  split
  · exact hold
  · dsimp only
    split
    · exact advanced
    · exact advanced

/-- The record of a new agent is entered for an existing job. -/
theorem stepStarted (hold : state.ReferencesHold) (clock : Clock) (jobId : JobId)
    (agentId : Option AgentId) (agentName : Option String) :
    (state.applyStepStarted clock jobId agentId agentName).ReferencesHold := by
  have started : (state.updateJob jobId
      (Job.applyStepStarted agentId agentName)).ReferencesHold := by
    refine hold.updateJob jobId fun job known => ?_
    rw [Job.applyStepStarted_eq]
    exact known
  unfold applyStepStarted
  cases found : state.jobs[jobId]? with
  | none => exact hold
  | some job =>
      cases agentId with
      | none => exact started
      | some agentId =>
          refine started.insertAgent agentId rfl ?_
          show (state.jobs.modify jobId _).contains jobId = true
          rw [Table.contains_modify, Table.contains_eq_isSome, found]
          rfl

theorem agentRunStarted (hold : state.ReferencesHold) (clock : Clock) (id : AgentRunId)
    (agentId : AgentId) : (state.applyAgentRunStarted clock id agentId).ReferencesHold := by
  unfold applyAgentRunStarted
  cases found : state.agentRuns[id]? with
  | none => exact hold
  | some run =>
      have started : Referential state.sessions state.jobs
          (state.agentRuns.modify id (·.applyStarted agentId clock.epochMs)) state.agents :=
        hold.modifyRun id fun _ known => known
      refine started.insertAgent agentId rfl ?_
      show (state.agentRuns.modify id _).contains id = true
      rw [Table.contains_modify, Table.contains_eq_isSome, found]
      rfl

/-- The session is entered before it is handed to its owner and the owner's agents. -/
theorem sessionCreated (hold : state.ReferencesHold) (id : SessionId) (owner : OwnerId) :
    (state.applySessionCreated id owner).ReferencesHold := by
  let session : Session := { id, jobId := match owner with
    | .job jobId => jobId
    | .agentRun _ => "" }
  have entered := hold.insertSession id session
  have known : SessionKnown (state.sessions.insert id session) (some id) := by
    rintro _ ⟨⟩
    exact Std.ExtTreeMap.contains_insert_self
  have told : ∀ record : AgentRecord,
      SessionKnown (state.sessions.insert id session) record.sessionId →
      SessionKnown (state.sessions.insert id session)
        (record.applySessionCreated owner id).sessionId := by
    intro record held
    unfold AgentRecord.applySessionCreated
    split
    · exact known
    · exact held
  have sameOwner : ∀ record : AgentRecord,
      (record.applySessionCreated owner id).owner = record.owner := by
    intro record
    unfold AgentRecord.applySessionCreated
    split
    · rfl
    · rfl
  cases owner with
  | job jobId => exact (entered.modifyJob jobId fun _ _ => known).mapAgents told sameOwner
  | agentRun runId => exact (entered.modifyRun runId fun _ _ => known).mapAgents told sameOwner

theorem known_erased {sessions : HashMap Session} {held : Option String} (id : SessionId)
    (known : SessionKnown sessions held) :
    SessionKnown (sessions.erase id) (if held = some id then none else held) := by
  split
  · exact sessionKnown_none _
  · next other => exact known.erase other

/-- Every reference to a session goes with it. -/
theorem sessionDeleted (hold : state.ReferencesHold) (id : SessionId) :
    (state.applySessionDeleted id).ReferencesHold where
  jobSessions := hold.jobSessions.map _ fun _ job known => by
    have erased := known_erased id known
    split
    · next same => rwa [if_pos same] at erased
    · next other => rwa [if_neg other] at erased
  runSessions := hold.runSessions.map _ fun _ run known => by
    have erased := known_erased id known
    split
    · next same => rwa [if_pos same] at erased
    · next other => rwa [if_neg other] at erased
  agentSessions := hold.agentSessions.map _ fun _ record known => by
    have erased := known_erased id known
    unfold AgentRecord.applySessionDeleted
    split
    · next same => rwa [if_pos same] at erased
    · next other => rwa [if_neg other] at erased
  owners := hold.owners.map _ fun _ record known => by
    have sameOwner : (record.applySessionDeleted id).owner = record.owner := by
      unfold AgentRecord.applySessionDeleted
      split
      · rfl
      · rfl
    rw [sameOwner]
    exact known.mono (fun jobId _ held => (Table.contains_map state.jobs jobId _).trans held)
      fun runId _ held => (Table.contains_map state.agentRuns runId _).trans held

theorem workspaceCreated (hold : state.ReferencesHold) (clock : Clock) (id : WorkspaceId)
    (path : PathBuf) (branch : Option String) (owner : Option OwnerId)
    (workspaceType : Option String) :
    (state.applyWorkspaceCreated clock id path branch owner workspaceType).ReferencesHold := by
  cases owner with
  | none => exact hold
  | some owner =>
      cases owner with
      | job jobId => exact hold.modifyJob jobId fun _ known => known
      | agentRun runId => exact hold

theorem agentSignal (hold : state.ReferencesHold) (order : WalkOrder) (agentId : AgentId)
    (kind : AgentSignalKind) (message : Option String) :
    (state.applyAgentSignal order agentId kind message).ReferencesHold := by
  unfold applyAgentSignal
  split
  · exact hold
  · dsimp only
    split
    · exact hold.modifyRun _ fun _ known => known
    · split
      · exact hold.modifyJob _ fun _ known => known
      · exact hold

theorem decisionCreated (hold : state.ReferencesHold) (id : String) (jobId : JobId)
    (agentId : Option String) (owner : OwnerId) (source : DecisionSource) (context : String)
    (options : List DecisionOption) (createdAtMs : Nat) (ns : String) :
    (state.applyDecisionCreated id jobId agentId owner source context options createdAtMs
      ns).ReferencesHold := by
  unfold applyDecisionCreated
  cases state.decisions.contains id with
  | true =>
      cases owner with
      | job jobId => exact hold.modifyJob jobId fun _ known => known
      | agentRun runId => exact hold.modifyRun runId fun _ known => known
  | false =>
      cases owner with
      | job jobId => exact hold.modifyJob jobId fun _ known => known
      | agentRun runId => exact hold.modifyRun runId fun _ known => known

theorem agentRunStatusChanged (hold : state.ReferencesHold) (clock : Clock) (id : AgentRunId)
    (status : AgentRunStatus) (reason : Option String) :
    (state.applyAgentRunStatusChanged clock id status reason).ReferencesHold := by
  unfold applyAgentRunStatusChanged
  dsimp only
  split
  · exact hold.modifyRun id fun _ known => known
  · exact hold.modifyRun id fun _ known => known

end ReferencesHold

theorem applyAgentExited_sessionId (exitCode : Option Int) (job : Job) :
    (job.applyAgentExited exitCode).sessionId = job.sessionId := by
  unfold Job.applyAgentExited
  split
  · rfl
  · split
    · rfl
    · rfl

theorem applyAgentLost_sessionId (message : String) (job : Job) :
    (job.applyAgentLost message).sessionId = job.sessionId := by
  unfold Job.applyAgentLost
  split
  · rfl
  · rfl

theorem applyShellExited_sessionId (epochMs : Nat) (exitCode : Int) (job : Job) :
    (job.applyShellExited epochMs exitCode).sessionId = job.sessionId := by
  unfold Job.applyShellExited
  split
  · rfl
  · rfl

/-- Every event keeps the references. -/
theorem referencesHold_applyEvent (order : WalkOrder) (clock : Clock)
    (state : MaterializedState) (event : Event) (hold : state.ReferencesHold) :
    (state.applyEvent order clock event).ReferencesHold := by
  cases event with
  | agentWorking agentId owner =>
      have same : ∀ job : Job, ({ job with stepStatus := .running } : Job).sessionId =
          job.sessionId := fun _ => rfl
      exact (hold.updateOwnerJob owner same).updateAgent agentId .running clock.epochMs
  | agentWaiting agentId owner => exact hold.updateAgent agentId .idle clock.epochMs
  | agentExited agentId exitCode owner =>
      exact (hold.updateOwnerJob owner (applyAgentExited_sessionId exitCode)).updateAgent agentId
        .exited clock.epochMs
  | agentFailed agentId error owner =>
      exact (hold.updateOwnerJob owner (applyAgentLost_sessionId error.display)).updateAgent
        agentId .exited clock.epochMs
  | agentGone agentId owner =>
      exact (hold.updateOwnerJob owner (applyAgentLost_sessionId _)).updateAgent agentId .gone
        clock.epochMs
  | shellExited jobId step exitCode stdout stderr =>
      exact hold.updateJob jobId fun job known =>
        (applyShellExited_sessionId clock.epochMs exitCode job).symm ▸ known
  | jobCreated id kind name runbookHash cwd vars initialStep createdAtEpochMs ns cronName =>
      exact hold.insertJob id rfl
  | jobAdvanced id step => exact hold.jobAdvanced clock id step
  | stepStarted jobId step agentId agentName =>
      exact hold.stepStarted clock jobId agentId agentName
  | stepWaiting jobId step reason decisionId => exact hold.updateJob jobId fun _ known => known
  | stepCompleted jobId step => exact hold.updateJob jobId fun _ known => known
  | stepFailed jobId step error => exact hold.updateJob jobId fun _ known => known
  | jobCancelling id => exact hold.updateJob id fun _ known => known
  | jobDeleted id => exact hold.eraseJob id
  | jobUpdated id vars => exact hold.updateJob id fun _ known => known
  | sessionCreated id owner => exact hold.sessionCreated id owner
  | sessionDeleted id => exact hold.sessionDeleted id
  | workspaceCreated id path branch owner workspaceType =>
      exact hold.workspaceCreated clock id path branch owner workspaceType
  | agentSignal agentId kind message => exact hold.agentSignal order agentId kind message
  | workerStarted workerName projectRoot runbookHash queueName concurrency ns =>
      exact hold.recordProjectRoot ns projectRoot
  | cronStarted cronName projectRoot runbookHash interval runTarget ns =>
      exact hold.recordProjectRoot ns projectRoot
  | decisionCreated id jobId agentId owner source context options createdAtMs ns =>
      exact hold.decisionCreated id jobId agentId owner source context options createdAtMs ns
  | agentRunCreated id agentName commandName ns cwd runbookHash vars createdAtEpochMs =>
      exact hold.insertRun id rfl
  | agentRunStarted id agentId => exact hold.agentRunStarted clock id agentId
  | agentRunStatusChanged id status reason =>
      exact hold.agentRunStatusChanged clock id status reason
  | agentRunDeleted id => exact hold.eraseRun id
  | commandRun jobId jobName projectRoot invokeDir ns command args =>
      exact hold.recordProjectRoot ns projectRoot
  | _ => exact hold

/-- In every state that events lead to, the session ids that jobs, agent runs and
agent records hold are keys of the sessions, and the owners of agent records exist. -/
theorem replay_referencesHold (orders : Nat → WalkOrder) (clocks : Nat → Clock)
    (events : List Event) :
    let state := ({} : MaterializedState).replay orders clocks 0 events
    (∀ (id : JobId) (job : Job), state.jobs[id]? = some job →
      ∀ session, job.sessionId = some session → state.sessions.contains session = true) ∧
    (∀ (id : AgentRunId) (run : AgentRun), state.agentRuns[id]? = some run →
      ∀ session, run.sessionId = some session → state.sessions.contains session = true) ∧
    ∀ (id : AgentId) (record : AgentRecord), state.agents[id]? = some record →
      (∀ session, record.sessionId = some session → state.sessions.contains session = true) ∧
      ((∃ jobId, record.owner = .job jobId ∧ state.jobs.contains jobId = true) ∨
        ∃ runId, record.owner = .agentRun runId ∧ state.agentRuns.contains runId = true) := by
  intro state
  have hold : state.ReferencesHold :=
    replay_invariant referencesHold_applyEvent orders clocks events 0 .empty
  refine ⟨hold.jobSessions, hold.runSessions, fun id record found => ?_⟩
  have owned : OwnerKnown state.jobs state.agentRuns record.owner := hold.owners id record found
  refine ⟨hold.agentSessions id record found, ?_⟩
  cases owner : record.owner with
  | job jobId =>
      rw [owner] at owned
      exact .inl ⟨jobId, rfl, owned⟩
  | agentRun runId =>
      rw [owner] at owned
      exact .inr ⟨runId, rfl, owned⟩

/-- The agent of a step, once its session has been created. -/
theorem replay_referencesHold_agent :
    let state := ({} : MaterializedState).replay (fun _ => .byKey) (fun _ => ⟨0, 0⟩) 0
      [.jobCreated "j" "build" "build" "hash" "/" ∅ "plan" 0 "" none,
        .stepStarted "j" "plan" (some "agent") none, .sessionCreated "session" (.job "j")]
    ∃ record : AgentRecord, state.agents["agent"]? = some record ∧
      record.sessionId = some "session" ∧ state.sessions.contains "session" = true ∧
      ((∃ jobId, record.owner = .job jobId ∧ state.jobs.contains jobId = true) ∨
        ∃ runId, record.owner = .agentRun runId ∧ state.agentRuns.contains runId = true) := by
  intro state
  have started : (state.agents["agent"]?).map (·.sessionId) = some (some "session") := by
    decide +kernel
  obtain ⟨record, found, session⟩ := Option.map_eq_some_iff.mp started
  have hold := replay_referencesHold (fun _ => .byKey) (fun _ => ⟨0, 0⟩)
    [.jobCreated "j" "build" "build" "hash" "/" ∅ "plan" 0 "" none,
      .stepStarted "j" "plan" (some "agent") none, .sessionCreated "session" (.job "j")]
  obtain ⟨known, owned⟩ := hold.2.2 "agent" record found
  exact ⟨record, found, session, known "session" session, owned⟩

end MaterializedState

end OddJobs
