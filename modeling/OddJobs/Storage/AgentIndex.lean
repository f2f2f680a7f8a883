import OddJobs.Library.Every
import OddJobs.Library.Runs
import OddJobs.Storage.State

/-!
# The unified agent index

A record of the index is inserted when a step or a run has started its agent; the session
is attached by owner, to every record of the owner that has none.  A spawn announces the
session first and the agent second.
-/

namespace OddJobs

open Library

namespace MaterializedState

def indexedSession (state : MaterializedState) (agentId : AgentId) : Option (Option String) :=
  (state.agents[agentId]?).map (·.sessionId)

end MaterializedState

def Event.indexes : Event → Bool
  | stepStarted _ _ agentId _ => agentId.isSome
  | agentRunStarted .. | sessionCreated .. | sessionDeleted _ => true
  | _ => false

/-- A record of the index stays that of its owner, with its session. -/
def SameSession (before after : AgentRecord) : Prop :=
  after.sessionId = before.sessionId ∧ after.owner = before.owner

theorem SameSession.refl (record : AgentRecord) : SameSession record record := ⟨rfl, rfl⟩

theorem updateOwnerJob_agents (state : MaterializedState) (owner : OwnerId) (update : Job → Job) :
    (state.updateOwnerJob owner update).agents = state.agents := by
  cases owner with
  | job id => rfl
  | agentRun id => rfl

theorem recordProjectRoot_agents (state : MaterializedState) (ns : String)
    (projectRoot : PathBuf) : (state.recordProjectRoot ns projectRoot).agents = state.agents := by
  unfold MaterializedState.recordProjectRoot
  split
  · rfl
  · rfl

theorem updateAgent_within (state : MaterializedState) (agentId : AgentId)
    (status : AgentRecordStatus) (epochMs : Nat) :
    Table.Within SameSession state.agents (state.updateAgent agentId status epochMs).agents :=
  Table.Within.modify SameSession.refl state.agents agentId fun _ => ⟨rfl, rfl⟩

/-- The other events leave the session of each record that they leave. -/
theorem indexedSession_frame (order : WalkOrder) (clock : Clock) {event : Event}
    (other : event.indexes = false) (state : MaterializedState) :
    Table.Within SameSession state.agents (state.applyEvent order clock event).agents := by
  have same : ∀ {after : MaterializedState}, after.agents = state.agents →
      Table.Within SameSession state.agents after.agents := by
    intro after same
    rw [same]
    exact Table.Within.refl SameSession.refl _
  cases event
  case jobDeleted | agentRunDeleted => exact Table.Within.filter SameSession.refl _ _
  case agentWorking agentId owner =>
    have within := updateAgent_within (state.updateOwnerJob owner fun job =>
      { job with stepStatus := .running }) agentId .running clock.epochMs
    rwa [updateOwnerJob_agents] at within
  case agentExited agentId exitCode owner =>
    have within := updateAgent_within (state.updateOwnerJob owner (Job.applyAgentExited exitCode))
      agentId .exited clock.epochMs
    rwa [updateOwnerJob_agents] at within
  case agentFailed agentId error owner =>
    have within := updateAgent_within (state.updateOwnerJob owner
      (Job.applyAgentLost error.display)) agentId .exited clock.epochMs
    rwa [updateOwnerJob_agents] at within
  case agentGone agentId owner =>
    have within := updateAgent_within (state.updateOwnerJob owner
      (Job.applyAgentLost "session terminated unexpectedly")) agentId .gone clock.epochMs
    rwa [updateOwnerJob_agents] at within
  case agentWaiting agentId _ => exact updateAgent_within state agentId .idle clock.epochMs
  case sessionCreated | sessionDeleted | agentRunStarted => cases other
  case stepStarted jobId step agentId agentName =>
    cases agentId with
    | some agentId => cases other
    | none =>
        refine same ?_
        change (state.applyStepStarted clock jobId none agentName).agents = _
        unfold MaterializedState.applyStepStarted
        split
        · rfl
        · rfl
  case agentSignal agentId kind message =>
    refine same ?_
    change (state.applyAgentSignal order agentId kind message).agents = _
    unfold MaterializedState.applyAgentSignal
    split
    · rfl
    · dsimp only
      split
      · rfl
      · split
        · rfl
        · rfl
  case commandRun jobId jobName projectRoot invokeDir ns command args =>
    exact same (recordProjectRoot_agents state ns projectRoot)
  case cronStarted cronName projectRoot runbookHash interval runTarget ns =>
    exact same (recordProjectRoot_agents state ns projectRoot)
  case workerStarted workerName projectRoot runbookHash queueName concurrency ns =>
    exact same (recordProjectRoot_agents state ns projectRoot)
  case jobAdvanced id step =>
    refine same ?_
    change (state.applyJobAdvanced clock id step).agents = _
    unfold MaterializedState.applyJobAdvanced
    split
    · rfl
    · dsimp only
      split
      · rfl
      · rfl
  case workspaceCreated id path branch owner workspaceType =>
    refine same ?_
    change (state.applyWorkspaceCreated clock id path branch owner workspaceType).agents = _
    unfold MaterializedState.applyWorkspaceCreated
    dsimp only
    split
    · rfl
    · rfl
  case decisionCreated id jobId agentId owner source context options createdAtMs ns =>
    refine same ?_
    change (state.applyDecisionCreated id jobId agentId owner source context options createdAtMs
      ns).agents = _
    unfold MaterializedState.applyDecisionCreated
    cases owner with
    | job id =>
        dsimp only [MaterializedState.updateJob]
        split
        · rfl
        · rfl
    | agentRun id =>
        dsimp only
        split
        · rfl
        · rfl
  case agentRunStatusChanged id status reason =>
    refine same ?_
    change (state.applyAgentRunStatusChanged clock id status reason).agents = _
    unfold MaterializedState.applyAgentRunStatusChanged
    dsimp only
    split
    · rfl
    · rfl
  all_goals exact same rfl

/-! ## Spawns -/

def OwnerId.started (agentId : AgentId) (agentName step : String) : OwnerId → Event
  | job id => .stepStarted id step (some agentId) (some agentName)
  | agentRun id => .agentRunStarted id agentId

def OwnerId.presentIn (state : MaterializedState) : OwnerId → Bool
  | job id => state.jobs.contains id
  | agentRun id => state.agentRuns.contains id

/-- The state, with the session that each spawned agent has. -/
structure AgentIndex where
  state : MaterializedState
  sessions : HashMap (Option String)

/-- A successful spawn announces the session, then the agent.  Events are also applied
one by one: by other handlers, and when they are read back from the log. -/
inductive IndexStep where
  | spawn (order : WalkOrder) (clock later : Clock) (owner : OwnerId) (agentId : AgentId)
      (agentName step : String) (sessionId : SessionId)
  | event (order : WalkOrder) (clock : Clock) (event : Event)

namespace AgentIndex

def sessionsAfter (sessions : HashMap (Option String)) : Event → HashMap (Option String)
  | .sessionDeleted id => sessions.map fun _ session => if session = some id then none else session
  | _ => sessions

def step (index : AgentIndex) : IndexStep → Option AgentIndex
  | .spawn order clock later owner agentId agentName step sessionId =>
      if owner.presentIn index.state then
        some {
          state := (index.state.applyEvent order clock (.sessionCreated sessionId owner)).applyEvent
            order later (owner.started agentId agentName step)
          sessions := index.sessions.insert agentId (some sessionId) }
      else none
  | .event order clock event =>
      some {
        state := index.state.applyEvent order clock event
        sessions := sessionsAfter index.sessions event }

/-- The index knows the session of each spawned agent that it has a record of. -/
def Knows (index : AgentIndex) : Prop :=
  ∀ (agentId : AgentId) (record : AgentRecord) (session : Option String),
    index.state.agents[agentId]? = some record → index.sessions[agentId]? = some session →
    record.sessionId = session

/-- Each record of a spawned agent, other than one, that belongs to the owner has a
session. -/
def OthersHave (index : AgentIndex) (owner : OwnerId) (apart : AgentId → Prop) : Prop :=
  ∀ (agentId : AgentId) (record : AgentRecord), index.state.agents[agentId]? = some record →
    index.sessions.contains agentId → record.owner = owner → ¬apart agentId →
    record.sessionId ≠ none

def InsertsNone (index : AgentIndex) (owner : OwnerId) (agentId : AgentId) : Prop :=
  owner.presentIn index.state → index.state.agents.contains agentId = false →
    ∀ sessionId, index.sessions[agentId]? ≠ some (some sessionId)

/-- A spawn finds a record of its agent, with the owner's mark and without a session (or
with this one), while no other spawned agent of the owner is without a session.  A
session that is announced again finds no spawned agent of its owner without one, and
no record is inserted for an agent that has a session. -/
def Meets (index : AgentIndex) : IndexStep → Prop
  | .spawn _ _ _ owner agentId _ _ sessionId =>
      (∃ record, index.state.agents[agentId]? = some record ∧
        (record.owner = owner ∧ record.sessionId = none ∨ record.sessionId = some sessionId)) ∧
      index.OthersHave owner (· = agentId)
  | .event _ _ (.sessionCreated _ owner) => index.OthersHave owner fun _ => False
  | .event _ _ (.stepStarted jobId _ (some agentId) _) => index.InsertsNone (.job jobId) agentId
  | .event _ _ (.agentRunStarted id agentId) => index.InsertsNone (.agentRun id) agentId
  | _ => True

variable {index next : AgentIndex}

theorem lookup_sessionCreated (order : WalkOrder) (clock : Clock) (sessionId : SessionId)
    (owner : OwnerId) (state : MaterializedState) (agentId : AgentId) :
    (state.applyEvent order clock (.sessionCreated sessionId owner)).agents[agentId]? =
      (state.agents[agentId]?).map (·.applySessionCreated owner sessionId) := by
  cases owner with
  | job id => exact Table.lookup_map state.agents _ agentId
  | agentRun id => exact Table.lookup_map state.agents _ agentId

theorem presentIn_sessionCreated (order : WalkOrder) (clock : Clock) (sessionId : SessionId)
    (owner : OwnerId) (state : MaterializedState) :
    owner.presentIn (state.applyEvent order clock (.sessionCreated sessionId owner)) =
      owner.presentIn state := by
  cases owner with
  | job id => exact Table.contains_modify state.jobs id id _
  | agentRun id => exact Table.contains_modify state.agentRuns id id _

/-- A record without a session is inserted for the agent, if its owner is there and
there is none yet. -/
def Inserts (owner : OwnerId) (agentId : AgentId) (before after : MaterializedState) : Prop :=
  ∃ new : AgentRecord, new.sessionId = none ∧ ∀ other : AgentId, after.agents[other]? =
    if owner.presentIn before = true ∧ agentId = other then
      some ((before.agents[agentId]?).getD new)
    else before.agents[other]?

theorem inserts_absent {owner : OwnerId} {agentId : AgentId} {before after : MaterializedState}
    (absent : owner.presentIn before = false) (same : after.agents = before.agents) :
    Inserts owner agentId before after := by
  refine ⟨{ (default : AgentRecord) with sessionId := none }, rfl, fun other => ?_⟩
  rw [same, if_neg]
  rintro ⟨present, _⟩
  exact absurd (absent.symm.trans present) Bool.false_ne_true

theorem inserts_present {owner : OwnerId} {agentId : AgentId} {before after : MaterializedState}
    (present : owner.presentIn before = true) {new : AgentRecord} (none : new.sessionId = none)
    (agents : after.agents = before.agents.insertIfNew agentId new) :
    Inserts owner agentId before after := by
  refine ⟨new, none, fun other => ?_⟩
  rw [agents, Table.lookup_insertIfNew]
  exact if_congr (and_iff_right present).symm rfl rfl

theorem inserts_stepStarted (order : WalkOrder) (clock : Clock) (jobId : JobId) (step : String)
    (agentId : AgentId) (agentName : Option String) (state : MaterializedState) :
    Inserts (.job jobId) agentId state
      (state.applyEvent order clock (.stepStarted jobId step (some agentId) agentName)) := by
  change Inserts _ _ _ (state.applyStepStarted clock jobId (some agentId) agentName)
  unfold MaterializedState.applyStepStarted
  cases found : state.jobs[jobId]? with
  | none =>
      refine inserts_absent ?_ rfl
      change state.jobs.contains jobId = false
      rw [Table.contains_eq_isSome, found]
      rfl
  | some job =>
      refine inserts_present ?_ rfl rfl
      change state.jobs.contains jobId = true
      rw [Table.contains_eq_isSome, found]
      rfl

theorem inserts_agentRunStarted (order : WalkOrder) (clock : Clock) (id : AgentRunId)
    (agentId : AgentId) (state : MaterializedState) :
    Inserts (.agentRun id) agentId state
      (state.applyEvent order clock (.agentRunStarted id agentId)) := by
  change Inserts _ _ _ (state.applyAgentRunStarted clock id agentId)
  unfold MaterializedState.applyAgentRunStarted
  cases found : state.agentRuns[id]? with
  | none =>
      refine inserts_absent ?_ rfl
      change state.agentRuns.contains id = false
      rw [Table.contains_eq_isSome, found]
      rfl
  | some run =>
      refine inserts_present ?_ rfl rfl
      change state.agentRuns.contains id = true
      rw [Table.contains_eq_isSome, found]
      rfl

theorem inserts_started (order : WalkOrder) (clock : Clock) (owner : OwnerId) (agentId : AgentId)
    (agentName step : String) (state : MaterializedState) :
    Inserts owner agentId state
      (state.applyEvent order clock (owner.started agentId agentName step)) := by
  cases owner with
  | job id => exact inserts_stepStarted order clock id step agentId (some agentName) state
  | agentRun id => exact inserts_agentRunStarted order clock id agentId state

/-! ## One step -/

/-- A record that is inserted without a session is right for an agent without one. -/
theorem Knows.inserts_iff (knows : index.Knows) {owner : OwnerId} {agentId : AgentId}
    {after : MaterializedState} (inserts : Inserts owner agentId index.state after) :
    Knows ⟨after, index.sessions⟩ ↔ index.InsertsNone owner agentId := by
  obtain ⟨new, none, lookup⟩ := inserts
  constructor
  · intro known present absent sessionId announced
    have missing : index.state.agents[agentId]? = Option.none := by
      rwa [Table.contains_eq_isSome, Option.isSome_eq_false_iff, Option.isNone_iff_eq_none] at absent
    have inserted := lookup agentId
    rw [if_pos ⟨present, rfl⟩, missing] at inserted
    have same := known agentId new _ inserted announced
    exact absurd (none.symm.trans same) (Option.some_ne_none sessionId).symm
  · intro insertsNone other record session found announced
    change after.agents[other]? = _ at found
    rw [lookup other] at found
    by_cases inserted : owner.presentIn index.state = true ∧ agentId = other
    · rw [if_pos inserted] at found
      obtain ⟨present, rfl⟩ := inserted
      cases before : index.state.agents[agentId]? with
      | some prior =>
          rw [before] at found
          cases found
          exact knows agentId _ session before announced
      | none =>
          rw [before] at found
          cases found
          have absent : index.state.agents.contains agentId = false := by
            rw [Table.contains_eq_isSome, before]
            rfl
          cases session with
          | none => exact none
          | some sessionId => exact absurd announced (insertsNone present absent sessionId)
    · rw [if_neg inserted] at found
      exact knows other record session found announced

theorem applySessionCreated_eq_iff {owner : OwnerId} {sessionId : SessionId} {record : AgentRecord} :
    (record.applySessionCreated owner sessionId).sessionId = record.sessionId ↔
      (record.owner = owner → record.sessionId ≠ none) := by
  unfold AgentRecord.applySessionCreated
  split
  · next takes =>
      rw [takes.2]
      exact iff_of_false (Option.some_ne_none _) fun has => has takes.1 rfl
  · next leaves =>
      refine iff_of_true rfl fun owned without => leaves ⟨owned, without⟩

/-- A session that is announced must find no spawned agent of its owner without one. -/
theorem Knows.announced_iff (knows : index.Knows) (order : WalkOrder) (clock : Clock)
    (sessionId : SessionId) (owner : OwnerId) :
    Knows ⟨index.state.applyEvent order clock (.sessionCreated sessionId owner), index.sessions⟩ ↔
      index.OthersHave owner fun _ => False := by
  constructor
  · intro known agentId record found spawned owned _
    obtain ⟨session, announced⟩ := Option.isSome_iff_exists.mp
      ((Table.contains_eq_isSome index.sessions agentId).symm.trans spawned)
    have later := lookup_sessionCreated order clock sessionId owner index.state agentId
    rw [found] at later
    have same := known agentId _ session later announced
    rw [← knows agentId record session found announced] at same
    exact applySessionCreated_eq_iff.mp same owned
  · intro others agentId record session found announced
    change (index.state.applyEvent order clock (.sessionCreated sessionId owner)).agents[agentId]? = _
      at found
    rw [lookup_sessionCreated] at found
    obtain ⟨prior, before, rfl⟩ := Option.map_eq_some_iff.mp found
    rw [← knows agentId prior session before announced]
    have spawned : index.sessions.contains agentId = true := by
      rw [Table.contains_eq_isSome, announced]
      rfl
    exact applySessionCreated_eq_iff.mpr fun owned =>
      others agentId prior before spawned owned not_false

/-- The end of a session is known to all. -/
theorem Knows.deleted (knows : index.Knows) (order : WalkOrder) (clock : Clock)
    (sessionId : SessionId) :
    Knows ⟨index.state.applyEvent order clock (.sessionDeleted sessionId),
      sessionsAfter index.sessions (.sessionDeleted sessionId)⟩ := by
  intro agentId record session found announced
  change (index.state.agents.map fun _ record => record.applySessionDeleted sessionId)[agentId]? = _
    at found
  rw [Table.lookup_map] at found
  obtain ⟨prior, before, rfl⟩ := Option.map_eq_some_iff.mp found
  change (index.sessions.map _)[agentId]? = _ at announced
  rw [Table.lookup_map] at announced
  obtain ⟨had, earlier, rfl⟩ := Option.map_eq_some_iff.mp announced
  rw [← knows agentId prior had before earlier]
  unfold AgentRecord.applySessionDeleted
  split
  · rfl
  · rfl

/-- Where no session changes and no record is added, nothing is forgotten. -/
theorem Knows.within (knows : index.Knows) {after : MaterializedState}
    (within : Table.Within SameSession index.state.agents after.agents) :
    Knows ⟨after, index.sessions⟩ := by
  intro agentId record session found announced
  obtain ⟨prior, before, same, _⟩ := within agentId record found
  rw [same]
  exact knows agentId prior session before announced

/-- A spawn is known exactly when its agent has a record without a session, or with the
new one, and no other spawned agent of the owner is without a session. -/
theorem Knows.spawned_iff (knows : index.Knows) {owner : OwnerId}
    (present : owner.presentIn index.state = true) (order : WalkOrder) (clock later : Clock)
    (agentId : AgentId) (agentName step : String) (sessionId : SessionId) :
    Knows ⟨(index.state.applyEvent order clock (.sessionCreated sessionId owner)).applyEvent order
        later (owner.started agentId agentName step),
      index.sessions.insert agentId (some sessionId)⟩ ↔
      index.Meets (.spawn order clock later owner agentId agentName step sessionId) := by
  have inserts := inserts_started order later owner agentId agentName step
    (index.state.applyEvent order clock (.sessionCreated sessionId owner))
  obtain ⟨new, without, lookup⟩ := inserts
  have there : owner.presentIn
      (index.state.applyEvent order clock (.sessionCreated sessionId owner)) = true := by
    rw [presentIn_sessionCreated, present]
  simp only [there, true_and, lookup_sessionCreated] at lookup
  constructor
  · intro known
    constructor
    · have inserted := lookup agentId
      rw [if_pos rfl] at inserted
      have announced : (index.sessions.insert agentId (some sessionId))[agentId]? =
          some (some sessionId) := by
        rw [Table.lookup_insert, if_pos rfl]
      have same := known agentId _ _ inserted announced
      cases before : index.state.agents[agentId]? with
      | none =>
          rw [before] at same
          exact absurd (without.symm.trans same) (Option.some_ne_none sessionId).symm
      | some record =>
          rw [before] at same
          refine ⟨record, rfl, ?_⟩
          change (record.applySessionCreated owner sessionId).sessionId = _ at same
          unfold AgentRecord.applySessionCreated at same
          split at same
          · next takes => exact .inl takes
          · exact .inr same
    · intro other record found spawned owned apart
      obtain ⟨session, announced⟩ := Option.isSome_iff_exists.mp
        ((Table.contains_eq_isSome index.sessions other).symm.trans spawned)
      have kept := lookup other
      rw [if_neg (Ne.symm apart), found] at kept
      have still : (index.sessions.insert agentId (some sessionId))[other]? = some session := by
        rw [Table.lookup_insert, if_neg (Ne.symm apart), announced]
      have same := known other _ session kept still
      rw [← knows other record session found announced] at same
      exact applySessionCreated_eq_iff.mp same owned
  · rintro ⟨⟨record, before, fits⟩, others⟩ other found session shown announced
    change (((index.state.applyEvent order clock _).applyEvent order later _).agents)[other]? = _
      at shown
    rw [lookup] at shown
    rw [Table.lookup_insert] at announced
    by_cases same : agentId = other
    · rw [if_pos same, before] at shown
      rw [if_pos same] at announced
      cases shown
      cases announced
      change (record.applySessionCreated owner sessionId).sessionId = _
      unfold AgentRecord.applySessionCreated
      split
      · rfl
      · next leaves => exact fits.resolve_left leaves
    · rw [if_neg same] at shown announced
      obtain ⟨prior, earlier, rfl⟩ := Option.map_eq_some_iff.mp shown
      rw [← knows other prior session earlier announced]
      have spawned : index.sessions.contains other = true := by
        rw [Table.contains_eq_isSome, announced]
        rfl
      exact applySessionCreated_eq_iff.mpr fun owned =>
        others other prior earlier spawned owned (Ne.symm same)

/-- Events that do not concern the index ask for nothing. -/
theorem meets_other (order : WalkOrder) (clock : Clock) {event : Event}
    (other : event.indexes = false) : index.Meets (.event order clock event) := by
  cases event
  case stepStarted jobId step agentId agentName =>
    cases agentId with
    | none => exact trivial
    | some agentId => cases other
  case sessionCreated | sessionDeleted | agentRunStarted => cases other
  all_goals exact trivial

/-- One step leads from an index that knows its sessions to one that does exactly when
it meets the condition. -/
theorem Knows.step_iff {action : IndexStep} (knows : index.Knows)
    (stepped : index.step action = some next) : next.Knows ↔ index.Meets action := by
  cases action with
  | spawn order clock later owner agentId agentName step sessionId =>
      obtain ⟨present, spawned⟩ := Option.ite_none_right_eq_some.mp stepped
      cases spawned
      exact knows.spawned_iff present order clock later agentId agentName step sessionId
  | event order clock event =>
      cases stepped
      cases concerns : event.indexes with
      | false =>
          refine iff_of_true ?_ (meets_other order clock concerns)
          have same : sessionsAfter index.sessions event = index.sessions := by
            cases event
            case sessionDeleted => cases concerns
            all_goals rfl
          rw [same]
          exact knows.within (indexedSession_frame order clock concerns index.state)
      | true =>
          cases event
          case sessionCreated sessionId owner => exact knows.announced_iff order clock sessionId owner
          case sessionDeleted sessionId =>
            exact iff_of_true (knows.deleted order clock sessionId) trivial
          case agentRunStarted id agentId =>
            exact knows.inserts_iff (inserts_agentRunStarted order clock id agentId index.state)
          case stepStarted jobId step agentId agentName =>
            cases agentId with
            | none => cases concerns
            | some agentId =>
                exact knows.inserts_iff
                  (inserts_stepStarted order clock jobId step agentId agentName index.state)
          all_goals cases concerns

end AgentIndex

/-- In a run from any state, the index knows the session of every agent spawned so far in
every state, if and only if every step meets the condition. -/
theorem index_known_iff (state : MaterializedState) (actions : List IndexStep) :
    Along AgentIndex.step (Leads AgentIndex.step AgentIndex.Knows) ⟨state, ∅⟩ actions ↔
      Along AgentIndex.step AgentIndex.Meets ⟨state, ∅⟩ actions := by
  have knows : AgentIndex.Knows ⟨state, ∅⟩ := by
    intro agentId record session _ announced
    change (∅ : HashMap (Option String))[agentId]? = _ at announced
    rw [Table.lookup_empty] at announced
    cases announced
  exact along_leads_iff (fun known stepped => known.step_iff stepped) knows actions

/-- A job whose agent is spawned, ends with its session, and is spawned under a new id;
the events of the first spawn have been read back from the log in between. -/
def IndexStep.respawned : List IndexStep :=
  let event := IndexStep.event .byKey default
  [event (.jobCreated "j" "build" "build" "hash" "/" ∅ "plan" 0 "" none),
    .spawn .byKey default default (.job "j") "a1" "coder" "plan" "s1",
    event (.sessionCreated "s1" (.job "j")), event (.stepStarted "j" "plan" (some "a1") (some "coder")),
    event (.sessionDeleted "s1"),
    .spawn .byKey default default (.job "j") "a2" "coder" "plan" "s2"]

/-- The record of the first agent gets the session of the second, whose own record has
none. -/
theorem respawn_mixes_sessions : ∃ last,
    runSteps AgentIndex.step ⟨{}, ∅⟩ IndexStep.respawned = some last ∧
      last.state.indexedSession "a1" = some (some "s2") ∧
      last.state.indexedSession "a2" = some none ∧ ¬last.Knows := by
  obtain ⟨last, ran⟩ : ∃ last,
      runSteps AgentIndex.step ⟨{}, ∅⟩ IndexStep.respawned = some last := ⟨_, rfl⟩
  have first : last.state.indexedSession "a1" = some (some "s2") := by
    cases ran
    decide +kernel
  have second : last.state.indexedSession "a2" = some none := by
    cases ran
    decide +kernel
  have announced : last.sessions["a1"]? = some none := by
    cases ran
    decide +kernel
  refine ⟨last, ran, first, second, ?_⟩
  intro known
  obtain ⟨record, found, session⟩ := Option.map_eq_some_iff.mp first
  have same := known "a1" record none found announced
  exact absurd (session.symm.trans same) (by decide)

end OddJobs
