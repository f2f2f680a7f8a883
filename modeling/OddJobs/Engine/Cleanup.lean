import OddJobs.Engine.Runs

/-!
# Deleted jobs

The cleanup after a job has been deleted.  The event is applied before its handler
runs, so the handler does not find the record of the job; it may find the one of
another job whose id starts with this id.
-/

namespace OddJobs

open Library

namespace Timer

def idleGrace (jobId : JobId) : TimerId := "idle-grace:" ++ jobId

def cooldown (jobId : JobId) (trigger : String) (chainPos : Nat) : TimerId :=
  "cooldown:" ++ jobId ++ ":" ++ trigger ++ ":" ++ toString chainPos

inductive OfJob (jobId : JobId) : TimerId → Prop where
  | liveness : OfJob jobId (liveness jobId)
  | exitDeferred : OfJob jobId (exitDeferred jobId)
  | idleGrace : OfJob jobId (idleGrace jobId)
  | cooldown (trigger : String) (chainPos : Nat) : OfJob jobId (cooldown jobId trigger chainPos)

def startsCooldown (jobId : JobId) (timer : TimerId) : Bool :=
  ("cooldown:" ++ jobId).toList.isPrefixOf timer.toList

def without (jobId : JobId) (timers : HashMap Nat) : HashMap Nat :=
  let others := ((timers.erase (liveness jobId)).erase (exitDeferred jobId)).erase (idleGrace jobId)
  others.filter fun timer _ => !startsCooldown jobId timer

theorem cooldown_starts (jobId : JobId) (trigger : String) (chainPos : Nat) :
    startsCooldown jobId (cooldown jobId trigger chainPos) = true := by
  have split : (cooldown jobId trigger chainPos).toList =
      ("cooldown:" ++ jobId).toList ++ (":" ++ trigger ++ ":" ++ toString chainPos).toList := by
    change ("cooldown:" ++ jobId ++ ":" ++ trigger ++ ":" ++ toString chainPos).toList = _
    simp only [String.toList_append, List.append_assoc]
  rw [startsCooldown, split, List.isPrefixOf_iff_prefix]
  exact List.prefix_append _ _

end Timer

def Job.agentIds (job : Job) : List AgentId := job.stepHistory.filterMap (·.agentId)

namespace Handler

variable (outside : Outside)

def cancelJobTimers (jobId : JobId) : Handler Unit :=
  Program.modify fun runtime => { runtime with world := { runtime.world with
    timers := Timer.without jobId runtime.world.timers } }

def tryEffect (effect : Effect) : Handler Unit := do
  let _ ← @Program.attempt _ _ _ RuntimeError (execute outside effect)
  pure ()

def handleJobDeleted (jobId : JobId) : Handler (List Event) := do
  let job ← readState (·.getJob jobId)
  cancelJobTimers jobId
  match job with
  | none => pure []
  | some job => do
      -- the mappings first, so that late reports of the agents are stale
      Program.forEach deregisterAgent job.agentIds
      Program.forEach (fun agentId => tryEffect outside (.killAgent agentId)) job.agentIds
      Program.forEach (tryEffect outside) (Steps.sessionEffects job)
      let cleanup ← workspaceCleanupEffects outside job
      Program.forEach (tryEffect outside) cleanup
      pure []

end Handler

def OtherHandlers.withCleanup (outside : Outside) (others : OtherHandlers) : OtherHandlers :=
  { others with event := fun event =>
      match event with
      | .jobDeleted id => Handler.handleJobDeleted outside id
      | event => others.event event }

def MaterializedState.cleanupTarget (order : WalkOrder) (state : MaterializedState) (job : Job) :
    Option WorkspaceId :=
  let owned := (Table.findKey? order state.workspaces fun workspace =>
    workspace.owner == some (.job job.id)).bind fun key => (state.workspaces[key]?).map (·.id)
  (job.workspaceId.or owned).filter state.workspaces.contains

def MaterializedState.sessionClosed (state : MaterializedState) (job : Job) : MaterializedState :=
  match job.sessionId with
  | some sessionId => state.applySessionDeleted sessionId
  | none => state

def MaterializedState.workspaceRemoved (state : MaterializedState) (removed : Except String Unit)
    (workspaceId : WorkspaceId) : MaterializedState :=
  let cleaning := state.updateWorkspace workspaceId .cleaning
  match removed with
  | .ok () => { cleaning with workspaces := cleaning.workspaces.erase workspaceId }
  | .error _ => cleaning

theorem sessionClosed_cleanupTarget (order : WalkOrder) (state : MaterializedState) (job : Job) :
    (state.sessionClosed job).cleanupTarget order job = state.cleanupTarget order job := by
  unfold MaterializedState.sessionClosed
  cases job.sessionId with
  | none => rfl
  | some sessionId => rfl

theorem cleanupTarget_present {order : WalkOrder} {state : MaterializedState} {job : Job}
    {workspaceId : WorkspaceId} (target : state.cleanupTarget order job = some workspaceId) :
    state.workspaces.contains workspaceId = true := (Option.filter_eq_some_iff.mp target).2

def MaterializedState.cleanedUp (order : WalkOrder) (removed : Except String Unit) (job : Job)
    (state : MaterializedState) : MaterializedState :=
  match state.cleanupTarget order job with
  | none => state.sessionClosed job
  | some workspaceId => (state.sessionClosed job).workspaceRemoved removed workspaceId

namespace Handler

variable (outside : Outside)

theorem deregisterAgents_run (agentIds : List AgentId) (runtime : Runtime) :
    Program.forEach deregisterAgent agentIds runtime = (.ok (), { runtime with
      agentOwners := agentIds.foldl (fun owners agentId => owners.erase agentId)
        runtime.agentOwners }) := by
  induction agentIds generalizing runtime with
  | nil => rfl
  | cons agentId rest ih => exact ih _

theorem tryEffect_run (effect : Effect) (runtime : Runtime) :
    tryEffect outside effect runtime = (.ok (), (execute outside effect runtime).2) := by
  unfold tryEffect
  rw [Program.run_bind]
  unfold Program.attempt
  cases execute outside effect runtime with
  | mk result after => rfl

theorem tryEffect_killAgent (agentId : AgentId) (runtime : Runtime) :
    tryEffect outside (.killAgent agentId) runtime =
      (.ok (), { runtime with world := { runtime.world with
        requests := runtime.world.requests ++ [.killAgent agentId]
        replies := fun n => runtime.world.replies (n + 1) } }) := by
  rw [tryEffect_run]
  congr 1
  unfold execute carryOut Executor.execute
  rw [Program.run_bind]
  dsimp only [Exec.nextReply]
  rw [Executor.executeInner, Program.run_bind]
  dsimp only [Exec.request, Program.modify]
  cases (runtime.world.replies 0).delivered with
  | ok done => rfl
  | error error => rfl

theorem killAgents_run (agentIds : List AgentId) (runtime : Runtime) :
    Program.forEach (fun agentId => tryEffect outside (.killAgent agentId)) agentIds runtime =
      (.ok (), { runtime with world := { runtime.world with
        requests := runtime.world.requests ++ agentIds.map .killAgent
        replies := fun n => runtime.world.replies (n + agentIds.length) } }) := by
  induction agentIds generalizing runtime with
  | nil => simp [Program.forEach, Program.pure]
  | cons agentId rest ih =>
      refine (Program.bind_ok (tryEffect_killAgent outside agentId runtime)).trans ?_
      refine (ih _).trans ?_
      simp only [List.append_assoc, List.map_cons, List.singleton_append, List.length_cons,
        Nat.add_assoc]

/-- Owners, timers and kills are as before. -/
structure Beside (before after : Runtime) : Prop where
  owners : after.agentOwners = before.agentOwners
  timers : after.world.timers = before.world.timers
  kills : ∀ agentId : AgentId, Request.killAgent agentId ∈ after.world.requests ↔
    Request.killAgent agentId ∈ before.world.requests

theorem tryEffect_killSession (sessionId : SessionId) (runtime : Runtime) :
    tryEffect outside (.killSession sessionId) runtime =
      (.ok (), { runtime with world := { runtime.world with
        requests := runtime.world.requests ++ [.killSession sessionId]
        replies := fun n => runtime.world.replies (n + 1) } }) := by
  rw [tryEffect_run]
  congr 1
  unfold execute carryOut Executor.execute
  rw [Program.run_bind]
  dsimp only [Exec.nextReply]
  rw [Executor.executeInner, Program.run_bind]
  dsimp only [Exec.request, Program.modify]
  cases (runtime.world.replies 0).delivered with
  | ok done => rfl
  | error error => rfl

theorem closeSession_run (job : Job) (runtime : Runtime) : ∃ after,
    Program.forEach (tryEffect outside) (Steps.sessionEffects job) runtime = (.ok (), after) ∧
      Beside runtime after ∧
      after.world.state = runtime.world.state.sessionClosed job ∧
      ∀ n, after.world.replies n =
        runtime.world.replies (n + (Steps.sessionEffects job).length) := by
  unfold Steps.sessionEffects MaterializedState.sessionClosed
  cases job.sessionId with
  | none => exact ⟨runtime, rfl, ⟨rfl, rfl, fun _ => Iff.rfl⟩, rfl, fun _ => rfl⟩
  | some sessionId =>
      have killed := tryEffect_killSession outside sessionId runtime
      refine ⟨_, (Program.bind_ok killed).trans rfl, ⟨rfl, rfl, fun agentId => ?_⟩, rfl, fun _ => rfl⟩
      change _ ∈ runtime.world.requests ++ [.killSession sessionId] ↔ _
      simp

theorem workspaceCleanupEffects_run (job : Job) (runtime : Runtime) :
    workspaceCleanupEffects outside job runtime =
      (.ok ((runtime.world.state.cleanupTarget outside.order job).toList.map .deleteWorkspace),
        runtime) := by
  unfold workspaceCleanupEffects MaterializedState.cleanupTarget
  rw [Program.run_bind]
  simp only [readState, Program.run_read]
  cases job.workspaceId.or ((Table.findKey? outside.order runtime.world.state.workspaces
    fun workspace => workspace.owner == some (.job job.id)).bind fun key =>
      (runtime.world.state.workspaces[key]?).map (·.id)) with
  | none => rfl
  | some workspaceId =>
      rw [Option.filter]
      cases present : runtime.world.state.workspaces.contains workspaceId <;>
        simp [Program.run_bind, present]

theorem tryEffect_deleteWorkspace {workspaceId : WorkspaceId} {runtime : Runtime}
    (present : runtime.world.state.workspaces.contains workspaceId = true) : ∃ after,
    tryEffect outside (.deleteWorkspace workspaceId) runtime = (.ok (), after) ∧
      Beside runtime after ∧ after.world.state =
        runtime.world.state.workspaceRemoved (runtime.world.replies 0).removed workspaceId := by
  rw [tryEffect_run]
  obtain ⟨workspace, found⟩ : ∃ workspace : Workspace,
      runtime.world.state.workspaces[workspaceId]? = some workspace := by
    rw [Table.contains_eq_isSome] at present
    exact Option.isSome_iff_exists.mp present
  have ran : ∃ after, (execute outside (.deleteWorkspace workspaceId) runtime).2 = after ∧
      Beside runtime after ∧ after.world.state =
        runtime.world.state.workspaceRemoved (runtime.world.replies 0).removed workspaceId := by
    unfold execute carryOut Executor.execute
    rw [Program.run_bind]
    dsimp only [Exec.nextReply]
    rw [Executor.executeInner, Executor.deleteWorkspace, Program.run_bind]
    simp only [Program.run_read, found]
    rw [Program.run_bind]
    simp only [Program.run_modify]
    rw [Program.run_bind]
    unfold MaterializedState.workspaceRemoved
    cases (runtime.world.replies 0).removed with
    | ok done => exact ⟨_, rfl, ⟨rfl, rfl, fun _ => Iff.rfl⟩, rfl⟩
    | error error => exact ⟨_, rfl, ⟨rfl, rfl, fun _ => Iff.rfl⟩, rfl⟩
  obtain ⟨after, ended, beside, state⟩ := ran
  exact ⟨after, by rw [ended], beside, state⟩

/-- What is done for the job that is found. -/
theorem handleJobDeleted_found {jobId : JobId} {job : Job} (runtime : Runtime)
    (found : runtime.world.state.getJob jobId = some job) : ∃ after,
    handleJobDeleted outside jobId runtime = (.ok [], after) ∧
      after.agentOwners = job.agentIds.foldl (fun owners agentId => owners.erase agentId)
        runtime.agentOwners ∧
      after.world.timers = (cancelJobTimers jobId runtime).2.world.timers ∧
      (∀ agentId : AgentId, Request.killAgent agentId ∈ after.world.requests ↔
        Request.killAgent agentId ∈ runtime.world.requests ∨ agentId ∈ job.agentIds) ∧
      after.world.state = runtime.world.state.cleanedUp outside.order
        (runtime.world.replies ((Steps.sessionEffects job).length + job.agentIds.length)).removed
        job := by
  unfold handleJobDeleted
  rw [Program.run_bind]
  simp only [readState, Program.run_read, found]
  have idle : cancelJobTimers jobId runtime = (.ok (), { runtime with world := { runtime.world with
      timers := Timer.without jobId runtime.world.timers } }) := rfl
  rw [Program.bind_ok idle]
  dsimp only
  rw [Program.bind_ok (deregisterAgents_run job.agentIds _),
    Program.bind_ok (killAgents_run outside job.agentIds _)]
  obtain ⟨closed, closes, calm, state, replies⟩ := closeSession_run outside job
    { runtime with
      agentOwners := job.agentIds.foldl (fun owners agentId => owners.erase agentId)
        runtime.agentOwners
      world := { runtime.world with
        timers := Timer.without jobId runtime.world.timers
        requests := runtime.world.requests ++ job.agentIds.map .killAgent
        replies := fun n => runtime.world.replies (n + job.agentIds.length) } }
  have kills : ∀ agentId : AgentId, Request.killAgent agentId ∈ closed.world.requests ↔
      Request.killAgent agentId ∈ runtime.world.requests ∨ agentId ∈ job.agentIds := by
    intro agentId
    rw [calm.kills]
    simp
  have target : closed.world.state.cleanupTarget outside.order job =
      runtime.world.state.cleanupTarget outside.order job := by
    rw [state]
    exact sessionClosed_cleanupTarget outside.order _ job
  rw [Program.bind_ok closes, Program.bind_ok (workspaceCleanupEffects_run outside job closed), target]
  unfold MaterializedState.cleanedUp
  cases targeted : runtime.world.state.cleanupTarget outside.order job with
  | none => exact ⟨closed, rfl, calm.owners, calm.timers, kills, state⟩
  | some workspaceId =>
      obtain ⟨after, removes, still, left⟩ := tryEffect_deleteWorkspace outside
        (cleanupTarget_present (target.trans targeted))
      have all : Program.forEach (tryEffect outside) [.deleteWorkspace workspaceId] closed =
          (.ok (), after) := (Program.bind_ok removes).trans rfl
      have reply : closed.world.replies 0 =
          runtime.world.replies ((Steps.sessionEffects job).length + job.agentIds.length) := by
        rw [replies, Nat.zero_add]
      refine ⟨after, Program.bind_ok all, still.owners.trans calm.owners,
        still.timers.trans calm.timers, fun agentId => (still.kills agentId).trans (kills agentId),
        ?_⟩
      rw [left, state, reply]

theorem handleJobDeleted_alone {jobId : JobId} (runtime : Runtime)
    (missing : runtime.world.state.getJob jobId = none) :
    handleJobDeleted outside jobId runtime = (.ok [], { runtime with world := { runtime.world with
      timers := Timer.without jobId runtime.world.timers } }) := by
  unfold handleJobDeleted
  rw [Program.run_bind]
  simp only [readState, Program.run_read, missing]
  rfl

end Handler

/-! ## What the cleanup does -/

def MaterializedState.standIn (state : MaterializedState) (jobId : JobId) : Option Job :=
  ({ state with jobs := state.jobs.erase jobId } : MaterializedState).getJob jobId

theorem standIn_kept {state : MaterializedState} {jobId : JobId} {other : Job}
    (found : state.standIn jobId = some other) :
    ∃ key : JobId, key ≠ jobId ∧ state.jobs[key]? = some other := by
  unfold MaterializedState.standIn MaterializedState.getJob at found
  dsimp only at found
  rw [Table.lookup_erase, if_pos rfl] at found
  dsimp only at found
  split at found
  · rename_i entry single
    cases found
    have member : entry ∈ (state.jobs.erase jobId).toList :=
      List.mem_of_mem_filter (single ▸ List.mem_singleton_self entry)
    have stored := Std.ExtTreeMap.mem_toList_iff_getElem?_eq_some.mp member
    rw [Table.lookup_erase] at stored
    by_cases same : jobId = entry.1
    · rw [if_pos same] at stored
      cases stored
    · rw [if_neg same] at stored
      exact ⟨entry.1, fun other => same other.symm, stored⟩
  · cases found

/-- What is found after the cleanup, by the job that stood in. -/
structure CleanedFor (order : WalkOrder) (jobId : JobId) (before after : Runtime) : Prop where
  timers : after.world.timers = Timer.without jobId before.world.timers
  workers : after.world.state.workers = before.world.state.workers
  forgotten : ∀ other, before.world.state.standIn jobId = some other →
    ∀ agentId ∈ other.agentIds, after.agentOwners[agentId]? = none
  remembered : ∀ agentId : AgentId,
    (∀ other, before.world.state.standIn jobId = some other → agentId ∉ other.agentIds) →
      after.agentOwners[agentId]? = before.agentOwners[agentId]?
  kills : ∀ agentId : AgentId, Request.killAgent agentId ∈ after.world.requests ↔
    Request.killAgent agentId ∈ before.world.requests ∨
      ∃ other, before.world.state.standIn jobId = some other ∧ agentId ∈ other.agentIds
  closed : ∀ other, before.world.state.standIn jobId = some other → other.sessionId ≠ none →
    ∃ key : JobId, key ≠ jobId ∧
      after.world.state.jobs[key]? ≠ before.world.state.jobs[key]?
  open_ : (∀ other, before.world.state.standIn jobId = some other → other.sessionId = none) →
    after.world.state.sessions = before.world.state.sessions ∧
      after.world.state.jobs = before.world.state.jobs.erase jobId
  kept : ∀ workspaceId : WorkspaceId,
    (∀ other, before.world.state.standIn jobId = some other →
      before.world.state.cleanupTarget order other ≠ some workspaceId) →
      after.world.state.workspaces[workspaceId]? = before.world.state.workspaces[workspaceId]?
  removed : ∀ other workspaceId, before.world.state.standIn jobId = some other →
    other.sessionId = none → before.world.state.cleanupTarget order other = some workspaceId →
      after.world.state.workspaces[workspaceId]? = (before.world.state.workspaceRemoved
        (before.world.replies other.agentIds.length).removed workspaceId).workspaces[workspaceId]?

section CleanedUp

variable {order : WalkOrder} {state : MaterializedState} {removed : Except String Unit} {job : Job}

theorem sessionClosed_none (calm : job.sessionId = none) : state.sessionClosed job = state := by
  rw [MaterializedState.sessionClosed, calm]

theorem sessionClosed_job (state : MaterializedState) {sessionId : SessionId} {key : JobId}
    (session : job.sessionId = some sessionId) (stored : state.jobs[key]? = some job) :
    (state.sessionClosed job).jobs[key]? = some { job with sessionId := none } := by
  rw [MaterializedState.sessionClosed, session]
  dsimp only [MaterializedState.applySessionDeleted]
  rw [Table.lookup_map, stored, Option.map_some, if_pos session]

theorem cleanedUp_workers : (state.cleanedUp order removed job).workers = state.workers := by
  have closed : (state.sessionClosed job).workers = state.workers := by
    unfold MaterializedState.sessionClosed
    cases job.sessionId <;> rfl
  unfold MaterializedState.cleanedUp MaterializedState.workspaceRemoved
  cases state.cleanupTarget order job with
  | none => exact closed
  | some workspaceId => cases removed <;> exact closed

theorem cleanedUp_jobs : (state.cleanedUp order removed job).jobs = (state.sessionClosed job).jobs := by
  unfold MaterializedState.cleanedUp MaterializedState.workspaceRemoved
  cases state.cleanupTarget order job with
  | none => rfl
  | some workspaceId => cases removed <;> rfl

theorem cleanedUp_sessions :
    (state.cleanedUp order removed job).sessions = (state.sessionClosed job).sessions := by
  unfold MaterializedState.cleanedUp MaterializedState.workspaceRemoved
  cases state.cleanupTarget order job with
  | none => rfl
  | some workspaceId => cases removed <;> rfl

theorem sessionClosed_workspaces : (state.sessionClosed job).workspaces = state.workspaces := by
  unfold MaterializedState.sessionClosed
  cases job.sessionId <;> rfl

/-- What becomes of a workspace whose directory is removed, or not. -/
theorem workspaceRemoved_lookup (workspaceId other : WorkspaceId) :
    (state.workspaceRemoved removed workspaceId).workspaces[other]? =
      if workspaceId = other then
        (if removed = .ok () then none
          else (state.workspaces[other]?).map fun workspace => { workspace with status := .cleaning })
      else state.workspaces[other]? := by
  unfold MaterializedState.workspaceRemoved MaterializedState.updateWorkspace
  cases removed with
  | ok done =>
      dsimp only
      rw [Table.lookup_erase, Table.lookup_modify]
      by_cases same : workspaceId = other
      · rw [if_pos same, if_pos same, if_pos rfl]
      · rw [if_neg same, if_neg same, if_neg same]
  | error error =>
      dsimp only
      rw [Table.lookup_modify]
      by_cases same : workspaceId = other
      · rw [if_pos same, if_pos same, if_neg nofun]
      · rw [if_neg same, if_neg same]

theorem cleanedUp_workspace_kept {workspaceId : WorkspaceId}
    (spared : state.cleanupTarget order job ≠ some workspaceId) :
    (state.cleanedUp order removed job).workspaces[workspaceId]? = state.workspaces[workspaceId]? := by
  unfold MaterializedState.cleanedUp
  cases target : state.cleanupTarget order job with
  | none =>
      dsimp only
      rw [sessionClosed_workspaces]
  | some other =>
      dsimp only
      rw [workspaceRemoved_lookup, if_neg fun same => spared (target.trans (congrArg some same)),
        sessionClosed_workspaces]

theorem cleanedUp_workspace_removed {workspaceId : WorkspaceId} (calm : job.sessionId = none)
    (target : state.cleanupTarget order job = some workspaceId) :
    (state.cleanedUp order removed job).workspaces[workspaceId]? =
      (state.workspaceRemoved removed workspaceId).workspaces[workspaceId]? := by
  unfold MaterializedState.cleanedUp
  rw [target, sessionClosed_none calm]

end CleanedUp

section CleanedFor

variable (outside : Outside) (others : OtherHandlers) {jobId : JobId} {before : Runtime}

theorem jobDeleted_alone (alone : before.world.state.standIn jobId = none) :
    CleanedFor outside.order jobId before
      (Handler.processEvent outside (others.withCleanup outside) (.jobDeleted jobId) before).2 := by
  have ran : Handler.processEvent outside (others.withCleanup outside) (.jobDeleted jobId) before =
      _ := Handler.handleJobDeleted_alone outside (before.applying outside.order (.jobDeleted jobId)) alone
  rw [ran]
  have nobody : ∀ other, before.world.state.standIn jobId ≠ some other := fun other found =>
    nomatch alone.symm.trans found
  exact {
    timers := rfl
    workers := rfl
    forgotten := fun other found => absurd found (nobody other)
    remembered := fun _ _ => rfl
    kills := fun _ => ⟨.inl, fun killed => killed.elim id fun ⟨other, found, _⟩ =>
      absurd found (nobody other)⟩
    closed := fun other found => absurd found (nobody other)
    open_ := fun _ => ⟨rfl, rfl⟩
    kept := fun _ _ => rfl
    removed := fun other _ found => absurd found (nobody other) }

theorem jobDeleted_found {other : Job} (found : before.world.state.standIn jobId = some other) :
    CleanedFor outside.order jobId before
      (Handler.processEvent outside (others.withCleanup outside) (.jobDeleted jobId) before).2 := by
  obtain ⟨after, ran, owners, timers, kills, state⟩ := Handler.handleJobDeleted_found outside
    (before.applying outside.order (.jobDeleted jobId)) found
  have ended : Handler.processEvent outside (others.withCleanup outside) (.jobDeleted jobId)
      before = (.ok [], after) := ran
  rw [ended]
  have only : ∀ {job : Job}, before.world.state.standIn jobId = some job → job = other :=
    fun stands => Option.some.inj (stands.symm.trans found)
  exact {
    timers := timers
    workers := by rw [state, cleanedUp_workers]; rfl
    forgotten := by
      intro job stands agentId member
      rw [only stands] at member
      rw [owners, Table.lookup_foldl_erase, if_pos member]
    remembered := by
      intro agentId stranger
      rw [owners, Table.lookup_foldl_erase, if_neg (stranger other found)]
      rfl
    kills := by
      intro agentId
      rw [kills]
      constructor
      · rintro (killed | member)
        · exact .inl killed
        · exact .inr ⟨other, found, member⟩
      · rintro (killed | ⟨job, stands, member⟩)
        · exact .inl killed
        · rw [only stands] at member
          exact .inr member
    closed := by
      intro job stands session
      rw [only stands] at session
      obtain ⟨key, differs, stored⟩ := standIn_kept found
      have left := (Table.lookup_erase before.world.state.jobs jobId key).trans
        (if_neg differs.symm)
      refine ⟨key, differs, ?_⟩
      rw [state, cleanedUp_jobs, stored]
      obtain ⟨sessionId, set⟩ := Option.ne_none_iff_exists'.mp session
      have closes := sessionClosed_job (before.applying outside.order (.jobDeleted jobId)).world.state
        set (left.trans stored)
      rw [closes]
      intro same
      have cleared := congrArg Job.sessionId (Option.some.inj same)
      rw [set] at cleared
      cases cleared
    open_ := by
      intro calm
      rw [state, cleanedUp_jobs, cleanedUp_sessions, sessionClosed_none (calm other found)]
      exact ⟨rfl, rfl⟩
    kept := by
      intro workspaceId spared
      rw [state]
      exact cleanedUp_workspace_kept (spared other found)
    removed := by
      intro job workspaceId stands calm target
      cases only stands
      have quiet : (Steps.sessionEffects other).length + other.agentIds.length =
          other.agentIds.length := by
        rw [Steps.sessionEffects, calm]
        exact Nat.zero_add _
      have aimed : (before.applying outside.order (.jobDeleted jobId)).world.state.cleanupTarget
          outside.order other = some workspaceId := target
      rw [state, quiet, cleanedUp_workspace_removed calm aimed]
      rw [workspaceRemoved_lookup, workspaceRemoved_lookup]
      rfl }

end CleanedFor

/-! ## What must be released -/

def MaterializedState.HasWorkspace (state : MaterializedState) (jobId : JobId) (job : Job)
    (workspaceId : WorkspaceId) : Prop :=
  job.workspaceId = some workspaceId ∨ ∃ workspace : Workspace,
    state.workspaces[workspaceId]? = some workspace ∧ workspace.owner = some (.job jobId)

/-- Everything that a deleted job owned is released, and nothing else. -/
structure ReleasesOnly (jobId : JobId) (job : Job) (before after : Runtime) : Prop where
  timers : ∀ timer : TimerId, Timer.OfJob jobId timer → after.world.timers[timer]? = none
  agents : ∀ agentId ∈ job.agentIds, after.agentOwners[agentId]? = none ∧
    Request.killAgent agentId ∈ after.world.requests
  session : ∀ sessionId : SessionId, job.sessionId = some sessionId →
    after.world.state.sessions[sessionId]? = none
  workspaces : ∀ workspaceId : WorkspaceId,
    before.world.state.HasWorkspace jobId job workspaceId →
      after.world.state.workspaces[workspaceId]? = none
  workers : ∀ (key : String) (record : WorkerRecord),
    after.world.state.workers[key]? = some record → jobId ∉ record.activeJobIds
  otherTimers : ∀ timer : TimerId, ¬Timer.OfJob jobId timer →
    after.world.timers[timer]? = before.world.timers[timer]?
  otherAgents : ∀ agentId : AgentId, agentId ∉ job.agentIds →
    after.agentOwners[agentId]? = before.agentOwners[agentId]?
  otherSessions : ∀ sessionId : SessionId, job.sessionId ≠ some sessionId →
    after.world.state.sessions[sessionId]? = before.world.state.sessions[sessionId]?
  otherWorkspaces : ∀ workspaceId : WorkspaceId,
    ¬before.world.state.HasWorkspace jobId job workspaceId →
      after.world.state.workspaces[workspaceId]? = before.world.state.workspaces[workspaceId]?
  otherJobs : ∀ other : JobId, other ≠ jobId →
    after.world.state.jobs[other]? = before.world.state.jobs[other]?

/-- Nothing is left of a job when it is deleted, and neither a timer nor a job whose
name starts like it is in the way. -/
structure NothingLeft (order : WalkOrder) (jobId : JobId) (job : Job) (before : Runtime) : Prop where
  /-- No cooldown timer of another owner starts with the id. -/
  cooldowns : ∀ timer : TimerId, Timer.startsCooldown jobId timer = true →
    ¬Timer.OfJob jobId timer → before.world.timers[timer]? = none
  workers : ∀ (key : String) (record : WorkerRecord),
    before.world.state.workers[key]? = some record → jobId ∉ record.activeJobIds
  session : ∀ sessionId : SessionId, job.sessionId = some sessionId →
    before.world.state.sessions[sessionId]? = none
  agents : ∀ agentId ∈ job.agentIds,
    (∃ other, before.world.state.standIn jobId = some other ∧ agentId ∈ other.agentIds) ∨
      (before.agentOwners[agentId]? = none ∧
        Request.killAgent agentId ∈ before.world.requests)
  workspaces : ∀ workspaceId : WorkspaceId,
    before.world.state.HasWorkspace jobId job workspaceId →
      before.world.state.workspaces[workspaceId]? = none ∨
        ∃ other, before.world.state.standIn jobId = some other ∧
          before.world.state.cleanupTarget order other = some workspaceId
  /-- A single other job whose id starts with this id has no session ... -/
  standInSession : ∀ other, before.world.state.standIn jobId = some other → other.sessionId = none
  /-- ... no registered agents of its own ... -/
  standInAgents : ∀ other, before.world.state.standIn jobId = some other →
    ∀ agentId ∈ other.agentIds, agentId ∉ job.agentIds → before.agentOwners[agentId]? = none
  /-- ... and no workspace, unless it is the one to be deleted. -/
  standInWorkspace : ∀ other workspaceId, before.world.state.standIn jobId = some other →
    before.world.state.cleanupTarget order other = some workspaceId →
      (before.world.state.HasWorkspace jobId job workspaceId ∧
          (before.world.replies other.agentIds.length).removed = .ok ()) ∨
        (¬before.world.state.HasWorkspace jobId job workspaceId ∧
          (before.world.replies other.agentIds.length).removed ≠ .ok () ∧
          ∃ workspace : Workspace, before.world.state.workspaces[workspaceId]? = some workspace ∧
            workspace.status = .cleaning)

section Released

variable {order : WalkOrder} {jobId : JobId} {job : Job} {before after : Runtime}

theorem Timer.lookup_without (timers : HashMap Nat) (timer : TimerId) :
    (Timer.without jobId timers)[timer]? =
      if timer = Timer.liveness jobId ∨ timer = Timer.exitDeferred jobId ∨
          timer = Timer.idleGrace jobId ∨ Timer.startsCooldown jobId timer = true then none
      else timers[timer]? := by
  unfold Timer.without
  rw [Table.lookup_filter, Table.lookup_erase, Table.lookup_erase, Table.lookup_erase]
  by_cases grace : Timer.idleGrace jobId = timer
  · simp [grace]
  by_cases deferred : Timer.exitDeferred jobId = timer
  · simp [deferred]
  by_cases alive : Timer.liveness jobId = timer
  · simp [alive]
  rw [if_neg grace, if_neg deferred, if_neg alive]
  by_cases cooling : Timer.startsCooldown jobId timer = true
  · rw [if_pos (.inr (.inr (.inr cooling)))]
    cases timers[timer]? <;> simp [cooling]
  · rw [if_neg fun own => own.elim (fun same => alive same.symm) fun own =>
      own.elim (fun same => deferred same.symm) fun own =>
        own.elim (fun same => grace same.symm) cooling]
    cases timers[timer]? <;> simp [cooling]

theorem Timer.without_own (timers : HashMap Nat) {timer : TimerId} (own : Timer.OfJob jobId timer) :
    (Timer.without jobId timers)[timer]? = none := by
  rw [Timer.lookup_without, if_pos]
  cases own with
  | liveness => exact .inl rfl
  | exitDeferred => exact .inr (.inl rfl)
  | idleGrace => exact .inr (.inr (.inl rfl))
  | cooldown trigger chainPos =>
      exact .inr (.inr (.inr (Timer.cooldown_starts jobId trigger chainPos)))

theorem Timer.without_other (timers : HashMap Nat) {timer : TimerId}
    (other : ¬Timer.OfJob jobId timer) : (Timer.without jobId timers)[timer]? =
      if Timer.startsCooldown jobId timer = true then none else timers[timer]? := by
  rw [Timer.lookup_without]
  by_cases cooling : Timer.startsCooldown jobId timer = true
  · rw [if_pos cooling, if_pos (.inr (.inr (.inr cooling)))]
  · rw [if_neg cooling, if_neg]
    rintro (rfl | rfl | rfl | cools)
    · exact other .liveness
    · exact other .exitDeferred
    · exact other .idleGrace
    · exact cooling cools

theorem CleanedFor.releasesOnly (cleaned : CleanedFor order jobId before after)
    (left : NothingLeft order jobId job before) : ReleasesOnly jobId job before after := by
  obtain ⟨sessions, jobs⟩ := cleaned.open_ left.standInSession
  exact {
    timers := by
      intro timer own
      rw [cleaned.timers, Timer.without_own _ own]
    agents := by
      intro agentId member
      rcases left.agents agentId member with ⟨other, stands, theirs⟩ | ⟨forgotten, killed⟩
      · exact ⟨cleaned.forgotten other stands agentId theirs,
          (cleaned.kills agentId).mpr (.inr ⟨other, stands, theirs⟩)⟩
      · refine ⟨?_, (cleaned.kills agentId).mpr (.inl killed)⟩
        by_cases theirs : ∃ other, before.world.state.standIn jobId = some other ∧
            agentId ∈ other.agentIds
        · obtain ⟨other, stands, member⟩ := theirs
          exact cleaned.forgotten other stands agentId member
        · rw [cleaned.remembered agentId fun other stands member =>
            theirs ⟨other, stands, member⟩]
          exact forgotten
    session := by
      intro sessionId session
      rw [sessions]
      exact left.session sessionId session
    workspaces := by
      intro workspaceId has
      by_cases aimed : ∃ other, before.world.state.standIn jobId = some other ∧
          before.world.state.cleanupTarget order other = some workspaceId
      · obtain ⟨other, stands, target⟩ := aimed
        rcases left.standInWorkspace other workspaceId stands target with ⟨_, gone⟩ | ⟨hasNot, _⟩
        · rw [cleaned.removed other workspaceId stands (left.standInSession other stands) target,
            workspaceRemoved_lookup, if_pos rfl, if_pos gone]
        · exact absurd has hasNot
      · rw [cleaned.kept workspaceId fun other stands target => aimed ⟨other, stands, target⟩]
        exact (left.workspaces workspaceId has).resolve_right aimed
    workers := by
      intro key record found
      rw [cleaned.workers] at found
      exact left.workers key record found
    otherTimers := by
      intro timer other
      rw [cleaned.timers, Timer.without_other _ other]
      split
      · exact (left.cooldowns timer ‹_› other).symm
      · rfl
    otherAgents := by
      intro agentId stranger
      by_cases theirs : ∃ other, before.world.state.standIn jobId = some other ∧
          agentId ∈ other.agentIds
      · obtain ⟨other, stands, member⟩ := theirs
        rw [cleaned.forgotten other stands agentId member,
          left.standInAgents other stands agentId member stranger]
      · exact cleaned.remembered agentId fun other stands member => theirs ⟨other, stands, member⟩
    otherSessions := by
      intro sessionId _
      rw [sessions]
    otherWorkspaces := by
      intro workspaceId hasNot
      by_cases aimed : ∃ other, before.world.state.standIn jobId = some other ∧
          before.world.state.cleanupTarget order other = some workspaceId
      · obtain ⟨other, stands, target⟩ := aimed
        rcases left.standInWorkspace other workspaceId stands target with
          ⟨has, _⟩ | ⟨_, fails, workspace, found, cleaning⟩
        · exact absurd has hasNot
        · rw [cleaned.removed other workspaceId stands (left.standInSession other stands) target,
            workspaceRemoved_lookup, if_pos rfl, if_neg fails, found, Option.map_some, ← cleaning]
      · exact cleaned.kept workspaceId fun other stands target => aimed ⟨other, stands, target⟩
    otherJobs := by
      intro other differs
      rw [jobs, Table.lookup_erase, if_neg differs.symm] }

theorem ReleasesOnly.nothingLeft (cleaned : CleanedFor order jobId before after)
    (released : ReleasesOnly jobId job before after) : NothingLeft order jobId job before := by
  have calm : ∀ other, before.world.state.standIn jobId = some other → other.sessionId = none := by
    intro other stands
    by_contra session
    obtain ⟨key, differs, changed⟩ := cleaned.closed other stands session
    exact changed (released.otherJobs key differs)
  obtain ⟨sessions, _⟩ := cleaned.open_ calm
  exact {
    cooldowns := by
      intro timer cooling other
      have same := released.otherTimers timer other
      rw [cleaned.timers, Timer.without_other _ other, if_pos cooling] at same
      exact same.symm
    workers := by
      intro key record found
      rw [← cleaned.workers] at found
      exact released.workers key record found
    session := by
      intro sessionId session
      rw [← sessions]
      exact released.session sessionId session
    agents := by
      intro agentId member
      by_cases theirs : ∃ other, before.world.state.standIn jobId = some other ∧
          agentId ∈ other.agentIds
      · exact .inl theirs
      · obtain ⟨forgotten, killed⟩ := released.agents agentId member
        rw [cleaned.remembered agentId fun other stands member =>
          theirs ⟨other, stands, member⟩] at forgotten
        exact .inr ⟨forgotten, ((cleaned.kills agentId).mp killed).resolve_right theirs⟩
    workspaces := by
      intro workspaceId has
      by_cases aimed : ∃ other, before.world.state.standIn jobId = some other ∧
          before.world.state.cleanupTarget order other = some workspaceId
      · exact .inr aimed
      · have gone := released.workspaces workspaceId has
        rw [cleaned.kept workspaceId fun other stands target =>
          aimed ⟨other, stands, target⟩] at gone
        exact .inl gone
    standInSession := calm
    standInAgents := by
      intro other stands agentId member stranger
      rw [← released.otherAgents agentId stranger]
      exact cleaned.forgotten other stands agentId member
    standInWorkspace := by
      intro other workspaceId stands target
      have left := cleaned.removed other workspaceId stands (calm other stands) target
      rw [workspaceRemoved_lookup, if_pos rfl] at left
      obtain ⟨workspace, found⟩ := Option.isSome_iff_exists.mp
        ((Table.contains_eq_isSome _ _).symm.trans (cleanupTarget_present target))
      rw [found, Option.map_some] at left
      by_cases has : before.world.state.HasWorkspace jobId job workspaceId
      · left
        refine ⟨has, ?_⟩
        rw [released.workspaces workspaceId has] at left
        by_contra fails
        rw [if_neg fails] at left
        cases left
      · right
        have same := released.otherWorkspaces workspaceId has
        rw [found] at same
        rw [same] at left
        have fails : (before.world.replies other.agentIds.length).removed ≠ .ok () := by
          intro succeeds
          rw [if_pos succeeds] at left
          cases left
        rw [if_neg fails] at left
        refine ⟨has, fails, workspace, found, ?_⟩
        rw [Option.some.inj left] }

end Released

/-- Deleting a job releases what it owned, and nothing else, just when nothing of it
is left to be released. -/
theorem processEvent_jobDeleted_releases_iff (outside : Outside) (others : OtherHandlers)
    (jobId : JobId) (job : Job) (before : Runtime) :
    ReleasesOnly jobId job before
        (Handler.processEvent outside (others.withCleanup outside) (.jobDeleted jobId) before).2 ↔
      NothingLeft outside.order jobId job before := by
  have cleaned : CleanedFor outside.order jobId before
      (Handler.processEvent outside (others.withCleanup outside) (.jobDeleted jobId) before).2 := by
    cases found : before.world.state.standIn jobId with
    | none => exact jobDeleted_alone outside others found
    | some other => exact jobDeleted_found outside others found
  constructor
  · exact fun released => released.nothingLeft cleaned
  · exact fun left => cleaned.releasesOnly left

def MaterializedState.attached : MaterializedState :=
  let created : Event := .jobCreated "build" "build" "build" "hash" "/" ∅ "work" 0 "" none
  ((({} : MaterializedState).applyEvent .byKey ⟨0, 0⟩ created).applyEvent .byKey ⟨0, 0⟩
    (.sessionCreated "oj-build" (.job "build")))

/-- The session of a deleted job stays. -/
theorem jobDeleted_keeps_session : ¬∀ (outside : Outside) (others : OtherHandlers) (jobId : JobId)
    (job : Job) (before : Runtime), before.world.state.jobs[jobId]? = some job →
      ReleasesOnly jobId job before
        (Handler.processEvent outside (others.withCleanup outside) (.jobDeleted jobId) before).2 := by
  intro releases
  have stored : ((MaterializedState.attached.jobs["build"]?).map (·.sessionId)) =
      some (some "oj-build") := by decide +kernel
  obtain ⟨job, found, session⟩ := Option.map_eq_some_iff.mp stored
  have released := releases (.plain {}) .silent "build" job (.idle {} .attached) found
  have alone : MaterializedState.attached.standIn "build" = none := by
    have unknown : (MaterializedState.attached.standIn "build").isNone = true := by decide +kernel
    exact Option.isNone_iff_eq_none.mp unknown
  have left := released.nothingLeft (jobDeleted_alone (.plain {}) .silent alone)
  have gone := left.session "oj-build" session
  have kept : (MaterializedState.attached.sessions["oj-build"]?).isSome = true := by decide +kernel
  have same : (MaterializedState.attached.sessions["oj-build"]?) = none := gone
  rw [same] at kept
  cases kept

end OddJobs
