import OddJobs.Engine.AgentRuns
import OddJobs.Engine.Resume
import OddJobs.Storage.AgentIndex

/-!
# Spawns and the agent index

What the two handlers that spawn an agent do to the state is one spawn of the index: the
session is announced before the agent.
-/

namespace OddJobs

open Library

def Spawned (order : WalkOrder) (owner : OwnerId) (agentName : String)
    (before after : MaterializedState) : Prop :=
  ∃ clock later agentId step sessionId, after =
    (before.applyEvent order clock (.sessionCreated sessionId owner)).applyEvent order later
      (owner.started agentId agentName step)

/-- A spawn for an owner that is there is one step of the agent index. -/
def SpawnsOnce (order : WalkOrder) (owner : OwnerId) (agentName : String)
    (before after : MaterializedState) : Prop :=
  Spawned order owner agentName before after ∧
    ∀ index : AgentIndex, index.state = before → owner.presentIn before = true →
      ∃ action next, index.step action = some next ∧ next.state = after

theorem Spawned.once {order : WalkOrder} {owner : OwnerId} {agentName : String}
    {before after : MaterializedState} (spawned : Spawned order owner agentName before after) :
    SpawnsOnce order owner agentName before after := by
  refine ⟨spawned, ?_⟩
  rintro index rfl present
  obtain ⟨clock, later, agentId, step, sessionId, rfl⟩ := spawned
  exact ⟨.spawn order clock later owner agentId agentName step sessionId, _, if_pos present, rfl⟩

namespace Handler

variable (outside : Outside)

/-- `spawn_agent_with_resume` spawns the agent for the job. -/
theorem spawnAgent_spawned {id : JobId} {agentName : String} {before after : Runtime}
    {events : List Event} (ran : spawnAgent outside id agentName before = (.ok events, after)) :
    SpawnsOnce outside.order (.job id) agentName before.world.state after.world.state := by
  refine Spawned.once ?_
  unfold spawnAgent at ran
  obtain ⟨job, _, required, looks⟩ := Program.bind_eq_ok.mp ran
  obtain ⟨rfl, _⟩ := requireJob_eq_ok.mp required
  obtain ⟨runbook, _, looked, defines⟩ := Program.bind_eq_ok.mp looks
  obtain ⟨_, runbookCache, rfl⟩ := cachedRunbook_eq_ok outside looked
  obtain ⟨agentDef, _, defined, reads⟩ := Program.bind_eq_ok.mp defines
  obtain ⟨_, rfl⟩ := require_eq_ok defined
  obtain ⟨reading, _, first, plans⟩ := Program.bind_eq_ok.mp reads
  cases first
  cases planned : (before.readings 0).plan with
  | error error =>
      rw [planned] at plans
      cases plans
  | ok plan =>
      rw [planned] at plans
      obtain ⟨_, _, owns, spawns⟩ := Program.bind_eq_ok.mp plans
      cases owns
      obtain ⟨spawned, started, carriedOut, notifies⟩ := Program.bind_eq_ok.mp spawns
      rw [executeAll_cons] at carriedOut
      obtain ⟨created, session, opens, rest⟩ := Program.bind_eq_ok.mp carriedOut
      obtain ⟨_, clock, sessionId, state⟩ := execute_spawnAgent_ok outside opens
      have runs : executeAll outside [.setTimer (Timer.liveness id) 30000,
          .emit (.stepStarted id job.step (some plan.agentId) (some agentName))] session =
          (.ok [.stepStarted id job.step (some plan.agentId) (some agentName)],
            (session.timing (Timer.liveness id) 30000).emitting outside.order
              (.stepStarted id job.step (some plan.agentId) (some agentName))) := rfl
      obtain ⟨_, last, times, returned⟩ := Program.bind_eq_ok.mp rest
      rw [runs] at times
      cases times
      cases returned
      have ended : ((session.timing (Timer.liveness id) 30000).emitting outside.order
          (.stepStarted id job.step (some plan.agentId) (some agentName))).world.state =
            session.world.state.applyEvent outside.order (session.world.clocks 1)
              (.stepStarted id job.step (some plan.agentId) (some agentName)) := rfl
      rw [state] at ended
      cases template : agentDef.notify.onStart with
      | none =>
          rw [buildAgentNotifyEffect, template] at notifies
          cases notifies
          exact ⟨clock, _, plan.agentId, job.step, sessionId, ended⟩
      | some text =>
          rw [buildAgentNotifyEffect, template] at notifies
          cases notifies
          exact ⟨clock, _, plan.agentId, job.step, sessionId, ended⟩

def spawnable : Runtime :=
  let idle := Runtime.idle {} (({} : MaterializedState).applyEvent .byKey default
    (.jobCreated "job" "build" "build" "hash" "/" ∅ "plan" 0 "" none))
  { idle with
    runbookCache := idle.runbookCache.insert "hash"
      { agents := (∅ : HashMap AgentDef).insert "agent" { name := "agent" } }
    readings := fun n => { idle.readings n with
      plan := .ok ⟨"agent", ∅, "claude", [], "/", ∅⟩ } }

theorem spawnAgent_spawned_job :
    SpawnsOnce .byKey (.job "job") "agent" spawnable.world.state
      (spawnAgent (Outside.plain {}) "job" "agent" spawnable).2.world.state := by
  have ran : (spawnAgent (Outside.plain {}) "job" "agent" spawnable).1 = .ok [
      .sessionCreated "session" (.job "job"),
      .stepStarted "job" "plan" (some "agent") (some "agent")] := by rfl
  exact spawnAgent_spawned (Outside.plain {}) (Prod.ext ran rfl)

/-- Effects whose error would have been caught, and that were carried out. -/
theorem carryOut_attempt_ok {α : Type} {exec : Exec α} {value : α} {before after : Runtime}
    (ran : carryOut (@Program.attempt _ ExecuteError _ ExecuteError exec) before =
      (.ok (.ok value), after)) : carryOut exec before = (.ok value, after) := by
  unfold carryOut Program.attempt at ran
  unfold carryOut
  cases executed : exec before.world with
  | mk result world =>
      rw [executed] at ran
      cases result with
      | error error => cases ran
      | ok found =>
          cases ran
          rfl

/-- `spawn_standalone_agent` spawns the agent for the run. -/
theorem spawnStandaloneAgent_spawned {id : AgentRunId} {agentDef : AgentDef} {agentName : String}
    {input : HashMap String} {cwd : PathBuf} {before after : Runtime} {events : List Event}
    (ran : spawnStandaloneAgent outside id agentDef agentName input cwd before =
      (.ok events, after)) :
    SpawnsOnce outside.order (.agentRun id) agentName before.world.state after.world.state := by
  refine Spawned.once ?_
  unfold spawnStandaloneAgent at ran
  obtain ⟨reading, _, first, plans⟩ := Program.bind_eq_ok.mp ran
  cases first
  cases planned : (before.readings 0).plan with
  | error error =>
      rw [planned] at plans
      cases plans
  | ok plan =>
      rw [planned] at plans
      obtain ⟨_, _, owns, spawns⟩ := Program.bind_eq_ok.mp plans
      cases owns
      obtain ⟨spawned, session, attempted, rest⟩ := Program.bind_eq_ok.mp spawns
      cases spawned with
      | error error =>
          -- a failed spawn is reported, and the error goes on
          obtain ⟨_, _, _, thrown⟩ := Program.bind_eq_ok.mp rest
          cases thrown
      | ok created =>
          have carriedOut := carryOut_attempt_ok attempted
          change executeAll outside _ _ = _ at carriedOut
          rw [executeAll_cons] at carriedOut
          obtain ⟨opened, asked, opens, timed⟩ := Program.bind_eq_ok.mp carriedOut
          obtain ⟨_, clock, sessionId, state⟩ := execute_spawnAgent_ok outside opens
          have runs : executeAll outside [.setTimer (Timer.livenessAgentRun id) 30000] asked =
              (.ok [], asked.timing (Timer.livenessAgentRun id) 30000) := rfl
          obtain ⟨_, last, times, returned⟩ := Program.bind_eq_ok.mp timed
          rw [runs] at times
          cases times
          cases returned
          obtain ⟨started, told, emitted, notifies⟩ := Program.bind_eq_ok.mp rest
          have ended : told.world.state = asked.world.state.applyEvent outside.order
              (asked.world.clocks 1) (.agentRunStarted id plan.agentId) := by
            cases emitted
            rfl
          rw [state] at ended
          obtain ⟨_, informed, notified, done⟩ := Program.bind_eq_ok.mp notifies
          cases done
          have quiet : after.world.state = told.world.state := by
            unfold notifyAgentRun at notified
            cases template : agentDef.notify.onStart with
            | none =>
                rw [template] at notified
                cases notified
                rfl
            | some text =>
                rw [template] at notified
                cases notified
                rfl
          exact ⟨clock, _, plan.agentId, "", sessionId, quiet.trans ended⟩

theorem spawnStandaloneAgent_spawned_run :
    SpawnsOnce .byKey (.agentRun "run") "agent" spawnable.world.state
      (spawnStandaloneAgent (Outside.plain {}) "run" { name := "agent" } "agent" ∅ "/"
        spawnable).2.world.state := by
  have ran : (spawnStandaloneAgent (Outside.plain {}) "run" { name := "agent" } "agent" ∅ "/"
      spawnable).1 = .ok [.sessionCreated "session" (.agentRun "run"),
        .agentRunStarted "run" "agent"] := by rfl
  exact spawnStandaloneAgent_spawned (Outside.plain {}) (Prod.ext ran rfl)

end Handler

end OddJobs
