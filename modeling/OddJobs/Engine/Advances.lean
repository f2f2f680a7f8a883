import OddJobs.Engine.Liveness
import OddJobs.Engine.WriteAhead

/-!
# What the events of a run tell

Where a job goes on is told by its variables and its step.  The parts of a resumption hand back
the events that tell this.
-/

namespace OddJobs

open Library

/-! ## Variables and steps -/

def Event.stepOf (key : JobId) (step : String) : Event → String
  | jobAdvanced id target => if id = key then target else step
  | _ => step

namespace MaterializedState

def place (state : MaterializedState) (key : JobId) : Option (HashMap String × String) :=
  (state.jobs[key]?).map fun job => (job.vars, job.step)

theorem place_applyEvent (order : WalkOrder) (clock : Clock) (state : MaterializedState)
    {event : Event} (keeps : event.rewritesVars = false) (key : JobId) :
    (state.applyEvent order clock event).place key =
      (state.place key).map fun place => (place.1, event.stepOf key place.2) := by
  have sameVars (before after : Job) (same : before.SameVars after) : after.vars = before.vars :=
    same
  have sameStep (before after : Job) (same : before.SameHistory after) :
      after.step = before.step := same.step
  have vars := (applyEvent_sameVars order clock state keeps).map_eq sameVars key
  have pairs {before after : Option Job} {step : String → String}
      (vars : after.map Job.vars = before.map Job.vars)
      (steps : after.map Job.step = before.map fun job => step job.step) :
      (after.map fun job => (job.vars, job.step)) =
        (before.map fun job => (job.vars, job.step)).map fun place => (place.1, step place.2) := by
    rcases before with _ | before
    · rcases after with _ | after
      · rfl
      · cases vars
    · rcases after with _ | after
      · cases vars
      · exact congrArg some (Prod.ext (Option.some.inj vars) (Option.some.inj steps))
  refine @pairs _ _ (fun step => event.stepOf key step) vars ?_
  by_cases moves : event.movesJob = true
  · cases event with
    | jobAdvanced id step =>
        change ((state.applyJobAdvanced clock id step).jobs[key]?).map Job.step = _
        rw [lookup_applyJobAdvanced]
        by_cases same : id = key
        · rw [if_pos same, Option.map_map]
          refine congrArg (Option.map · _) (funext fun job => ?_)
          change Job.step (if _ then _ else _) = if id = key then step else job.step
          rw [if_pos same]
          split
          · rename_i skipped
            exact beq_iff_eq.mp (Bool.and_eq_true_iff.mp skipped).1
          · rw [Job.applyAdvanced_eq]
        · rw [if_neg same]
          refine congrArg (Option.map · _) (funext fun job => ?_)
          exact (if_neg same).symm
    | jobCreated | jobDeleted => cases keeps
    | _ => cases moves
  · have stays := Bool.eq_false_iff.mpr moves
    have steps := (applyEvent_sameHistory order clock state stays).map_eq sameStep key
    refine steps.trans (congrArg (Option.map · _) (funext fun job => ?_))
    cases event with
    | jobAdvanced id step => cases stays
    | _ => rfl

/-- No variable is rewritten, and where a job goes its events tell. -/
def Advances (events : List Event) (before after : MaterializedState) : Prop :=
  (∀ event ∈ events, event.rewritesVars = false) ∧ ∀ key, after.place key =
    (before.place key).map fun place => (place.1, events.foldl (Event.stepOf key) place.2)

namespace Advances

theorem none {before after : MaterializedState} (same : ∀ key, after.place key = before.place key) :
    Advances [] before after :=
  ⟨fun _ absent => absurd absent List.not_mem_nil,
    fun key => (same key).trans Option.map_id'.symm⟩

theorem trans {events later : List Event} {before between after : MaterializedState}
    (first : Advances events before between) (second : Advances later between after) :
    Advances (events ++ later) before after := by
  refine ⟨fun event member => ?_, fun key => ?_⟩
  · exact (List.mem_append.mp member).elim (first.1 event) (second.1 event)
  · rw [second.2, first.2, Option.map_map]
    refine congrArg (Option.map · _) (funext fun place => ?_)
    rw [List.foldl_append]
    rfl

theorem fold (order : WalkOrder) (state : MaterializedState) {events : List Event}
    (keep : ∀ event ∈ events, event.rewritesVars = false) :
    Advances events state (foldEvents order state events) := by
  refine ⟨keep, fun key => ?_⟩
  induction events generalizing state with
  | nil => exact Option.map_id'.symm
  | cons event events ih =>
      have first := place_applyEvent order default state (keep event List.mem_cons_self) key
      have rest := ih (state.applyEvent order default event)
        fun other member => keep other (List.mem_cons_of_mem event member)
      refine rest.trans ?_
      rw [first, Option.map_map]
      rfl

end Advances

end MaterializedState

open MaterializedState

theorem Agrees.place {live folded : MaterializedState} (agrees : Agrees false live folded)
    (key : JobId) : live.place key = folded.place key := by
  unfold MaterializedState.place
  rcases (agrees.jobs key).cases_on with ⟨left, right⟩ | ⟨left, right, found, other, same⟩
  · rw [left, right]
  · rw [found, other]
    exact congrArg some (Prod.ext (congrArg (·.vars) same) (congrArg (·.step) same))

/-! ## Effects that hand back what they apply -/

def Effect.isPlain : Effect → Bool
  | emit event => !event.rewritesVars
  | createWorkspace .. | deleteWorkspace .. => false
  | _ => true

theorem Effect.perform_plain {state : MaterializedState} {reply : Reply} {effect : Effect}
    (plain : effect.isPlain = true) (ok : (effect.perform state reply).ok = true) :
    (effect.perform state reply).applied = (effect.perform state reply).handed ∧
      ∀ event ∈ (effect.perform state reply).handed, event.rewritesVars = false := by
  have nothing : ∀ event ∈ (single none).handed, event.rewritesVars = false :=
    fun _ absent => absurd absent List.not_mem_nil
  cases effect with
  | emit event =>
      refine ⟨rfl, fun other member => ?_⟩
      cases List.mem_singleton.mp member
      exact (Bool.not_eq_true' _).mp plain
  | createWorkspace | deleteWorkspace => cases plain
  | spawnAgent agentId agentName owner =>
      rw [perform] at ok ⊢
      cases spawned : reply.spawned with
      | error error =>
          rw [spawned] at ok
          cases ok
      | ok sessionId =>
          refine ⟨rfl, fun other member => ?_⟩
          cases List.mem_singleton.mp member
          rfl
  | sendToAgent | killAgent | sendToSession | killSession =>
      rw [perform] at ok ⊢
      cases delivered : reply.delivered with
      | error error =>
          rw [delivered] at ok
          cases ok
      | ok done => exact ⟨rfl, nothing⟩
  | setTimer | cancelTimer | shell | pollQueue | takeQueueItem | notify => exact ⟨rfl, nothing⟩

theorem Effect.performAll_plain (order : WalkOrder) {effects : List Effect}
    (plain : ∀ effect ∈ effects, effect.isPlain = true) {state : MaterializedState}
    {replies : Nat → Reply} (ok : (performAll order state replies effects).ok = true) :
    (performAll order state replies effects).applied =
        (performAll order state replies effects).handed ∧
      (performAll order state replies effects).cleaning = none ∧
      ∀ event ∈ (performAll order state replies effects).handed, event.rewritesVars = false := by
  induction effects generalizing state replies with
  | nil => exact ⟨rfl, rfl, fun _ absent => absurd absent List.not_mem_nil⟩
  | cons effect effects ih =>
      rw [performAll] at ok ⊢
      dsimp only at ok ⊢
      by_cases first : (effect.perform state (replies 0)).ok = true
      · rw [if_pos first] at ok ⊢
        obtain ⟨same, keep⟩ := perform_plain (plain effect List.mem_cons_self) first
        obtain ⟨sameLater, clean, keepLater⟩ :=
          ih (fun other member => plain other (List.mem_cons_of_mem effect member)) ok
        refine ⟨congrArg₂ (· ++ ·) same sameLater, clean, fun event member => ?_⟩
        exact (List.mem_append.mp member).elim (keep event) (keepLater event)
      · rw [if_neg first] at ok
        exact (first ok).elim

namespace Handler

variable (outside : Outside)

theorem carryOut_eq_ok {α : Type} {exec : Exec α} {before after : Runtime} {value : α}
    (ran : carryOut exec before = (.ok value, after)) :
    exec before.world = (.ok value, after.world) := by
  unfold carryOut at ran
  split at ran
  · rename_i found world executed
    cases ran
    exact executed
  · cases ran

theorem executeAll_advances {effects : List Effect}
    (plain : ∀ effect ∈ effects, effect.isPlain = true) {before after : Runtime}
    {events : List Event} (ran : executeAll outside effects before = (.ok events, after)) :
    Advances events before.world.state after.world.state := by
  have carries := @executeAll_carries outside.order before.world.state before.world
    (Agrees.refl false _) effects
  rw [carryOut_eq_ok ran] at carries
  obtain ⟨agrees, ok, handed⟩ := carries
  obtain ⟨same, clean, keep⟩ := Effect.performAll_plain outside.order plain ok
  rw [Performed.left, clean, same, handed] at agrees
  rw [handed] at keep
  obtain ⟨-, folded⟩ := Advances.fold outside.order before.world.state keep
  exact ⟨keep, fun key => (agrees.place key).trans (folded key)⟩

theorem execute_advances {effect : Effect} (plain : effect.isPlain = true)
    {before after : Runtime} {event : Option Event}
    (ran : execute outside effect before = (.ok event, after)) :
    Advances event.toList before.world.state after.world.state := by
  have alone : executeAll outside [effect] before = (.ok (event.toList ++ []), after) := by
    rw [executeAll_cons, Program.bind_ok ran]
    rfl
  rw [List.append_nil] at alone
  exact executeAll_advances outside (List.forall_mem_singleton.mpr plain) alone

theorem emitNotify_advances {job : Job} {template : Option String} {before after : Runtime}
    {events : List Event} (ran : emitNotify outside job template before = (.ok events, after)) :
    Advances events before.world.state after.world.state := by
  unfold emitNotify at ran
  cases template with
  | none =>
      cases ran
      exact .none fun _ => rfl
  | some template =>
      obtain ⟨event, middle, notified, returned⟩ := Program.bind_eq_ok.mp ran
      cases returned
      exact execute_advances outside rfl notified

theorem spawnAgent_advances {id : JobId} {agentName : String} {before after : Runtime}
    {events : List Event} (ran : spawnAgent outside id agentName before = (.ok events, after)) :
    Advances events before.world.state after.world.state := by
  unfold spawnAgent at ran
  obtain ⟨job, _, required, rest⟩ := Program.bind_eq_ok.mp ran
  obtain ⟨rfl, -⟩ := requireJob_eq_ok.mp required
  obtain ⟨runbook, _, looked, rest⟩ := Program.bind_eq_ok.mp rest
  obtain ⟨-, runbookCache, rfl⟩ := cachedRunbook_eq_ok outside looked
  obtain ⟨agentDef, _, defined, rest⟩ := Program.bind_eq_ok.mp rest
  obtain ⟨-, rfl⟩ := require_eq_ok defined
  obtain ⟨reading, _, first, rest⟩ := Program.bind_eq_ok.mp rest
  cases first
  dsimp only at rest
  cases planned : (before.readings 0).plan with
  | error error =>
      rw [planned] at rest
      cases rest
  | ok plan =>
      rw [planned] at rest
      obtain ⟨_, _, owns, rest⟩ := Program.bind_eq_ok.mp rest
      cases owns
      obtain ⟨spawned, started, carriedOut, rest⟩ := Program.bind_eq_ok.mp rest
      have begun := executeAll_advances outside (by simp [Effect.isPlain, Event.rewritesVars])
        carriedOut
      unfold buildAgentNotifyEffect at rest
      cases template : agentDef.notify.onStart with
      | none =>
          rw [template] at rest
          cases rest
          exact begun
      | some text =>
          rw [template] at rest
          obtain ⟨event, last, notified, returned⟩ := Program.bind_eq_ok.mp rest
          cases returned
          exact begun.trans (execute_advances outside rfl notified)

theorem runStep_advances {job : Job} {id : JobId} {stepDef : StepDef} {stepName : String}
    {input : HashMap String} {workspacePath : PathBuf} {before after : Runtime}
    {events : List Event}
    (ran : runStep outside job id stepDef stepName input workspacePath before = (.ok events, after)) :
    Advances events before.world.state after.world.state := by
  unfold runStep at ran
  cases runs : stepDef.run with
  | shell command =>
      rw [runs] at ran
      obtain ⟨reading, _, first, rest⟩ := Program.bind_eq_ok.mp ran
      cases first
      exact @executeAll_advances outside _ (List.forall_mem_singleton.mpr rfl) before.afterReading _ _
        rest
  | agent name attach =>
      rw [runs] at ran
      exact spawnAgent_advances outside ran
  | job nested =>
      rw [runs] at ran
      cases ran

theorem failureEffects_plain (job : Job) (error : String) :
    ∀ effect ∈ Steps.failureEffects job error, effect.isPlain = true := by
  intro effect member
  unfold Steps.failureEffects Steps.cancelTimerEffects Steps.sessionEffects at member
  cases session : job.sessionId <;> rw [session] at member <;>
    simp only [List.mem_append, List.mem_cons, List.not_mem_nil, or_false] at member
  · rcases member with (rfl | rfl) | rfl | rfl <;> rfl
  · rcases member with ((rfl | rfl) | rfl | rfl) | rfl | rfl <;> rfl

theorem startStep_advances {id : JobId} {stepName : String} {input : HashMap String}
    {workspacePath : PathBuf} {before after : Runtime} {events : List Event}
    (ran : startStep outside id stepName input workspacePath before = (.ok events, after)) :
    Advances events before.world.state after.world.state := by
  unfold startStep at ran
  obtain ⟨job, _, required, rest⟩ := Program.bind_eq_ok.mp ran
  obtain ⟨rfl, -⟩ := requireJob_eq_ok.mp required
  obtain ⟨runbook, _, looked, rest⟩ := Program.bind_eq_ok.mp rest
  obtain ⟨-, runbookCache, rfl⟩ := cachedRunbook_eq_ok outside looked
  obtain ⟨jobDef, _, defined, rest⟩ := Program.bind_eq_ok.mp rest
  obtain ⟨-, rfl⟩ := require_eq_ok defined
  split at rest
  · obtain ⟨failed, _, fails, rest⟩ := Program.bind_eq_ok.mp rest
    obtain ⟨notified, _, notifies, returned⟩ := Program.bind_eq_ok.mp rest
    cases returned
    exact (executeAll_advances outside (failureEffects_plain job _) fails).trans
      (emitNotify_advances outside notifies)
  · obtain ⟨stepDef, _, found, rest⟩ := Program.bind_eq_ok.mp rest
    obtain ⟨-, rfl⟩ := require_eq_ok found
    obtain ⟨started, _, starts, rest⟩ := Program.bind_eq_ok.mp rest
    obtain ⟨run, _, runs, returned⟩ := Program.bind_eq_ok.mp rest
    cases returned
    have begun := executeAll_advances outside (List.forall_mem_singleton.mpr rfl) starts
    exact begun.trans (runStep_advances outside runs)

theorem nudgeAgent_advances {id : JobId} {step message : String} {agentId : AgentId}
    {before after : Runtime} {events : List Event}
    (ran : nudgeAgent outside id step agentId message before = (.ok events, after)) :
    Advances events before.world.state after.world.state := by
  unfold nudgeAgent at ran
  obtain ⟨_, told, sends, rest⟩ := Program.bind_eq_ok.mp ran
  obtain ⟨-, state⟩ := execute_sendToAgent_ok outside sends
  have started := place_applyEvent outside.order (told.world.clocks 0) told.world.state
    (show (Event.stepStarted id step (some agentId) none).rewritesVars = false from rfl)
  cases rest
  refine .none fun key => (started key).trans ?_
  rw [state]
  exact Option.map_id'

theorem resumeAt_advances {job : Job} {step : String} {stepDef : StepDef}
    {message : Option String} {kill : Bool} {before after : Runtime} {events : List Event}
    (ran : resumeAt outside job step stepDef message kill before = (.ok events, after)) :
    Advances events before.world.state after.world.state := by
  have respawns {agentName : String} {middle : Runtime} (same : middle.world = before.world)
      (respawned : respawnAgent outside job agentName middle = (.ok events, after)) :
      Advances events before.world.state after.world.state := by
    obtain ⟨killed, kills, state, -, -⟩ := tryKillSession_run outside job middle
    unfold respawnAgent at respawned
    rw [Program.bind_ok kills] at respawned
    rw [← same, ← state]
    exact spawnAgent_advances outside respawned
  unfold resumeAt at ran
  cases message with
  | some text =>
      obtain ⟨agentName, _, named, ran⟩ := Program.bind_eq_ok.mp ran
      obtain ⟨-, rfl⟩ := require_eq_ok named
      unfold handleAgentResume at ran
      obtain ⟨reading, _, first, rest⟩ := Program.bind_eq_ok.mp ran
      cases first
      cases latest : (job.stepAgents step).head? with
      | none =>
          rw [latest] at rest
          exact @respawns _ before.afterReading rfl rest
      | some agentId =>
          rw [latest] at rest
          dsimp only at rest
          split at rest
          · exact @nudgeAgent_advances outside _ _ _ _ before.afterReading _ _ rest
          · exact @respawns _ before.afterReading rfl rest
  | none =>
      dsimp only at ran
      split at ran
      · obtain ⟨killed, kills, state, -, -⟩ := tryKillSession_run outside job before
        unfold handleShellResume at ran
        rw [Program.bind_ok kills] at ran
        rw [← state]
        exact startStep_advances outside ran
      · cases ran

end Handler

end OddJobs
