import OddJobs.Engine.AgentRuns
import OddJobs.Engine.JobMoves

/-!
# Moves of agent actions

Every action on an agent moves along every relation of a course on which jobs may take any
edge, decisions may be created, and nudges may be noted.
-/

namespace OddJobs

open Library

def ActionEffects.Within (bounds : Bounds) : ActionEffects → Prop
  | nudge effects | escalate effects => ∀ effect ∈ effects, effect.Within bounds
  | _ => True

def RunEffects.Within (bounds : Bounds) : RunEffects → Prop
  | nudge effects | escalate effects => ∀ effect ∈ effects, effect.Within bounds
  | _ => True

/-- A course on which an agent may be acted on, be it the agent of a job or one of its own. -/
structure Acting (bounds : Bounds) (outside : Outside) (related : Runtime → Runtime → Prop) : Prop
    extends Course bounds outside related where
  covers : ∀ id, bounds.Covers id
  routes : ∀ (job : Job) (route : Route), route.Within bounds job
  decides : ∀ id jobId agentId owner source context options createdAtMs ns,
    bounds.event (.decisionCreated id jobId agentId owner source context options createdAtMs ns)
  cooldown : ∀ id trigger chainPos, bounds.timer (Timer.cooldown id trigger chainPos)
  nudged : ∀ (runtime : Runtime) (id : JobId) (nudgedAt : Option Nat), related runtime
    { runtime with world := { runtime.world with
        state := runtime.world.state.updateJob id fun job => { job with lastNudgeAt := nudgedAt } } }

namespace Acting

variable {bounds : Bounds} {outside : Outside} {related : Runtime → Runtime → Prop}
variable (acting : Acting bounds outside related)

include acting

theorem decision_within (trigger : EscalationTrigger) (reading : Reading) (job : Job) :
    bounds.event (trigger.decisionFor outside reading job) := acting.decides _ _ _ _ _ _ _ _ _

theorem buildActionEffects_within {reading : Reading} {context : ActionContext} {job : Job}
    {effects : ActionEffects}
    (built : buildActionEffects outside reading context job = .ok effects) :
    effects.Within bounds := by
  unfold buildActionEffects at built
  cases action : context.actionConfig.action with
  | nudge =>
      rw [action] at built
      cases session : job.sessionId with
      | none =>
          rw [session] at built
          cases built
      | some sessionId =>
          rw [session] at built
          cases built
          intro effect member
          rw [List.mem_singleton.mp member]
          trivial
  | escalate =>
      rw [action] at built
      cases built
      intro effect member
      simp only [List.mem_cons, List.not_mem_nil, or_false] at member
      rcases member with rfl | rfl | rfl
      · exact acting.decision_within _ _ _
      · trivial
      · exact (acting.covers job.id).exitDeferred
  | gate =>
      rw [action] at built
      cases command : context.actionConfig.run with
      | none =>
          rw [command] at built
          cases built
      | some text =>
          rw [command] at built
          cases built
          trivial
  | done | fail | resume =>
      rw [action] at built
      cases built
      trivial

theorem notifyAgent_moves {effect : Option Effect} (within : ∀ effect' ∈ effect, effect'.Within bounds) :
    Program.Moves related (Handler.notifyAgent outside effect) := by
  cases effect with
  | none => exact Program.moves_pure acting.toClosed _
  | some effect =>
      exact Program.Moves.bind acting.toClosed (acting.execute_moves (within effect rfl)) fun _ =>
        Program.moves_pure acting.toClosed _

omit acting in
theorem notifyEffect_within (job : Job) (agentDef : AgentDef) (template : Option String) :
    ∀ effect ∈ Handler.buildAgentNotifyEffect outside job agentDef template,
      effect.Within bounds := by
  intro effect member
  obtain ⟨_, _, rfl⟩ := Option.map_eq_some_iff.mp member
  trivial

theorem advanceByAgent_moves (job : Job) (agentDef : AgentDef) :
    Program.Moves related (Handler.advanceByAgent outside job agentDef) := by
  refine (acting.notifyAgent_moves (notifyEffect_within job agentDef _)).bind acting.toClosed
    fun _ runtime => ?_
  have completes := (acting.routes job (.complete job.step)).2
  exact acting.advanceJob_moves (acting.covers job.id)
    (fun _ found _ => .inl (acting.covers found.id)) runtime (fun _ => completes)
    completes.completed fun _ _ => acting.routes job _

theorem runGate_moves (job : Job) (agentDef : AgentDef) (command : String) :
    Program.Moves related (Handler.runGate outside job agentDef command) := by
  refine acting.nextReading_moves.bind acting.toClosed fun reading => ?_
  dsimp only
  split
  · exact acting.advanceByAgent_moves job agentDef
  · refine acting.executeAll_moves fun effect member => ?_
    simp only [List.mem_cons, List.not_mem_nil, or_false] at member
    rcases member with rfl | rfl
    · exact acting.decision_within _ _ _
    · exact (acting.covers job.id).exitDeferred

theorem executeActionEffects_moves (job : Job) (agentDef : AgentDef) {effects : ActionEffects}
    (within : effects.Within bounds) :
    Program.Moves related (Handler.executeActionEffects outside job agentDef effects) := by
  have closed := acting.toClosed
  cases effects with
  | nudge effects =>
      refine Program.Moves.bind closed acting.readClock_moves fun clock => ?_
      refine Program.Moves.bind closed (fun runtime => acting.nudged runtime job.id _) fun _ => ?_
      exact acting.executeAll_moves within
  | advanceJob => exact acting.advanceByAgent_moves job agentDef
  | failJob error =>
      refine (acting.notifyAgent_moves (notifyEffect_within _ agentDef _)).bind closed
        fun _ runtime => ?_
      exact acting.failJob_moves (acting.covers job.id)
        (fun _ found _ => .inl (acting.covers found.id)) runtime error
        fun _ _ => acting.routes job _
  | resume killSession agentName input resumeSessionId =>
      have spawns := acting.spawnAgent_moves (acting.covers job.id).serves agentName
      unfold Handler.executeActionEffects Handler.killAndResume
      cases killSession with
      | none => exact spawns
      | some sessionId =>
          have kills : (Effect.killSession sessionId).Within bounds := trivial
          refine Program.Moves.bind closed ?_ fun _ => spawns
          exact acting.execute_moves kills
  | escalate effects => exact acting.executeAll_moves within
  | gate command => exact acting.runGate_moves job agentDef command

theorem executeAction_moves (job : Job) (context : ActionContext) :
    Program.Moves related (Handler.executeAction outside job context) := by
  refine acting.nextReading_moves.bind acting.toClosed fun reading => ?_
  cases built : buildActionEffects outside reading context job with
  | error error => exact Program.moves_throw acting.toClosed _
  | ok effects =>
      exact acting.executeActionEffects_moves job context.agentDef
        (acting.buildActionEffects_within built)

theorem actAfter_moves (job : Job) (context : ActionContext) (cooldown : Option String) :
    Program.Moves related (Handler.actAfter outside job context cooldown) := by
  cases cooldown with
  | none => exact acting.executeAction_moves job context
  | some cooldown =>
      rw [Handler.actAfter]
      generalize parseDuration cooldown = parsed
      cases parsed with
      | error error => exact Program.moves_throw acting.toClosed _
      | ok duration =>
          have waits : (Effect.setTimer (Timer.cooldown job.id context.trigger context.chainPos)
              duration).Within bounds := acting.cooldown _ _ _
          refine (acting.execute_moves waits).bind acting.toClosed fun _ => ?_
          exact Program.moves_pure acting.toClosed _

/-- What follows once the attempt has been counted. -/
theorem afterCount_moves (job : Job) (context : ActionContext) (attemptNum : Nat) :
    Program.Moves related (if context.actionConfig.attempts.isExhausted (attemptNum - 1) then
        Handler.executeAction outside job { context with
          actionConfig := .simple .escalate
          trigger := context.trigger ++ "_exhausted" }
      else Handler.actAfter outside job context
        (if 1 < attemptNum then context.actionConfig.cooldown else none)) := by
  split
  · exact acting.executeAction_moves job _
  · exact acting.actAfter_moves job context _

end Acting

/-- A course on which a standalone agent may be spawned and acted on. -/
structure ActingAlone (bounds : Bounds) (outside : Outside)
    (related : Runtime → Runtime → Prop) : Prop extends Course bounds outside related where
  statuses : ∀ id status reason, bounds.event (.agentRunStatusChanged id status reason)
  started : ∀ id agentId, bounds.event (.agentRunStarted id agentId)
  session : ∀ sessionId id, bounds.event (.sessionCreated sessionId (.agentRun id))
  sessionless : ∀ sessionId, bounds.event (.sessionDeleted sessionId)
  removed : ∀ workspaceId, bounds.event (.workspaceDeleted workspaceId)
  decides : ∀ id jobId agentId owner source context options createdAtMs ns,
    bounds.event (.decisionCreated id jobId agentId owner source context options createdAtMs ns)
  liveness : ∀ id, bounds.timer (Timer.livenessAgentRun id)
  exitDeferred : ∀ id, bounds.timer (Timer.exitDeferredAgentRun id)
  cooldown : ∀ id trigger chainPos, bounds.timer (Timer.cooldownAgentRun id trigger chainPos)
  nudged : ∀ (id : AgentRunId) (nudgedAt : Option Nat), Program.Moves related
    (Handler.updateRunState id fun run => { run with lastNudgeAt := nudgedAt })

namespace ActingAlone

variable {bounds : Bounds} {outside : Outside} {related : Runtime → Runtime → Prop}
variable (alone : ActingAlone bounds outside related)

include alone

/-! ## Spawning -/

theorem notifyAgentRun_moves (agentRunId : AgentRunId) (agentDef : AgentDef) (agentName : String)
    (input : HashMap String) : Program.Moves related
      (Handler.notifyAgentRun outside agentRunId agentDef agentName input) := by
  unfold Handler.notifyAgentRun
  cases agentDef.notify.onStart with
  | none => exact Program.moves_pure alone.toClosed _
  | some template =>
      refine Program.Moves.bind alone.toClosed (alone.execute_moves ?_) fun _ =>
        Program.moves_pure alone.toClosed _
      trivial

theorem spawnStandaloneAgent_moves (agentRunId : AgentRunId) (agentDef : AgentDef)
    (agentName : String) (input : HashMap String) (cwd : PathBuf) : Program.Moves related
      (Handler.spawnStandaloneAgent outside agentRunId agentDef agentName input cwd) := by
  have closed := alone.toClosed
  unfold Handler.spawnStandaloneAgent
  refine alone.nextReading_moves.bind closed fun reading => ?_
  cases reading.plan with
  | error error => exact Program.moves_throw closed _
  | ok plan =>
      refine (alone.registerAgent_moves _ _).bind closed fun _ => ?_
      refine Program.Moves.bind closed ?_ fun spawned => ?_
      · refine Handler.carryOut_moves fun runtime => Program.Moves.attempt ?_
        refine alone.executorAll_moves runtime fun effect member => ?_
        simp only [List.mem_cons, List.not_mem_nil, or_false] at member
        rcases member with rfl | rfl
        · exact fun sessionId => alone.session sessionId agentRunId
        · exact alone.liveness agentRunId
      cases spawned with
      | error error =>
          refine Program.Moves.bind closed ?_ fun _ => Program.moves_throw closed _
          refine Handler.carryOut_moves fun runtime => Program.Moves.attempt ?_
          exact alone.executor_moves runtime (alone.statuses _ _ _)
      | ok events =>
          have starts : (Effect.emit (.agentRunStarted agentRunId plan.agentId)).Within bounds :=
            alone.started _ _
          refine (alone.execute_moves starts).bind closed fun started => ?_
          exact (alone.notifyAgentRun_moves _ _ _ _).bind closed fun _ =>
            Program.moves_pure closed _

/-! ## Ending -/

theorem tryEffect_moves {effect : Effect} (within : effect.Within bounds) :
    Program.Moves related (Handler.tryEffect outside effect) :=
  Program.Moves.bind alone.toClosed (alone.execute_moves within).attempt fun _ =>
    Program.moves_pure alone.toClosed _

theorem cleanupStandaloneAgentSession_moves (run : AgentRun) :
    Program.Moves related (Handler.cleanupStandaloneAgentSession outside run) := by
  have closed := alone.toClosed
  have kills : ∀ sessionId : SessionId, Program.Moves related (do
      Handler.tryEffect outside (.killSession sessionId)
      Handler.tryEffect outside (.emit (.sessionDeleted sessionId)) : Handler Unit) := by
    intro sessionId
    have kill : (Effect.killSession sessionId).Within bounds := trivial
    refine (alone.tryEffect_moves kill).bind closed fun _ => ?_
    exact alone.tryEffect_moves (alone.sessionless sessionId)
  unfold Handler.cleanupStandaloneAgentSession
  cases run.sessionId with
  | none =>
      cases run.agentId with
      | none => exact Program.moves_pure closed _
      | some agentId =>
          exact (alone.deregisterAgent_moves agentId).bind closed fun _ =>
            Program.moves_pure closed _
  | some sessionId =>
      cases run.agentId with
      | none => exact kills sessionId
      | some agentId =>
          exact (alone.deregisterAgent_moves agentId).bind closed fun _ => kills sessionId

theorem cleanupAgentRunWorkspaces_moves (agentRunId : AgentRunId) :
    Program.Moves related (Handler.cleanupAgentRunWorkspaces outside agentRunId) := by
  refine (alone.readState_moves _).bind alone.toClosed fun owned => ?_
  refine Program.Moves.forEach alone.toClosed fun workspaceId _ => ?_
  exact alone.tryEffect_moves (alone.removed workspaceId)

theorem endAgentRun_moves (run : AgentRun) (status : AgentRunStatus) (reason : Option String) :
    Program.Moves related (Handler.endAgentRun outside run status reason) := by
  have closed := alone.toClosed
  refine Program.Moves.bind closed (alone.executeAll_moves ?_) fun events => ?_
  · intro effect member
    simp only [List.mem_cons, List.not_mem_nil, or_false] at member
    rcases member with rfl | rfl
    · exact alone.statuses _ _ _
    · exact alone.liveness run.id
  · refine (alone.cleanupStandaloneAgentSession_moves run).bind closed fun _ => ?_
    exact (alone.cleanupAgentRunWorkspaces_moves run.id).bind closed fun _ =>
      Program.moves_pure closed _

theorem notifyAgent_moves (run : AgentRun) (agentDef : AgentDef) (template : Option String) :
    Program.Moves related (Handler.notifyAgent outside
      (Handler.buildAgentRunNotifyEffect outside run agentDef template)) := by
  cases template with
  | none => exact Program.moves_pure alone.toClosed _
  | some template =>
      refine Program.Moves.bind alone.toClosed (alone.execute_moves ?_) fun _ =>
        Program.moves_pure alone.toClosed _
      trivial

theorem completeAgentRun_moves (run : AgentRun) (agentDef : AgentDef) :
    Program.Moves related (Handler.completeAgentRun outside run agentDef) :=
  (alone.notifyAgent_moves run agentDef _).bind alone.toClosed fun _ =>
    alone.endAgentRun_moves run _ _

/-! ## Acting -/

theorem escalationEffects_within (reading : Reading) (context : ActionContext) (run : AgentRun)
    (reason : String) :
    ∀ effect ∈ escalationEffects outside reading context run reason, effect.Within bounds := by
  intro effect member
  simp only [escalationEffects, List.mem_cons, List.not_mem_nil, or_false] at member
  rcases member with rfl | rfl | rfl | rfl
  · exact alone.decides _ _ _ _ _ _ _ _ _
  · trivial
  · exact alone.statuses _ _ _
  · exact alone.exitDeferred run.id

theorem buildActionEffectsForAgentRun_within {reading : Reading} {context : ActionContext}
    {run : AgentRun} {effects : RunEffects}
    (built : buildActionEffectsForAgentRun outside reading context run = .ok effects) :
    effects.Within bounds := by
  unfold buildActionEffectsForAgentRun at built
  cases action : context.actionConfig.action with
  | nudge =>
      rw [action] at built
      cases session : run.sessionId with
      | none =>
          rw [session] at built
          cases built
      | some sessionId =>
          rw [session] at built
          cases built
          intro effect member
          rw [List.mem_singleton.mp member]
          trivial
  | escalate =>
      rw [action] at built
      cases built
      exact alone.escalationEffects_within reading context run context.trigger
  | gate =>
      rw [action] at built
      cases command : context.actionConfig.run with
      | none =>
          rw [command] at built
          cases built
      | some text =>
          rw [command] at built
          cases built
          trivial
  | done | fail | resume =>
      rw [action] at built
      cases built
      trivial

theorem runStandaloneGate_moves (run : AgentRun) (agentDef : AgentDef) (command : String) :
    Program.Moves related (Handler.runStandaloneGate outside run agentDef command) := by
  refine alone.nextReading_moves.bind alone.toClosed fun reading => ?_
  split
  · exact alone.completeAgentRun_moves run agentDef
  · exact alone.executeAll_moves (alone.escalationEffects_within reading _ run _)

theorem executeStandaloneActionEffects_moves (run : AgentRun) (agentDef : AgentDef)
    {effects : RunEffects} (within : effects.Within bounds) : Program.Moves related
      (Handler.executeStandaloneActionEffects outside run agentDef effects) := by
  have closed := alone.toClosed
  cases effects with
  | nudge effects =>
      refine Program.Moves.bind closed alone.readClock_moves fun clock => ?_
      refine Program.Moves.bind closed (alone.nudged run.id _) fun _ => ?_
      exact alone.executeAll_moves within
  | complete => exact alone.completeAgentRun_moves run agentDef
  | fail error =>
      exact (alone.notifyAgent_moves _ agentDef _).bind closed fun _ =>
        alone.endAgentRun_moves run _ _
  | resume killSession agentName input resumeSessionId =>
      have spawns := alone.spawnStandaloneAgent_moves run.id agentDef agentName input run.cwd
      unfold Handler.executeStandaloneActionEffects
      cases killSession with
      | none => exact spawns
      | some sessionId =>
          have kills : (Effect.killSession sessionId).Within bounds := trivial
          exact (alone.tryEffect_moves kills).bind closed fun _ => spawns
  | escalate effects => exact alone.executeAll_moves within
  | gate command => exact alone.runStandaloneGate_moves run agentDef command

theorem executeStandaloneAction_moves (run : AgentRun) (context : ActionContext) :
    Program.Moves related (Handler.executeStandaloneAction outside run context) := by
  refine alone.nextReading_moves.bind alone.toClosed fun reading => ?_
  cases built : buildActionEffectsForAgentRun outside reading context run with
  | error error => exact Program.moves_throw alone.toClosed _
  | ok effects =>
      exact alone.executeStandaloneActionEffects_moves run context.agentDef
        (alone.buildActionEffectsForAgentRun_within built)

theorem actStandaloneAfter_moves (run : AgentRun) (context : ActionContext)
    (cooldown : Option String) :
    Program.Moves related (Handler.actStandaloneAfter outside run context cooldown) := by
  cases cooldown with
  | none => exact alone.executeStandaloneAction_moves run context
  | some cooldown =>
      rw [Handler.actStandaloneAfter]
      generalize parseDuration cooldown = parsed
      cases parsed with
      | error error => exact Program.moves_throw alone.toClosed _
      | ok duration =>
          have waits : (Effect.setTimer (Timer.cooldownAgentRun run.id context.trigger
              context.chainPos) duration).Within bounds := alone.cooldown _ _ _
          exact (alone.execute_moves waits).bind alone.toClosed fun _ =>
            Program.moves_pure alone.toClosed _

end ActingAlone

/-! ## Sparing one kind of timers -/

namespace Timer

def OfKind (kind : String) (timer : TimerId) : Prop := kind.toList <+: timer.toList

/-- The name begins otherwise, as its first two characters tell. -/
structure Apart (kind : String) (timer : TimerId) : Prop where
  long : 2 ≤ timer.toList.length
  differs : timer.toList.take 2 ≠ kind.toList.take 2

theorem Apart.append {kind start : String} (apart : Apart kind start) (rest : String) :
    Apart kind (start ++ rest) where
  long := by
    rw [String.toList_append, List.length_append]
    exact Nat.le_add_right_of_le apart.long
  differs := by
    rw [String.toList_append, List.take_append_of_le_length apart.long]
    exact apart.differs

theorem Apart.not_ofKind {kind timer : String} (apart : Apart kind timer)
    (long : 2 ≤ kind.toList.length) : ¬OfKind kind timer := by
  rintro ⟨rest, same⟩
  refine apart.differs ?_
  rw [← same, List.take_append_of_le_length long]

theorem ofKind_append (kind rest : String) : OfKind kind (kind ++ rest) := by
  unfold OfKind
  rw [String.toList_append]
  exact List.prefix_append _ _

theorem append_inj {start left right : String} (same : start ++ left = start ++ right) :
    left = right := by
  have lists := congrArg String.toList same
  rw [String.toList_append, String.toList_append] at lists
  exact String.toList_inj.mp (List.append_cancel_left lists)

theorem withoutPrefix_append (start rest : String) :
    Handler.withoutPrefix start (start ++ rest) = some rest := by
  unfold Handler.withoutPrefix
  rw [String.toList_append, List.isPrefixOf_iff_prefix.mpr (List.prefix_append _ _), if_pos rfl,
    List.drop_left, String.ofList_toList]

theorem withoutPrefix_eq_some {start text rest : String}
    (stripped : Handler.withoutPrefix start text = some rest) : text = start ++ rest := by
  unfold Handler.withoutPrefix at stripped
  split at stripped
  · rename_i begins
    obtain ⟨tail, same⟩ := List.isPrefixOf_iff_prefix.mp begins
    rw [← same, List.drop_left] at stripped
    cases stripped
    refine String.toList_inj.mp ?_
    rw [String.toList_append, String.toList_ofList, same]
  · cases stripped

/-- The prefix of one kind is not found on a name of another kind. -/
theorem Apart.withoutPrefix {kind start : String} (apart : Apart kind start)
    (long : 2 ≤ kind.toList.length) (rest : String) :
    Handler.withoutPrefix kind (start ++ rest) = none := by
  cases stripped : Handler.withoutPrefix kind (start ++ rest) with
  | none => rfl
  | some other =>
      refine absurd ?_ ((apart.append rest).not_ofKind long)
      rw [withoutPrefix_eq_some stripped]
      exact ofKind_append kind other

def KINDS : List String :=
  ["liveness:", "exit-deferred:", "cooldown:", "queue-retry:", "liveness:ar:", "exit-deferred:ar:",
    "cooldown:ar:"]

/-- No such timer is of the kind. -/
structure Spared (kind : String) : Prop where
  long : 2 ≤ kind.toList.length
  apart : ∀ start ∈ KINDS, Apart kind start

end Timer

def Bounds.sparing (permits : Event → Prop) (kind : String) : Bounds :=
  ⟨permits, fun timer => ¬Timer.OfKind kind timer, fun _ _ => True⟩

/-- The events that bring a job or an agent run into being, or remove it. -/
def Event.bringsOwner : Event → Bool
  | jobCreated .. | jobDeleted .. | agentRunCreated .. | agentRunDeleted .. => true
  | _ => false

section Sparing

variable {permits : Event → Prop} {kind : String} (spared : Timer.Spared kind)
variable (others : ∀ event : Event, event.bringsOwner = false → permits event)

include spared others

theorem sparing_covers (id : JobId) : (Bounds.sparing permits kind).Covers id where
  started := fun _ _ _ => others _ rfl
  failed := fun _ _ => others _ rfl
  fails := others _ rfl
  session := fun _ => others _ rfl
  sessionless := fun _ => others _ rfl
  removed := fun _ => others _ rfl
  liveness := ((spared.apart "liveness:" (by decide)).append _).not_ofKind spared.long
  exitDeferred := ((spared.apart "exit-deferred:" (by decide)).append _).not_ofKind spared.long

omit spared in
theorem sparing_route (job : Job) (route : Route) :
    route.Within (Bounds.sparing permits kind) job := by
  cases route with
  | start step => exact others _ rfl
  | complete step => exact ⟨others _ rfl, fun _ => others _ rfl, others _ rfl, trivial⟩
  | cancel => exact ⟨fun _ => others _ rfl, trivial⟩
  | fail => trivial

variable {outside : Outside} {related : Runtime → Runtime → Prop}
variable (course : Course (Bounds.sparing permits kind) outside related)

include course

theorem acting_sparing
    (nudged : ∀ (runtime : Runtime) (id : JobId) (nudgedAt : Option Nat), related runtime
      { runtime with world := { runtime.world with
          state := runtime.world.state.updateJob id fun job =>
            { job with lastNudgeAt := nudgedAt } } }) :
    Acting (Bounds.sparing permits kind) outside related where
  toCourse := course
  covers := sparing_covers spared others
  routes := sparing_route others
  decides := fun _ _ _ _ _ _ _ _ _ => others _ rfl
  cooldown := fun _ _ _ =>
    ((((((spared.apart "cooldown:" (by decide)).append _).append _).append _).append _).append
      _).not_ofKind spared.long
  nudged

theorem alone_sparing
    (nudged : ∀ (id : AgentRunId) (nudgedAt : Option Nat), Program.Moves related
      (Handler.updateRunState id fun run => { run with lastNudgeAt := nudgedAt })) :
    ActingAlone (Bounds.sparing permits kind) outside related where
  toCourse := course
  statuses := fun _ _ _ => others _ rfl
  started := fun _ _ => others _ rfl
  session := fun _ _ => others _ rfl
  sessionless := fun _ => others _ rfl
  removed := fun _ => others _ rfl
  decides := fun _ _ _ _ _ _ _ _ _ => others _ rfl
  liveness := fun _ =>
    ((spared.apart "liveness:ar:" (by decide)).append _).not_ofKind spared.long
  exitDeferred := fun _ =>
    ((spared.apart "exit-deferred:ar:" (by decide)).append _).not_ofKind spared.long
  cooldown := fun _ _ _ =>
    ((((((spared.apart "cooldown:ar:" (by decide)).append _).append _).append _).append _).append
      _).not_ofKind spared.long
  nudged

end Sparing

end OddJobs
