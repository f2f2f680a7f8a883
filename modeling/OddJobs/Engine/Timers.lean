import OddJobs.Engine.ActionMoves
import OddJobs.Engine.Traces

/-!
# Timers of jobs

A cooldown timer takes up an action again, an idle-grace timer takes the one for an
agent that is idle.  Both carry the id of a job, and act on the step at which they find
the job when they fire.
-/

namespace OddJobs

open Library

inductive StepTimer where
  | cooldown (rest : String)
  | idleGrace (jobId : JobId)
  deriving DecidableEq, Repr

def Timer.stepTimer? (id : TimerId) : Option StepTimer :=
  let ofAgentRun := ["idle-grace:ar:", "liveness:ar:", "exit-deferred:ar:", "cooldown:ar:"].any
    fun start => (Handler.withoutPrefix start id).isSome
  if ofAgentRun then none
  else
    match Handler.withoutPrefix "idle-grace:" id with
    | some jobId => some (.idleGrace jobId)
    | none => (Handler.withoutPrefix "cooldown:" id).map .cooldown

/-- `text.split_once(separator)`. -/
def splitFirst (separator : Char) (text : String) : Option (String × String) :=
  match text.toList.dropWhile (· ≠ separator) with
  | [] => none
  | _ :: rest => some (String.ofList (text.toList.takeWhile (· ≠ separator)), String.ofList rest)

/-- `text.parse::<usize>().unwrap_or(0)`. -/
def parseUsize (text : String) : Nat :=
  let digits := match text.toList with
    | '+' :: rest => rest
    | rest => rest
  let number := Nat.ofDigitChars 10 digits 0
  if digits.isEmpty || !digits.all Char.isDigit || U64_VALUES ≤ number then 0 else number

def splitCooldown (rest : String) : Option (JobId × String × Nat) := do
  let (jobId, rest) ← splitFirst ':' rest
  let (trigger, chainPos) ← splitFirst ':' rest
  some (jobId, trigger, parseUsize chainPos)

def AgentDef.cooldownAction (agentDef : AgentDef) (trigger : String) : Option ActionConfig :=
  match trigger with
  | "idle" => some agentDef.onIdle
  | "exit" => some agentDef.onDead
  | _ => none

namespace Handler

variable (outside : Outside)

def forAgent (job : Job) (next : AgentDef → Handler (List Event)) : Handler (List Event) := do
  let runbook ← cachedRunbook outside job.runbookHash
  match getAgentDef runbook job with
  | none => pure []
  | some agentDef => next agentDef

def retrigger (job : Job) (trigger : String) (chainPos : Nat) : Handler (List Event) :=
  forAgent outside job fun agentDef =>
    match agentDef.cooldownAction trigger with
    | none => pure []
    | some actionConfig => do
        let assistant ← assistantContext job
        executeActionWithAttempts outside job
          ⟨agentDef, actionConfig, trigger, chainPos, none, assistant⟩

def handleCooldownTimer (rest : String) : Handler (List Event) :=
  match splitCooldown rest with
  | none => pure []
  | some (jobId, trigger, chainPos) => do
      let job ← readState (·.getJob jobId)
      match job.filter (!·.isTerminal) with
      | none => pure []
      | some job => retrigger outside job trigger chainPos

/-- Forget how long the session log was when the agent became idle. -/
def clearGrace (jobId : JobId) : Handler Unit :=
  updateJobState jobId fun job => { job with idleGraceLogSize := none }

/-- Whether the agent of the job's step has written to its log since, or is at work. -/
def agentActive (job : Job) : Handler Bool :=
  match job.stepAgentId with
  | none => pure false
  | some agentId => do
      let logged ← nextReading
      let observed ← nextReading
      pure (decide (job.idleGraceLogSize.getD 0 < logged.sessionLogSize agentId) ||
        observed.agentState agentId == some .working)

def proceedIdle (jobId : JobId) : Handler (List Event) := do
  let job ← readState (·.getJob jobId)
  match job with
  | none => pure []
  | some job => forAgent outside job fun agentDef =>
      handleMonitorState outside job agentDef .waitingForInput

def handleIdleGraceTimer (jobId : JobId) : Handler (List Event) := do
  let job ← readState (·.getJob jobId)
  match job with
  | none => pure []
  | some job =>
      if job.isTerminal || job.stepStatus.isWaiting then do
        clearGrace jobId
        pure []
      else do
        let active ← agentActive job
        clearGrace jobId
        if active then pure [] else proceedIdle outside jobId

def handleStepTimer : StepTimer → Handler (List Event)
  | .cooldown rest => handleCooldownTimer outside rest
  | .idleGrace jobId => handleIdleGraceTimer outside jobId

end Handler

def OtherHandlers.withActions (outside : Outside) (others : OtherHandlers) : OtherHandlers :=
  { others with
    monitorJob := fun job agentDef state =>
      Handler.handleMonitorState outside job agentDef (.fromAgentState state)
    timer := fun id =>
      match Timer.stepTimer? id with
      | some timer => Handler.handleStepTimer outside timer
      | none => others.timer id }

/-! ## What a timer leaves alone -/

def Job.standing (job : Job) : String × StepStatus × ActionTracker :=
  (job.step, job.stepStatus, job.actionTracker)

/-- No event is applied, nothing is asked of the adapters or of the scheduler, and every
job stands where it stood. -/
structure Harmless (before after : Runtime) : Prop where
  applied : after.world.applied = before.world.applied
  requests : after.world.requests = before.world.requests
  timers : after.world.timers = before.world.timers
  jobs : ∀ id : JobId, (after.world.state.jobs[id]?).map Job.standing =
    (before.world.state.jobs[id]?).map Job.standing

namespace Harmless

theorem of_world {before after : Runtime} (same : after.world = before.world) :
    Harmless before after := by
  constructor
  · rw [same]
  · rw [same]
  · rw [same]
  · intro id
    rw [same]

theorem symm {before after : Runtime} (harmless : Harmless before after) :
    Harmless after before where
  applied := harmless.applied.symm
  requests := harmless.requests.symm
  timers := harmless.timers.symm
  jobs := fun id => (harmless.jobs id).symm

theorem closed : Closed Harmless where
  refl := fun _ => of_world rfl
  trans := fun early late => {
    applied := late.applied.trans early.applied
    requests := late.requests.trans early.requests
    timers := late.timers.trans early.timers
    jobs := fun id => (late.jobs id).trans (early.jobs id) }

/-- What is done after something harmless does harm as a whole. -/
theorem harm {before between after : Runtime} (harmless : Harmless before between)
    (harms : ¬Harmless between after) : ¬Harmless before after :=
  fun whole => harms (closed.trans harmless.symm whole)

end Harmless

/-- Something has been applied, or every job stands where it stood. -/
def Untouched (before after : Trace) : Prop :=
  before.applied.length < after.applied.length ∨
    after.applied = before.applied ∧ ∀ id : JobId, (after.state.jobs[id]?).map Job.standing =
      (before.state.jobs[id]?).map Job.standing

theorem tracing_untouched (order : WalkOrder) : Tracing order (fun _ => True) Untouched where
  refl := fun _ => .inr ⟨rfl, fun _ => rfl⟩
  trans := by
    rintro first second third (more | ⟨applied, same⟩) (later | ⟨applied', same'⟩)
    · exact .inl (Nat.lt_trans more later)
    · exact .inl (applied' ▸ more)
    · exact .inl (applied ▸ later)
    · exact .inr ⟨applied'.trans applied, fun id => (same' id).trans (same id)⟩
  event := by
    intro event _ clock trace
    have applied : (trace.apply order clock event).applied = trace.applied ++ [event] := rfl
    rw [Untouched, applied, List.length_append]
    exact .inl (Nat.lt_succ_self _)
  cleaning := fun _ _ => .inr ⟨rfl, fun _ => rfl⟩

/-! ## What an action does -/

theorem acting_untouched (outside : Outside) :
    Acting (.permitting fun _ => True) outside (Traced Untouched) where
  toCourse := (tracing_untouched outside.order).course
  covers := free_covers
  routes := free_route
  decides := fun _ _ _ _ _ _ _ _ _ => trivial
  cooldown := fun _ _ _ => trivial
  nudged := by
    refine fun runtime id nudgedAt => .inr ⟨rfl, fun other => ?_⟩
    change ((runtime.world.state.updateJob id _).jobs[other]?).map Job.standing = _
    rw [MaterializedState.lookup_updateJob]
    split
    · rw [Option.map_map]
      exact Option.map_congr fun job _ => rfl
    · rfl

namespace Handler

variable (outside : Outside)

theorem countAttempt_run (id : JobId) (trigger : String) (chainPos : Nat) (runtime : Runtime) :
    ∃ attempts, countAttempt id trigger chainPos runtime =
      (.ok attempts, { runtime with world := { runtime.world with
        state := runtime.world.state.updateJob id (·.incrementActionAttempt trigger chainPos) } }) :=
  ⟨_, rfl⟩

/-- Once the attempt has been counted, only what is applied can change where a job stands. -/
theorem executeActionWithAttempts_untouched (job : Job) (context : ActionContext)
    (runtime : Runtime) :
    Traced Untouched { runtime with world := { runtime.world with
        state := runtime.world.state.updateJob job.id
          (·.incrementActionAttempt context.trigger context.chainPos) } }
      (executeActionWithAttempts outside job context runtime).2 := by
  obtain ⟨attempts, counted⟩ := countAttempt_run job.id context.trigger context.chainPos runtime
  rw [executeActionWithAttempts, Program.bind_ok counted]
  exact (acting_untouched outside).afterCount_moves job context attempts _

end Handler

theorem ActionTracker.incremented (tracker : ActionTracker) (trigger : String) (chainPos : Nat) :
    (tracker.incrementActionAttempt trigger chainPos).getActionAttempt trigger chainPos =
      tracker.getActionAttempt trigger chainPos + 1 := by
  unfold incrementActionAttempt
  rw [getActionAttempt, Table.lookup_insert, if_pos rfl]
  rfl

/-- An action on a job that is there is not without consequences: its attempt is counted. -/
theorem executeActionWithAttempts_acts (outside : Outside) {job stored : Job}
    (context : ActionContext) {runtime : Runtime}
    (found : runtime.world.state.jobs[job.id]? = some stored) :
    ¬Harmless runtime (Handler.executeActionWithAttempts outside job context runtime).2 := by
  intro harmless
  rcases Handler.executeActionWithAttempts_untouched outside job context runtime with
    more | ⟨_, same⟩
  · have applied := congrArg List.length harmless.applied
    exact absurd applied (Nat.ne_of_gt more)
  · have kept := (same job.id).symm.trans (harmless.jobs job.id)
    have counted : (runtime.world.state.updateJob job.id
        (·.incrementActionAttempt context.trigger context.chainPos)).jobs[job.id]? =
        some (stored.incrementActionAttempt context.trigger context.chainPos) := by
      rw [MaterializedState.lookup_updateJob, if_pos rfl, found]
      rfl
    change ((runtime.world.state.updateJob job.id _).jobs[job.id]?).map Job.standing = _ at kept
    rw [counted, found] at kept
    have trackers := congrArg (fun standing => standing.2.2) (Option.some.inj kept)
    have attempts := congrArg (·.getActionAttempt context.trigger context.chainPos) trackers
    have one_more := stored.actionTracker.incremented context.trigger context.chainPos
    exact absurd (one_more.symm.trans attempts) (Nat.succ_ne_self _)

/-! ## What a timer finds -/

namespace Runtime

def agentOf (outside : Outside) (runtime : Runtime) (job : Job) : Option AgentDef :=
  (runtime.runbookAt outside job.runbookHash).bind (Handler.getAgentDef · job)

/-- Whether the agent of the job's step is seen at work: its log has grown since it became
idle, or it is observed to work. -/
def seesAtWork (runtime : Runtime) (job : Job) : Bool :=
  match job.stepAgentId with
  | none => false
  | some agentId =>
      decide (job.idleGraceLogSize.getD 0 < (runtime.readings 0).sessionLogSize agentId) ||
        (runtime.readings 1).agentState agentId == some .working

end Runtime

/-- Every job is stored under its own id. -/
def MaterializedState.Keyed (state : MaterializedState) : Prop :=
  ∀ (id : JobId) (job : Job), state.jobs[id]? = some job → job.id = id

/-- A timer that fires does nothing: it finds no job, or one that has ended or has no
agent at its step; or the timer of a cooldown is of another trigger; or the agent that was
idle is at work, or waits for a person. -/
def StepTimer.Exits (outside : Outside) (runtime : Runtime) : StepTimer → Prop
  | .cooldown rest => ∀ jobId trigger chainPos job,
      splitCooldown rest = some (jobId, trigger, chainPos) →
      runtime.world.state.getJob jobId = some job →
      job.isTerminal = true ∨ runtime.agentOf outside job = none ∨
        (trigger ≠ "idle" ∧ trigger ≠ "exit")
  | .idleGrace jobId => ∀ job, runtime.world.state.getJob jobId = some job →
      job.isTerminal = true ∨ runtime.agentOf outside job = none ∨
        job.stepStatus.isWaiting = true ∨ runtime.seesAtWork job = true

/-- Where the job has no agent at its step, its idle-grace timer exits. -/
theorem StepTimer.exits_of_agentless {outside : Outside} {runtime : Runtime} {jobId : JobId}
    (agentless : ∀ job, runtime.world.state.getJob jobId = some job →
      runtime.agentOf outside job = none) : (idleGrace jobId).Exits outside runtime :=
  fun job found => .inr (.inl (agentless job found))

theorem AgentDef.cooldownAction_eq_none (agentDef : AgentDef) (trigger : String) :
    agentDef.cooldownAction trigger = none ↔ trigger ≠ "idle" ∧ trigger ≠ "exit" := by
  unfold cooldownAction
  split
  · simp
  · simp
  · rename_i idle exit
    exact ⟨fun _ => ⟨idle, exit⟩, fun _ => rfl⟩

theorem MaterializedState.getJob_stored {state : MaterializedState} (keyed : state.Keyed)
    {id : String} {job : Job} (found : state.getJob id = some job) :
    state.jobs[job.id]? = some job := by
  unfold getJob at found
  cases present : state.jobs[id]? with
  | some exact_ =>
      rw [present] at found
      cases found
      rw [keyed id job present]
      exact present
  | none =>
      rw [present] at found
      dsimp only at found
      split at found
      · rename_i entry only
        cases found
        have member : entry ∈ state.jobs.toList := by
          have kept : entry ∈ state.jobs.toList.filter fun entry =>
              id.toList.isPrefixOf entry.1.toList := only ▸ List.mem_singleton_self entry
          exact (List.mem_filter.mp kept).1
        have stored : state.jobs[entry.1]? = some entry.2 :=
          Std.ExtTreeMap.mem_toList_iff_getElem?_eq_some.mp member
        rw [keyed entry.1 entry.2 stored]
        exact stored
      · cases found

namespace Handler

variable (outside : Outside) {job : Job} {runtime : Runtime}

theorem forAgent_world (absent : runtime.agentOf outside job = none)
    (next : AgentDef → Handler (List Event)) :
    (forAgent outside job next runtime).2.world = runtime.world := by
  unfold forAgent
  cases known : runtime.runbookAt outside job.runbookHash with
  | none =>
      obtain ⟨error, failed⟩ := cachedRunbook_unknown outside known
      rw [Program.bind_error failed]
  | some runbook =>
      obtain ⟨_, ran, _⟩ := cachedRunbook_known outside known
      have gone : getAgentDef runbook job = none := by
        rw [Runtime.agentOf, known] at absent
        exact absent
      rw [Program.bind_ok ran, gone]
      rfl

theorem forAgent_harmless (absent : runtime.agentOf outside job = none)
    (next : AgentDef → Handler (List Event)) :
    Harmless runtime (forAgent outside job next runtime).2 :=
  .of_world (forAgent_world outside absent next)

theorem forAgent_run {agentDef : AgentDef} (present : runtime.agentOf outside job = some agentDef)
    (next : AgentDef → Handler (List Event)) :
    ∃ middle : Runtime, middle.world = runtime.world ∧
      forAgent outside job next runtime = next agentDef middle := by
  unfold forAgent
  obtain ⟨runbook, known, found⟩ := Option.bind_eq_some_iff.mp present
  obtain ⟨runbookCache, ran, _⟩ := cachedRunbook_known outside known
  refine ⟨{ runtime with runbookCache }, rfl, ?_⟩
  rw [Program.bind_ok ran, found]

theorem assistantContext_run (job : Job) (runtime : Runtime) :
    ∃ (assistant : Option String) (after : Runtime), after.world = runtime.world ∧
      assistantContext job runtime = (.ok assistant, after) := by
  unfold assistantContext
  cases job.stepAgentId with
  | none => exact ⟨none, runtime, rfl, rfl⟩
  | some agentId => exact ⟨_, runtime.afterReading, rfl, rfl⟩

/-- The action of an agent, once the last message of the agent has been fetched. -/
theorem assistedAction_acts (context : Option String → ActionContext) {stored : Job}
    (found : runtime.world.state.jobs[job.id]? = some stored) :
    ¬Harmless runtime ((do
      let assistant ← assistantContext job
      executeActionWithAttempts outside job (context assistant) : Handler (List Event))
        runtime).2 := by
  obtain ⟨assistant, after, world, ran⟩ := assistantContext_run job runtime
  rw [Program.bind_ok ran]
  rw [← world] at found
  exact (Harmless.of_world world).harm (executeActionWithAttempts_acts outside _ found)

/-! ## Firing -/

theorem retrigger_world {trigger : String} (chainPos : Nat)
    (gone : runtime.agentOf outside job = none ∨ (trigger ≠ "idle" ∧ trigger ≠ "exit")) :
    (retrigger outside job trigger chainPos runtime).2.world = runtime.world := by
  cases present : runtime.agentOf outside job with
  | none => exact forAgent_world outside present _
  | some agentDef =>
      obtain ⟨middle, world, ran⟩ := forAgent_run outside present fun agentDef =>
        match agentDef.cooldownAction trigger with
        | none => pure []
        | some actionConfig => do
            let assistant ← assistantContext job
            executeActionWithAttempts outside job
              ⟨agentDef, actionConfig, trigger, chainPos, none, assistant⟩
      have other : trigger ≠ "idle" ∧ trigger ≠ "exit" := by
        rcases gone with absent | other
        · rw [present] at absent
          cases absent
        · exact other
      rw [(agentDef.cooldownAction_eq_none trigger).mpr other] at ran
      rw [retrigger, ran]
      exact world

theorem retrigger_harmless {trigger : String} (chainPos : Nat)
    (gone : runtime.agentOf outside job = none ∨ (trigger ≠ "idle" ∧ trigger ≠ "exit")) :
    Harmless runtime (retrigger outside job trigger chainPos runtime).2 :=
  .of_world (retrigger_world outside chainPos gone)

theorem retrigger_acts {trigger : String} (chainPos : Nat) {stored : Job}
    (found : runtime.world.state.jobs[job.id]? = some stored) {agentDef : AgentDef}
    (present : runtime.agentOf outside job = some agentDef)
    (known : ¬(trigger ≠ "idle" ∧ trigger ≠ "exit")) :
    ¬Harmless runtime (retrigger outside job trigger chainPos runtime).2 := by
  obtain ⟨middle, world, ran⟩ := forAgent_run outside present fun agentDef =>
    match agentDef.cooldownAction trigger with
    | none => pure []
    | some actionConfig => do
        let assistant ← assistantContext job
        executeActionWithAttempts outside job
          ⟨agentDef, actionConfig, trigger, chainPos, none, assistant⟩
  cases configured : agentDef.cooldownAction trigger with
  | none => exact absurd ((agentDef.cooldownAction_eq_none trigger).mp configured) known
  | some actionConfig =>
      rw [configured] at ran
      rw [retrigger, ran]
      rw [← world] at found
      exact (Harmless.of_world world).harm (assistedAction_acts outside _ found)

theorem cooldown_exits_iff {rest : String} {jobId : JobId} {trigger : String} {chainPos : Nat}
    (named : splitCooldown rest = some (jobId, trigger, chainPos))
    (found : runtime.world.state.getJob jobId = some job) :
    (StepTimer.cooldown rest).Exits outside runtime ↔ job.isTerminal = true ∨
      runtime.agentOf outside job = none ∨ (trigger ≠ "idle" ∧ trigger ≠ "exit") := by
  constructor
  · exact fun exits => exits jobId trigger chainPos job named found
  · intro exits _ _ _ _ same present
    rw [named] at same
    cases same
    rw [found] at present
    cases present
    exact exits

/-- A cooldown timer does nothing exactly when it exits. -/
theorem handleCooldownTimer_harmless_iff (keyed : runtime.world.state.Keyed) (rest : String) :
    Harmless runtime (handleCooldownTimer outside rest runtime).2 ↔
      (StepTimer.cooldown rest).Exits outside runtime := by
  unfold handleCooldownTimer
  cases named : splitCooldown rest with
  | none =>
      refine ⟨fun _ jobId trigger chainPos job same => ?_, fun _ => .of_world rfl⟩
      rw [named] at same
      cases same
  | some parts =>
      obtain ⟨jobId, trigger, chainPos⟩ := parts
      dsimp only
      rw [readState, Program.run_bind, Program.run_read]
      dsimp only
      cases found : runtime.world.state.getJob jobId with
      | none =>
          refine ⟨fun _ _ _ _ _ same present => ?_, fun _ => .of_world rfl⟩
          rw [named] at same
          cases same
          rw [found] at present
          cases present
      | some job =>
          rw [cooldown_exits_iff outside named found, Option.filter_some]
          cases ended : job.isTerminal with
          | true => exact ⟨fun _ => .inl rfl, fun _ => .of_world rfl⟩
          | false =>
              constructor
              · intro harmless
                refine .inr (Classical.byContradiction fun acts => ?_)
                obtain ⟨agent, known⟩ := not_or.mp acts
                obtain ⟨agentDef, present⟩ := Option.ne_none_iff_exists'.mp agent
                exact retrigger_acts outside chainPos (MaterializedState.getJob_stored keyed found)
                  present known harmless
              · rintro (terminal | gone)
                · cases terminal
                · exact retrigger_harmless outside chainPos gone

/-- The action for an agent that is idle is taken if there is an agent. -/
theorem proceedIdle_harmless_iff (keyed : runtime.world.state.Keyed) {jobId : JobId}
    (found : runtime.world.state.getJob jobId = some job) :
    Harmless runtime (proceedIdle outside jobId runtime).2 ↔
      runtime.agentOf outside job = none := by
  unfold proceedIdle
  rw [readState, Program.run_bind, Program.run_read]
  dsimp only
  rw [found]
  dsimp only
  cases present : runtime.agentOf outside job with
  | none => exact ⟨fun _ => rfl, fun _ => forAgent_harmless outside present _⟩
  | some agentDef =>
      obtain ⟨middle, world, ran⟩ := forAgent_run outside present fun agentDef =>
        handleMonitorState outside job agentDef .waitingForInput
      rw [ran]
      have stored := MaterializedState.getJob_stored keyed found
      rw [← world] at stored
      have acts : ¬Harmless middle
          (handleMonitorState outside job agentDef .waitingForInput middle).2 :=
        assistedAction_acts outside
          (fun assistant => ⟨agentDef, agentDef.onIdle, "idle", 0, none, assistant⟩) stored
      have known : some agentDef ≠ none := Option.some_ne_none agentDef
      exact ⟨fun harmless => absurd harmless ((Harmless.of_world world).harm acts),
        fun unknown => absurd unknown known⟩

theorem agentActive_run (job : Job) (runtime : Runtime) :
    ∃ after : Runtime, after.world = runtime.world ∧ after.runbookCache = runtime.runbookCache ∧
      agentActive job runtime = (.ok (runtime.seesAtWork job), after) := by
  unfold agentActive Runtime.seesAtWork
  cases job.stepAgentId with
  | none => exact ⟨runtime, rfl, rfl, rfl⟩
  | some agentId => exact ⟨runtime.afterReading.afterReading, rfl, rfl, rfl⟩

theorem clearGrace_harmless (jobId : JobId) (runtime : Runtime) :
    Harmless runtime (clearGrace jobId runtime).2 where
  applied := rfl
  requests := rfl
  timers := rfl
  jobs := by
    intro id
    change ((runtime.world.state.updateJob jobId _).jobs[id]?).map Job.standing = _
    rw [MaterializedState.lookup_updateJob]
    split
    · rw [Option.map_map]
      exact Option.map_congr fun job _ => rfl
    · rfl

end Handler

theorem MaterializedState.Keyed.updateJob {state : MaterializedState} (keyed : state.Keyed)
    (id : JobId) {update : Job → Job} (same : ∀ job, (update job).id = job.id) :
    (state.updateJob id update).Keyed := by
  intro other job found
  rw [lookup_updateJob] at found
  split at found
  · obtain ⟨prior, present, rfl⟩ := Option.map_eq_some_iff.mp found
    exact (same prior).trans (keyed other prior present)
  · exact keyed other job found

/-- The job that a lookup finds is found again after an update under the same text. -/
theorem MaterializedState.getJob_updateJob {state : MaterializedState} {id : String} {job : Job}
    (found : state.getJob id = some job) (update : Job → Job) :
    (state.updateJob id update).getJob id = some (update job) ∨
      (state.updateJob id update).getJob id = some job := by
  cases present : state.jobs[id]? with
  | none =>
      rw [updateJob_missing state present]
      exact .inr found
  | some stored =>
      have same := (getJob_found present).symm.trans found
      cases same
      refine .inl (getJob_found ?_)
      rw [lookup_updateJob, if_pos rfl, present]
      rfl

namespace Handler

variable (outside : Outside) {job : Job} {runtime : Runtime}

/-- Once the grace period is cleared, the agent is still found. -/
theorem proceedIdle_cleared (keyed : runtime.world.state.Keyed) {jobId : JobId}
    (found : runtime.world.state.getJob jobId = some job) :
    Harmless (clearGrace jobId runtime).2
        (proceedIdle outside jobId (clearGrace jobId runtime).2).2 ↔
      runtime.agentOf outside job = none := by
  have keyed' : (clearGrace jobId runtime).2.world.state.Keyed :=
    keyed.updateJob jobId fun _ => rfl
  rcases MaterializedState.getJob_updateJob found fun job => { job with idleGraceLogSize := none }
    with cleared | kept
  · have proceeds := proceedIdle_harmless_iff outside keyed' cleared
    exact proceeds
  · have proceeds := proceedIdle_harmless_iff outside keyed' kept
    exact proceeds

/-- An idle-grace timer does nothing exactly when it exits. -/
theorem handleIdleGraceTimer_harmless_iff (keyed : runtime.world.state.Keyed) (jobId : JobId) :
    Harmless runtime (handleIdleGraceTimer outside jobId runtime).2 ↔
      (StepTimer.idleGrace jobId).Exits outside runtime := by
  unfold handleIdleGraceTimer
  rw [readState, Program.run_bind, Program.run_read]
  dsimp only
  cases found : runtime.world.state.getJob jobId with
  | none =>
      refine ⟨fun _ job present => ?_, fun _ => .of_world rfl⟩
      rw [found] at present
      cases present
  | some job =>
      have exits : (StepTimer.idleGrace jobId).Exits outside runtime ↔
          job.isTerminal = true ∨ runtime.agentOf outside job = none ∨
            job.stepStatus.isWaiting = true ∨ runtime.seesAtWork job = true := by
        constructor
        · exact fun exits => exits job found
        · intro exits other present
          rw [found] at present
          cases present
          exact exits
      rw [exits]
      dsimp only
      split
      · rename_i settled
        have stopped := clearGrace_harmless jobId runtime
        rw [Bool.or_eq_true] at settled
        refine ⟨fun _ => ?_, fun _ => stopped⟩
        rcases settled with ended | waits
        · exact .inl ended
        · exact .inr (.inr (.inl waits))
      · rename_i going
        rw [Bool.or_eq_true, not_or] at going
        obtain ⟨after, world, cache, ran⟩ := agentActive_run job runtime
        have cleared := clearGrace_harmless jobId after
        have before : Harmless runtime after := .of_world world
        rw [Program.bind_ok ran]
        cases active : runtime.seesAtWork job with
        | true =>
            exact ⟨fun _ => .inr (.inr (.inr rfl)), fun _ => Harmless.closed.trans before cleared⟩
        | false =>
            have keyed' : after.world.state.Keyed := world ▸ keyed
            have found' : after.world.state.getJob jobId = some job := world ▸ found
            have sameAgent : after.agentOf outside job = runtime.agentOf outside job := by
              unfold Runtime.agentOf
              rw [Runtime.runbookAt_congr outside cache (congrArg (·.state.runbooks) world)]
            have proceeds := proceedIdle_cleared outside keyed' found'
            rw [sameAgent] at proceeds
            have whole : Harmless runtime (proceedIdle outside jobId (clearGrace jobId after).2).2 ↔
                runtime.agentOf outside job = none := by
              have start := Harmless.closed.trans before cleared
              rw [← proceeds]
              exact ⟨Harmless.closed.trans start.symm, Harmless.closed.trans start⟩
            refine whole.trans ⟨fun gone => .inr (.inl gone), ?_⟩
            rintro (ended | gone | waits | working)
            · exact absurd ended going.1
            · exact gone
            · exact absurd waits going.2
            · cases working

/-- A timer that fires does nothing exactly when it exits. -/
theorem handleStepTimer_harmless_iff (keyed : runtime.world.state.Keyed) (timer : StepTimer) :
    Harmless runtime (handleStepTimer outside timer runtime).2 ↔ timer.Exits outside runtime := by
  cases timer with
  | cooldown rest => exact handleCooldownTimer_harmless_iff outside keyed rest
  | idleGrace jobId => exact handleIdleGraceTimer_harmless_iff outside keyed jobId

end Handler

end OddJobs
