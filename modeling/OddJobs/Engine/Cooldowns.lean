import OddJobs.Engine.AgentRuns
import OddJobs.Engine.Timers

/-!
# Cooldowns

Between attempts a cooldown timer is set.  Its name says whose action it is, under which
trigger it is taken and where in the chain it stands; when the timer fires, the action is
looked up by that trigger.
-/

namespace OddJobs

open Library

def Timer.ownerCooldown : OwnerId → String → Nat → TimerId
  | .job id => cooldown id
  | .agentRun id => cooldownAgentRun id

def OwnerId.text : OwnerId → String
  | .job id => id
  | .agentRun id => id

def MonitorState.trigger : MonitorState → Option String
  | working => none
  | waitingForInput => some "idle"
  | prompting promptType _ _ =>
      some (if promptType = .question then "prompt:question" else "prompt")
  | failed message _ => some message
  | exited | gone => some "exit"

def AgentDef.configured (agentDef : AgentDef) : MonitorState → Option ActionConfig
  | .working => none
  | .waitingForInput => some agentDef.onIdle
  | .prompting _ _ _ => some agentDef.onPrompt
  | .failed _ errorType => some (agentDef.onError.actionFor errorType)
  | .exited | .gone => some agentDef.onDead

namespace Handler

variable (outside : Outside)

def forRun (run : AgentRun) (next : AgentDef → Handler (List Event)) : Handler (List Event) := do
  let runbook ← cachedRunbook outside run.runbookHash
  let agentDef ← require (.agentNotFound run.agentName) (runbook.getAgent run.agentName)
  next agentDef

/-- Take up the action of a trigger of a standalone agent again. -/
def retriggerRun (run : AgentRun) (trigger : String) (chainPos : Nat) : Handler (List Event) :=
  forRun outside run fun agentDef =>
    match agentDef.cooldownAction trigger with
    | none => pure []
    | some actionConfig => do
        let assistant ← runAssistantContext run
        executeStandaloneActionWithAttempts outside run
          ⟨agentDef, actionConfig, trigger, chainPos, none, assistant⟩

def forActiveJob (id : JobId) (next : Job → Handler (List Event)) : Handler (List Event) := do
  let job ← readState (·.getJob id)
  match job.filter (!·.isTerminal) with
  | none => pure []
  | some job => next job

def forActiveRun (id : AgentRunId) (next : AgentRun → Handler (List Event)) :
    Handler (List Event) := do
  let run ← readState (·.agentRuns[id]?)
  match run.filter (!·.status.isTerminal) with
  | none => pure []
  | some run => next run

def handleAgentRunCooldownTimer (rest : String) : Handler (List Event) :=
  match splitCooldown rest with
  | none => pure []
  | some (runId, trigger, chainPos) =>
      forActiveRun runId fun run => retriggerRun outside run trigger chainPos

/-- The configured action of a state is taken again, at a position of its chain. -/
def actAgain (job : Job) (agentDef : AgentDef) (state : MonitorState) (chainPos : Nat) :
    Handler (List Event) :=
  match state.trigger, agentDef.configured state with
  | some trigger, some actionConfig => do
      let assistant ← assistantContext job
      executeActionWithAttempts outside job
        ⟨agentDef, actionConfig, trigger, chainPos, none, assistant⟩
  | _, _ => pure []

def actAgainAlone (run : AgentRun) (agentDef : AgentDef) (state : MonitorState) (chainPos : Nat) :
    Handler (List Event) :=
  match state.trigger, agentDef.configured state with
  | some trigger, some actionConfig => do
      let assistant ← runAssistantContext run
      executeStandaloneActionWithAttempts outside run
        ⟨agentDef, actionConfig, trigger, chainPos, none, assistant⟩
  | _, _ => pure []

/-- What a cooldown is for: if the owner is still there and has not ended, the action that
its agent has for the state is taken again. -/
def takeUpAgain (state : MonitorState) (chainPos : Nat) : OwnerId → Handler (List Event)
  | .job id => forActiveJob id fun job => forAgent outside job fun agentDef =>
      actAgain outside job agentDef state chainPos
  | .agentRun id => forActiveRun id fun run => forRun outside run fun agentDef =>
      actAgainAlone outside run agentDef state chainPos

end Handler

/-- The other handlers, with those of agent actions and of the cooldowns of standalone
agents. -/
def OtherHandlers.withCooldowns (outside : Outside) (others : OtherHandlers) : OtherHandlers :=
  { others.withActions outside with
    timer := fun id =>
      match Handler.withoutPrefix "cooldown:ar:" id with
      | some rest => Handler.handleAgentRunCooldownTimer outside rest
      | none => (others.withActions outside).timer id }

/-! ## Names of timers -/

theorem splitFirst_append {front : String} (free : ':' ∉ front.toList) (rest : String) :
    splitFirst ':' (front ++ ":" ++ rest) = some (front, rest) := by
  have chars : (front ++ ":" ++ rest).toList = front.toList ++ ':' :: rest.toList := by
    rw [String.toList_append, String.toList_append, List.append_assoc]
    rfl
  have inside : ∀ c ∈ front.toList, decide (c ≠ ':') = true := by
    intro c member
    rw [decide_eq_true_eq]
    rintro rfl
    exact free member
  unfold splitFirst
  rw [chars, List.dropWhile_append_of_pos inside, List.takeWhile_append_of_pos inside,
    List.dropWhile_cons_of_neg (by decide), List.takeWhile_cons_of_neg (by decide),
    List.append_nil, String.ofList_toList]
  dsimp only
  rw [String.ofList_toList]

theorem splitFirst_of_mem {separator : Char} {text : String} (member : separator ∈ text.toList) :
    ∃ front rest, splitFirst separator text = some (front, rest) := by
  unfold splitFirst
  cases left : text.toList.dropWhile (· ≠ separator) with
  | nil =>
      have all := List.dropWhile_eq_nil_iff.mp left separator member
      rw [decide_eq_true_eq] at all
      exact absurd rfl all
  | cons c rest => exact ⟨_, _, rfl⟩

/-- A number is read back as it is written. -/
theorem parseUsize_toString {number : Nat} (bounded : number < U64_VALUES) :
    parseUsize (toString number) = number := by
  have chars : (toString number).toList = Nat.toDigits 10 number := Nat.toList_repr
  have numeric : ∀ c ∈ Nat.toDigits 10 number, c.isDigit = true :=
    fun c => Nat.isDigit_of_mem_toDigits (by decide) (by decide)
  have nonempty : (Nat.toDigits 10 number).isEmpty = false :=
    Bool.eq_false_iff.mpr fun empty => Nat.toDigits_ne_nil (List.isEmpty_iff.mp empty)
  have all : (Nat.toDigits 10 number).all Char.isDigit = true := List.all_eq_true.mpr numeric
  unfold parseUsize
  rw [chars]
  dsimp only
  split
  · rename_i rest same
    -- a sign is no digit
    have digit := numeric '+' (by rw [same]; exact List.mem_cons_self)
    cases digit
  · rw [Nat.ofDigitChars_ten_toDigits, nonempty, all, decide_eq_false (Nat.not_le.mpr bounded)]
    rfl

section Split

variable {id trigger : String} {chainPos : Nat}

/-- What a cooldown timer is named after is found in its name, if its trigger is one word. -/
theorem splitCooldown_word (free : ':' ∉ id.toList) (word : ':' ∉ trigger.toList)
    (bounded : chainPos < U64_VALUES) :
    splitCooldown (id ++ ":" ++ trigger ++ ":" ++ toString chainPos) =
      some (id, trigger, chainPos) := by
  have split : id ++ ":" ++ trigger ++ ":" ++ toString chainPos =
      id ++ ":" ++ (trigger ++ ":" ++ toString chainPos) := by
    simp only [String.append_assoc]
  unfold splitCooldown
  rw [split, splitFirst_append free, Option.bind_eq_bind, Option.bind_some]
  dsimp only
  rw [splitFirst_append word, Option.bind_some, parseUsize_toString bounded]

/-- The owner is found in any case. -/
theorem splitCooldown_owner (free : ':' ∉ id.toList) (trigger : String) (chainPos : Nat) :
    ∃ found position, splitCooldown (id ++ ":" ++ trigger ++ ":" ++ toString chainPos) =
      some (id, found, position) := by
  have split : id ++ ":" ++ trigger ++ ":" ++ toString chainPos =
      id ++ ":" ++ (trigger ++ ":" ++ toString chainPos) := by
    simp only [String.append_assoc]
  have marked : ':' ∈ (trigger ++ ":" ++ toString chainPos).toList := by
    rw [String.toList_append, String.toList_append]
    exact List.mem_append_left _ (List.mem_append_right _ (List.mem_singleton_self ':'))
  obtain ⟨found, rest, parts⟩ := splitFirst_of_mem marked
  refine ⟨found, parseUsize rest, ?_⟩
  unfold splitCooldown
  rw [split, splitFirst_append free, Option.bind_eq_bind, Option.bind_some]
  dsimp only
  rw [parts, Option.bind_some]

end Split

/-! ## Routing -/

/-- Only a job called `ar` has the prefix of the timers of agent runs. -/
theorem withoutPrefix_cooldown {id : JobId} (free : ':' ∉ id.toList) (other : id ≠ "ar")
    (rest : String) : Handler.withoutPrefix "cooldown:ar:" ("cooldown:" ++ (id ++ ":" ++ rest)) =
      none := by
  cases stripped : Handler.withoutPrefix "cooldown:ar:" ("cooldown:" ++ (id ++ ":" ++ rest)) with
  | none => rfl
  | some left =>
      have whole : "cooldown:ar:" ++ left = "cooldown:" ++ ("ar" ++ ":" ++ left) := by
        simp only [← String.append_assoc]
        rfl
      have same := (Timer.withoutPrefix_eq_some stripped).trans whole
      have split := Timer.append_inj same
      have known := splitFirst_append free rest
      rw [split, splitFirst_append (by decide)] at known
      exact absurd (Prod.mk.inj (Option.some.inj known)).1.symm other

namespace Handler

variable (outside : Outside) (others : OtherHandlers)

theorem handleTimer_cooldown (rest : String) :
    handleTimer outside others ("cooldown:" ++ rest) = others.timer ("cooldown:" ++ rest) := by
  have retry : Timer.Apart "queue-retry:" "cooldown:" := ⟨by decide, by decide⟩
  have poll : Timer.Apart "queue-poll:" "cooldown:" := ⟨by decide, by decide⟩
  unfold handleTimer
  rw [retry.withoutPrefix (by decide) rest]
  dsimp only
  rw [poll.withoutPrefix (by decide) rest]

theorem stepTimer_cooldown {rest : String}
    (alone : withoutPrefix "cooldown:ar:" ("cooldown:" ++ rest) = none) :
    Timer.stepTimer? ("cooldown:" ++ rest) = some (.cooldown rest) := by
  have apart : ∀ kind ∈ ["idle-grace:ar:", "liveness:ar:", "exit-deferred:ar:", "idle-grace:"],
      withoutPrefix kind ("cooldown:" ++ rest) = none := by
    intro kind member
    simp only [List.mem_cons, List.not_mem_nil, or_false] at member
    rcases member with rfl | rfl | rfl | rfl <;>
      exact Timer.Apart.withoutPrefix ⟨by decide, by decide⟩ (by decide) rest
  have ofJob : (["idle-grace:ar:", "liveness:ar:", "exit-deferred:ar:", "cooldown:ar:"].any
      fun start => (withoutPrefix start ("cooldown:" ++ rest)).isSome) = false := by
    rw [List.any_eq_false]
    intro start member
    simp only [List.mem_cons, List.not_mem_nil, or_false] at member
    rcases member with rfl | rfl | rfl | rfl
    · rw [apart _ (by decide)]
      decide
    · rw [apart _ (by decide)]
      decide
    · rw [apart _ (by decide)]
      decide
    · rw [alone]
      decide
  unfold Timer.stepTimer?
  dsimp only
  rw [ofJob, apart "idle-grace:" (by decide), Timer.withoutPrefix_append]
  rfl

/-- The cooldown timer of a job is handled as such, unless the job is called `ar`. -/
theorem handleTimer_job {id : JobId} (free : ':' ∉ id.toList) (other : id ≠ "ar")
    (trigger : String) (chainPos : Nat) :
    handleTimer outside (others.withCooldowns outside) (Timer.cooldown id trigger chainPos) =
      handleCooldownTimer outside (id ++ ":" ++ trigger ++ ":" ++ toString chainPos) := by
  have named : Timer.cooldown id trigger chainPos =
      "cooldown:" ++ (id ++ ":" ++ (trigger ++ ":" ++ toString chainPos)) := by
    simp only [Timer.cooldown, String.append_assoc]
  have rest : id ++ ":" ++ trigger ++ ":" ++ toString chainPos =
      id ++ ":" ++ (trigger ++ ":" ++ toString chainPos) := by
    simp only [String.append_assoc]
  have alone := withoutPrefix_cooldown free other (trigger ++ ":" ++ toString chainPos)
  rw [named, rest, handleTimer_cooldown]
  unfold OtherHandlers.withCooldowns OtherHandlers.withActions
  dsimp only
  rw [alone]
  dsimp only
  rw [stepTimer_cooldown alone]
  rfl

theorem handleTimer_agentRun (rest : String) :
    handleTimer outside (others.withCooldowns outside) ("cooldown:ar:" ++ rest) =
      handleAgentRunCooldownTimer outside rest := by
  have named : "cooldown:ar:" ++ rest = "cooldown:" ++ ("ar:" ++ rest) := by
    rw [← String.append_assoc]
    rfl
  have alone : withoutPrefix "cooldown:ar:" ("cooldown:" ++ ("ar:" ++ rest)) = some rest := by
    rw [← named, Timer.withoutPrefix_append]
  rw [named, handleTimer_cooldown]
  unfold OtherHandlers.withCooldowns
  dsimp only
  rw [alone]

theorem cooldownAgentRun_eq (id : AgentRunId) (trigger : String) (chainPos : Nat) :
    Timer.cooldownAgentRun id trigger chainPos =
      "cooldown:ar:" ++ (id ++ ":" ++ trigger ++ ":" ++ toString chainPos) := by
  change "cooldown:ar:" ++ id ++ ":" ++ trigger ++ ":" ++ toString chainPos = _
  simp only [String.append_assoc]

theorem handleCooldownTimer_of_split {rest : String} {id : JobId} {trigger : String}
    {chainPos : Nat} (parts : splitCooldown rest = some (id, trigger, chainPos)) :
    handleCooldownTimer outside rest =
      forActiveJob id fun job => retrigger outside job trigger chainPos := by
  unfold handleCooldownTimer
  rw [parts]
  rfl

theorem handleAgentRunCooldownTimer_of_split {rest : String} {id : AgentRunId} {trigger : String}
    {chainPos : Nat} (parts : splitCooldown rest = some (id, trigger, chainPos)) :
    handleAgentRunCooldownTimer outside rest =
      forActiveRun id fun run => retriggerRun outside run trigger chainPos := by
  unfold handleAgentRunCooldownTimer
  rw [parts]

end Handler

/-- The states whose trigger tells which action has been taken. -/
def MonitorState.Timed (state : MonitorState) : Prop :=
  state = waitingForInput ∨ state = exited ∨ state = gone

namespace Handler

variable (outside : Outside) (others : OtherHandlers)

/-- The cooldown of an agent that is idle or has exited is followed by its action. -/
theorem cooldown_resumes {owner : OwnerId} {state : MonitorState} {trigger : String}
    {chainPos : Nat} (free : ':' ∉ owner.text.toList) (bounded : chainPos < U64_VALUES)
    (triggered : state.trigger = some trigger) (timed : state.Timed)
    (other : owner ≠ .job "ar") :
    handleTimer outside (others.withCooldowns outside)
        (Timer.ownerCooldown owner trigger chainPos) =
      takeUpAgain outside state chainPos owner := by
  have word : ':' ∉ trigger.toList := by
    rcases timed with rfl | rfl | rfl <;> cases triggered <;> decide
  have parts := splitCooldown_word free word bounded
  cases owner with
  | job id =>
      dsimp only [OwnerId.text] at free parts
      have named : id ≠ "ar" := fun same => other (congrArg OwnerId.job same)
      rw [Timer.ownerCooldown, handleTimer_job outside others free named,
        handleCooldownTimer_of_split outside parts]
      rcases timed with rfl | rfl | rfl <;> cases triggered <;> rfl
  | agentRun id =>
      dsimp only [OwnerId.text] at parts
      rw [Timer.ownerCooldown, cooldownAgentRun_eq, handleTimer_agentRun,
        handleAgentRunCooldownTimer_of_split outside parts]
      rcases timed with rfl | rfl | rfl <;> cases triggered <;> rfl

/-! ## Going on with an owner -/

variable {outside}

theorem forActiveJob_run {id : JobId} {job : Job} {runtime : Runtime}
    (found : runtime.world.state.getJob id = some job) (active : job.isTerminal = false)
    (next : Job → Handler (List Event)) : forActiveJob id next runtime = next job runtime := by
  unfold forActiveJob
  rw [readState, Program.run_bind, Program.run_read]
  dsimp only
  rw [found, Option.filter_some, active]
  rfl

theorem forActiveRun_run {id : AgentRunId} {run : AgentRun} {runtime : Runtime}
    (found : runtime.world.state.agentRuns[id]? = some run)
    (active : run.status.isTerminal = false) (next : AgentRun → Handler (List Event)) :
    forActiveRun id next runtime = next run runtime := by
  unfold forActiveRun
  rw [readState, Program.run_bind, Program.run_read]
  dsimp only
  rw [found, Option.filter_some, active]
  rfl

theorem forActiveRun_missing {id : AgentRunId} {runtime : Runtime}
    (missing : runtime.world.state.agentRuns[id]? = none)
    (next : AgentRun → Handler (List Event)) :
    forActiveRun id next runtime = (.ok [], runtime) := by
  unfold forActiveRun
  rw [readState, Program.run_bind, Program.run_read]
  dsimp only
  rw [missing]
  rfl

theorem forAgent_finds (outside : Outside) {job : Job} {agentDef : AgentDef} {runtime : Runtime}
    (present : runtime.agentOf outside job = some agentDef) :
    ∃ middle : Runtime, middle.world = runtime.world ∧
      ∀ next, forAgent outside job next runtime = next agentDef middle := by
  obtain ⟨runbook, known, found⟩ := Option.bind_eq_some_iff.mp present
  obtain ⟨runbookCache, ran, _⟩ := cachedRunbook_known outside known
  refine ⟨{ runtime with runbookCache }, rfl, fun next => ?_⟩
  unfold forAgent
  rw [Program.bind_ok ran, found]

theorem forRun_run {run : AgentRun} {runbook : Runbook} {agentDef : AgentDef} {runtime : Runtime}
    (known : runtime.runbookAt outside run.runbookHash = some runbook)
    (defined : runbook.getAgent run.agentName = some agentDef)
    (next : AgentDef → Handler (List Event)) :
    ∃ middle : Runtime, middle.world = runtime.world ∧
      forRun outside run next runtime = next agentDef middle := by
  obtain ⟨runbookCache, ran, _⟩ := cachedRunbook_known outside known
  refine ⟨{ runtime with runbookCache }, rfl, ?_⟩
  unfold forRun
  rw [Program.bind_ok ran, defined]
  rfl

theorem runAssistantContext_run (run : AgentRun) (runtime : Runtime) :
    ∃ (assistant : Option String) (after : Runtime), after.world = runtime.world ∧
      runAssistantContext run runtime = (.ok assistant, after) := by
  unfold runAssistantContext
  cases run.agentId with
  | none => exact ⟨none, runtime, rfl, rfl⟩
  | some agentId => exact ⟨_, runtime.afterReading, rfl, rfl⟩

/-! ## The first attempt -/

theorem nextReading_run (runtime : Runtime) :
    nextReading runtime = (.ok (runtime.readings 0), runtime.afterReading) := rfl

/-- An attempt on a job that is there is the next one. -/
theorem countAttempt_next {id : JobId} {job : Job} {runtime : Runtime}
    (found : runtime.world.state.jobs[id]? = some job) (trigger : String) (chainPos : Nat) :
    countAttempt id trigger chainPos runtime =
      (.ok (job.actionTracker.getActionAttempt trigger chainPos + 1),
        (updateJobState id (·.incrementActionAttempt trigger chainPos) runtime).2) := by
  have counted : (runtime.world.state.updateJob id
      (·.incrementActionAttempt trigger chainPos)).jobs[id]? =
      some (job.incrementActionAttempt trigger chainPos) := by
    rw [MaterializedState.lookup_updateJob, if_pos rfl, found]
    rfl
  unfold countAttempt
  rw [Program.run_bind]
  change ((do
    let counted ← readState (·.jobs[id]?)
    pure ((counted.map (·.actionTracker.getActionAttempt trigger chainPos)).getD 1) :
      Handler Nat) _) = _
  rw [readState, Program.run_bind, Program.run_read]
  change (Except.ok (Option.getD (Option.map _ ((runtime.world.state.updateJob id _).jobs[id]?)) 1),
    _) = _
  rw [counted]
  have next := job.actionTracker.incremented trigger chainPos
  rw [Option.map_some, Option.getD_some]
  exact congrArg (fun attempts => (Except.ok attempts, _)) next

/-- A first attempt that cannot be made fails. -/
theorem executeActionWithAttempts_fails {job stored : Job} {context : ActionContext}
    {runtime : Runtime} {error : RuntimeError}
    (found : runtime.world.state.jobs[job.id]? = some stored)
    (first : stored.actionTracker.getActionAttempt context.trigger context.chainPos = 0)
    (once : context.actionConfig.attempts = .finite 1)
    (fails : ∀ reading, buildActionEffects outside reading context job = .error error) :
    (executeActionWithAttempts outside job context runtime).1 = .error error := by
  have counted := countAttempt_next found context.trigger context.chainPos
  rw [first] at counted
  rw [executeActionWithAttempts, Program.bind_ok counted, once]
  change (executeAction outside job context _).1 = _
  rw [executeAction, Program.bind_ok (nextReading_run _), fails]
  rfl

theorem countRunAttempt_next {id : AgentRunId} {run : AgentRun} {runtime : Runtime}
    (found : runtime.world.state.agentRuns[id]? = some run) (trigger : String) (chainPos : Nat) :
    countRunAttempt id trigger chainPos runtime =
      (.ok (run.actionTracker.getActionAttempt trigger chainPos + 1),
        (updateRunState id (fun run => { run with
          actionTracker := run.actionTracker.incrementActionAttempt trigger chainPos })
          runtime).2) := by
  unfold countRunAttempt
  rw [Program.run_bind]
  change ((do
    let counted ← readState (·.agentRuns[id]?)
    pure ((counted.map (·.actionTracker.getActionAttempt trigger chainPos)).getD 1) :
      Handler Nat) _) = _
  rw [readState, Program.run_bind, Program.run_read]
  change (Except.ok (Option.getD (Option.map _
    ((runtime.world.state.agentRuns.modify id _)[id]?)) 1), _) = _
  rw [Table.lookup_modify, if_pos rfl, found]
  have next := run.actionTracker.incremented trigger chainPos
  rw [Option.map_some, Option.map_some, Option.getD_some]
  exact congrArg (fun attempts => (Except.ok attempts, _)) next

theorem executeStandaloneActionWithAttempts_fails {run stored : AgentRun}
    {context : ActionContext} {runtime : Runtime} {error : RuntimeError}
    (found : runtime.world.state.agentRuns[run.id]? = some stored)
    (first : stored.actionTracker.getActionAttempt context.trigger context.chainPos = 0)
    (once : context.actionConfig.attempts = .finite 1)
    (fails : ∀ reading, buildActionEffectsForAgentRun outside reading context run = .error error) :
    (executeStandaloneActionWithAttempts outside run context runtime).1 = .error error := by
  have counted := countRunAttempt_next found context.trigger context.chainPos
  rw [first] at counted
  rw [executeStandaloneActionWithAttempts, Program.bind_ok counted, once]
  change (executeStandaloneAction outside run context _).1 = _
  rw [executeStandaloneAction, Program.bind_ok (nextReading_run _), fails]
  rfl

end Handler

/-! ## An owner whose agent cannot act -/

/-- An agent with a gate without a command where it is idle or dead, and a nudge elsewhere. -/
def stuckAgent : AgentDef where
  name := "agent"
  onIdle := .simple .gate
  onDead := .simple .gate
  onPrompt := .simple .nudge
  onError := .simple (.simple .nudge)

def stuckRunbook : Runbook where
  jobs := (∅ : HashMap JobDef).insert "job"
    { kind := "job", steps := [{ name := "step", run := .agent "agent" none }] }
  agents := (∅ : HashMap AgentDef).insert "agent" stuckAgent

def stuckJob (id : JobId) : Job where
  id
  name := ""
  kind := "job"
  ns := ""
  step := "step"
  stepStatus := .running
  stepStartedAt := 0
  stepHistory := []
  vars := ∅
  runbookHash := "hash"
  cwd := "/"
  workspaceId := none
  workspacePath := none
  sessionId := none
  createdAt := 0
  error := none
  actionTracker := {}
  cancelling := false
  totalRetries := 0
  stepVisits := ∅
  cronName := none
  idleGraceLogSize := none
  lastNudgeAt := none

def stuckRun (id : AgentRunId) : AgentRun where
  id
  agentName := "agent"
  commandName := ""
  ns := ""
  cwd := "/"
  runbookHash := "hash"
  status := .running
  agentId := none
  sessionId := none
  error := none
  createdAtMs := 0
  updatedAtMs := 0
  actionTracker := {}
  vars := ∅
  idleGraceLogSize := none
  lastNudgeAt := none

def stuckState : OwnerId → MaterializedState
  | .job id => { jobs := (∅ : HashMap Job).insert id (stuckJob id) }
  | .agentRun id => { agentRuns := (∅ : HashMap AgentRun).insert id (stuckRun id) }

def Runtime.stuck (owner : OwnerId) : Runtime :=
  { Runtime.idle stuckRunbook (stuckState owner) with
    runbookCache := (∅ : HashMap Runbook).insert "hash" stuckRunbook }

def stuckError (owner : OwnerId) : AgentAction → RuntimeError
  | .gate =>
      match owner with
      | .job id => .invalidRunDirective ("job " ++ id) "gate action requires a 'run' field"
      | .agentRun id =>
          .invalidRunDirective ("agent_run " ++ id) "gate action requires a 'run' field"
  | _ =>
      match owner with
      | .job _ => .jobNotFound "no session"
      | .agentRun _ => .invalidRequest "no session for nudge"

theorem stuckError_ne (owner : OwnerId) : stuckError owner .gate ≠ stuckError owner .nudge := by
  cases owner <;> exact fun same => by cases same

namespace Handler

variable {outside : Outside}

theorem stuck_runbook (owner : OwnerId) :
    (Runtime.stuck owner).runbookAt outside "hash" = some stuckRunbook := by
  unfold Runtime.runbookAt Runtime.stuck
  dsimp only
  rw [Table.lookup_insert, if_pos rfl]

theorem stuck_getAgent : stuckRunbook.getAgent "agent" = some stuckAgent := by
  change ((∅ : HashMap AgentDef).insert "agent" stuckAgent)["agent"]? = _
  rw [Table.lookup_insert, if_pos rfl]

theorem stuck_agent (id : JobId) : getAgentDef stuckRunbook (stuckJob id) = some stuckAgent := by
  have defined : stuckRunbook.getJob "job" = some
      { kind := "job", steps := [{ name := "step", run := .agent "agent" none }] } := by
    unfold Runbook.getJob stuckRunbook
    dsimp only
    rw [Table.lookup_insert, if_pos rfl]
  unfold getAgentDef
  change ((stuckRunbook.getJob "job").bind _).bind _ = _
  rw [defined]
  exact stuck_getAgent

theorem stuck_found (id : JobId) :
    (Runtime.stuck (.job id)).world.state.jobs[id]? = some (stuckJob id) := by
  change ((∅ : HashMap Job).insert id (stuckJob id))[id]? = _
  rw [Table.lookup_insert, if_pos rfl]

theorem stuck_found_run (id : AgentRunId) :
    (Runtime.stuck (.agentRun id)).world.state.agentRuns[id]? = some (stuckRun id) := by
  change ((∅ : HashMap AgentRun).insert id (stuckRun id))[id]? = _
  rw [Table.lookup_insert, if_pos rfl]

/-- Every action of the job fails. -/
theorem stuck_job {id : JobId} {runtime : Runtime}
    (same : runtime.world = (Runtime.stuck (.job id)).world) {action : AgentAction}
    (blocked : action = .gate ∨ action = .nudge) (trigger : String) (chainPos : Nat) :
    ((do
      let assistant ← assistantContext (stuckJob id)
      executeActionWithAttempts outside (stuckJob id)
        ⟨stuckAgent, .simple action, trigger, chainPos, none, assistant⟩ : Handler (List Event))
        runtime).1 = .error (stuckError (.job id) action) := by
  obtain ⟨assistant, after, world, ran⟩ := assistantContext_run (stuckJob id) runtime
  rw [Program.bind_ok ran]
  have found : after.world.state.jobs[(stuckJob id).id]? = some (stuckJob id) := by
    rw [world, same]
    exact stuck_found id
  refine executeActionWithAttempts_fails found ?_ rfl ?_
  · exact congrArg (Option.getD · 0) (Table.lookup_empty _)
  · intro reading
    rcases blocked with rfl | rfl <;> rfl

theorem stuck_run {id : AgentRunId} {runtime : Runtime}
    (same : runtime.world = (Runtime.stuck (.agentRun id)).world) {action : AgentAction}
    (blocked : action = .gate ∨ action = .nudge) (trigger : String) (chainPos : Nat) :
    ((do
      let assistant ← runAssistantContext (stuckRun id)
      executeStandaloneActionWithAttempts outside (stuckRun id)
        ⟨stuckAgent, .simple action, trigger, chainPos, none, assistant⟩ : Handler (List Event))
        runtime).1 = .error (stuckError (.agentRun id) action) := by
  obtain ⟨assistant, after, world, ran⟩ := runAssistantContext_run (stuckRun id) runtime
  rw [Program.bind_ok ran]
  have found : after.world.state.agentRuns[(stuckRun id).id]? = some (stuckRun id) := by
    rw [world, same]
    exact stuck_found_run id
  refine executeStandaloneActionWithAttempts_fails found ?_ rfl ?_
  · exact congrArg (Option.getD · 0) (Table.lookup_empty _)
  · intro reading
    rcases blocked with rfl | rfl <;> rfl

end Handler

def MonitorState.stuckAction : MonitorState → AgentAction
  | waitingForInput | exited | gone => .gate
  | _ => .nudge

theorem MonitorState.stuckAction_blocked (state : MonitorState) :
    state.stuckAction = .gate ∨ state.stuckAction = .nudge := by
  cases state with
  | waitingForInput | exited | gone => exact .inl rfl
  | working | prompting | failed => exact .inr rfl

theorem MonitorState.stuck_configured {state : MonitorState} {trigger : String}
    (triggered : state.trigger = some trigger) :
    stuckAgent.configured state = some (.simple state.stuckAction) := by
  cases state with
  | working => cases triggered
  | waitingForInput | prompting | failed | exited | gone => rfl

namespace Handler

variable {outside : Outside} (others : OtherHandlers)

theorem forAgent_stuck {id : JobId} {next : AgentDef → Handler (List Event)}
    {outcome : Except RuntimeError (List Event)}
    (ends : ∀ middle : Runtime, middle.world = (Runtime.stuck (.job id)).world →
      (next stuckAgent middle).1 = outcome) :
    (forAgent outside (stuckJob id) next (Runtime.stuck (.job id))).1 = outcome := by
  have agent : (Runtime.stuck (.job id)).agentOf outside (stuckJob id) = some stuckAgent := by
    unfold Runtime.agentOf
    change ((Runtime.stuck (.job id)).runbookAt outside "hash").bind _ = _
    rw [stuck_runbook]
    exact stuck_agent id
  obtain ⟨middle, world, ran⟩ := forAgent_run outside agent next
  rw [ran]
  exact ends middle world

theorem forRun_stuck {id : AgentRunId} {next : AgentDef → Handler (List Event)}
    {outcome : Except RuntimeError (List Event)}
    (ends : ∀ middle : Runtime, middle.world = (Runtime.stuck (.agentRun id)).world →
      (next stuckAgent middle).1 = outcome) :
    (forRun outside (stuckRun id) next (Runtime.stuck (.agentRun id))).1 = outcome := by
  have known : (Runtime.stuck (.agentRun id)).runbookAt outside (stuckRun id).runbookHash =
      some stuckRunbook := stuck_runbook _
  obtain ⟨middle, world, ran⟩ := forRun_run known stuck_getAgent next
  rw [ran]
  exact ends middle world

/-- Taking the action again fails as the action does. -/
theorem takeUpAgain_stuck (owner : OwnerId) {state : MonitorState} {trigger : String}
    (triggered : state.trigger = some trigger) (chainPos : Nat) :
    (takeUpAgain outside state chainPos owner (Runtime.stuck owner)).1 =
      .error (stuckError owner state.stuckAction) := by
  have configured := MonitorState.stuck_configured triggered
  cases owner with
  | job id =>
      have found := MaterializedState.getJob_found (stuck_found id)
      rw [takeUpAgain, forActiveJob_run found (by rfl)]
      apply forAgent_stuck
      intro middle world
      rw [actAgain, triggered, configured]
      exact stuck_job world state.stuckAction_blocked trigger chainPos
  | agentRun id =>
      rw [takeUpAgain, forActiveRun_run (stuck_found_run id) (by rfl)]
      apply forRun_stuck
      intro middle world
      rw [actAgainAlone, triggered, configured]
      exact stuck_run world state.stuckAction_blocked trigger chainPos

theorem stuck_cooldownAction {trigger : String} {actionConfig : ActionConfig}
    (known : stuckAgent.cooldownAction trigger = some actionConfig) :
    actionConfig = .simple .gate := by
  unfold AgentDef.cooldownAction at known
  split at known <;> cases known <;> rfl

/-- The timer of the job takes the gate again, or nothing. -/
theorem retrigger_stuck (id : JobId) (trigger : String) (chainPos : Nat) :
    (retrigger outside (stuckJob id) trigger chainPos (Runtime.stuck (.job id))).1 = .ok [] ∨
      (retrigger outside (stuckJob id) trigger chainPos (Runtime.stuck (.job id))).1 =
        .error (stuckError (.job id) .gate) := by
  unfold retrigger
  cases known : stuckAgent.cooldownAction trigger with
  | none =>
      left
      apply forAgent_stuck
      intro middle world
      rw [known]
      rfl
  | some actionConfig =>
      right
      apply forAgent_stuck
      intro middle world
      rw [known, stuck_cooldownAction known]
      exact stuck_job world (.inl rfl) trigger chainPos

theorem retriggerRun_stuck (id : AgentRunId) (trigger : String) (chainPos : Nat) :
    (retriggerRun outside (stuckRun id) trigger chainPos (Runtime.stuck (.agentRun id))).1 =
        .ok [] ∨
      (retriggerRun outside (stuckRun id) trigger chainPos (Runtime.stuck (.agentRun id))).1 =
        .error (stuckError (.agentRun id) .gate) := by
  unfold retriggerRun
  cases known : stuckAgent.cooldownAction trigger with
  | none =>
      left
      apply forRun_stuck
      intro middle world
      rw [known]
      rfl
  | some actionConfig =>
      right
      apply forRun_stuck
      intro middle world
      rw [known, stuck_cooldownAction known]
      exact stuck_run world (.inl rfl) trigger chainPos

/-- The timer of a job called `ar` finds no agent run. -/
theorem handleTimer_misrouted (trigger : String) (chainPos : Nat) :
    (handleTimer outside (others.withCooldowns outside) (Timer.cooldown "ar" trigger chainPos)
      (Runtime.stuck (.job "ar"))).1 = .ok [] := by
  have named : Timer.cooldown "ar" trigger chainPos =
      "cooldown:ar:" ++ (trigger ++ ":" ++ toString chainPos) := by
    simp only [Timer.cooldown, ← String.append_assoc]
    rfl
  rw [named, handleTimer_agentRun]
  cases parts : splitCooldown (trigger ++ ":" ++ toString chainPos) with
  | none =>
      unfold handleAgentRunCooldownTimer
      rw [parts]
      rfl
  | some found =>
      rw [handleAgentRunCooldownTimer_of_split outside parts, forActiveRun_missing]
      exact Table.lookup_empty _

/-- Whatever the trigger, the timer takes the gate again, or nothing. -/
theorem handleTimer_stuck {owner : OwnerId} (free : ':' ∉ owner.text.toList) (trigger : String)
    (chainPos : Nat) :
    (handleTimer outside (others.withCooldowns outside)
        (Timer.ownerCooldown owner trigger chainPos) (Runtime.stuck owner)).1 = .ok [] ∨
      (handleTimer outside (others.withCooldowns outside)
        (Timer.ownerCooldown owner trigger chainPos) (Runtime.stuck owner)).1 =
        .error (stuckError owner .gate) := by
  cases owner with
  | job id =>
      dsimp only [OwnerId.text] at free
      rw [Timer.ownerCooldown]
      by_cases other : id = "ar"
      · subst other
        exact .inl (handleTimer_misrouted others trigger chainPos)
      · obtain ⟨found, position, parts⟩ := splitCooldown_owner free trigger chainPos
        rw [handleTimer_job outside others free other, handleCooldownTimer_of_split outside parts,
          forActiveJob_run (MaterializedState.getJob_found (stuck_found id)) (by rfl)]
        exact retrigger_stuck id found position
  | agentRun id =>
      dsimp only [OwnerId.text] at free
      obtain ⟨found, position, parts⟩ := splitCooldown_owner free trigger chainPos
      rw [Timer.ownerCooldown, cooldownAgentRun_eq, handleTimer_agentRun,
        handleAgentRunCooldownTimer_of_split outside parts,
        forActiveRun_run (stuck_found_run id) (by rfl)]
      exact retriggerRun_stuck id found position

theorem timed_of_stuckAction {state : MonitorState} (gate : state.stuckAction = .gate) :
    state.Timed := by
  cases state with
  | waitingForInput => exact .inl rfl
  | exited => exact .inr (.inl rfl)
  | gone => exact .inr (.inr rfl)
  | working | prompting | failed => cases gate

variable (outside)

/-- A cooldown timer is followed by the action that it was set for exactly when the agent
was idle or had exited, and its owner is not a job called `ar`. -/
theorem cooldown_resumes_iff {owner : OwnerId} {state : MonitorState} {trigger : String}
    {chainPos : Nat} (free : ':' ∉ owner.text.toList) (bounded : chainPos < U64_VALUES)
    (triggered : state.trigger = some trigger) :
    handleTimer outside (others.withCooldowns outside)
        (Timer.ownerCooldown owner trigger chainPos) = takeUpAgain outside state chainPos owner ↔
      state.Timed ∧ owner ≠ .job "ar" := by
  constructor
  · intro same
    have again := @takeUpAgain_stuck outside owner state trigger triggered chainPos
    rw [← same] at again
    constructor
    · rcases state.stuckAction_blocked with gate | nudge
      · exact timed_of_stuckAction gate
      · rw [nudge] at again
        rcases handleTimer_stuck others free trigger chainPos with nothing | taken
        · rw [nothing] at again
          cases again
        · rw [taken] at again
          exact absurd (Except.error.inj again) (stuckError_ne owner)
    · rintro rfl
      rw [Timer.ownerCooldown, handleTimer_misrouted] at again
      cases again
  · rintro ⟨timed, other⟩
    exact cooldown_resumes outside others free bounded triggered timed other

/-- An idle agent of a job, and the first action of its chain. -/
theorem idle_cooldown_resumes :
    handleTimer (Outside.plain stuckRunbook)
        (OtherHandlers.silent.withCooldowns (Outside.plain stuckRunbook))
        (Timer.ownerCooldown (.job "job") "idle" 0) =
      takeUpAgain (Outside.plain stuckRunbook) .waitingForInput 0 (.job "job") :=
  (cooldown_resumes_iff (Outside.plain stuckRunbook) .silent (by decide) (by decide) rfl).mpr
    ⟨.inl rfl, by decide⟩

/-- The cooldown of a question is followed by nothing: its trigger is cut at the colon. -/
theorem question_cooldown_dropped :
    ¬∀ (owner : OwnerId) (state : MonitorState) (trigger : String) (chainPos : Nat),
      ':' ∉ owner.text.toList → chainPos < U64_VALUES → state.trigger = some trigger →
      handleTimer (Outside.plain stuckRunbook)
          (OtherHandlers.silent.withCooldowns (Outside.plain stuckRunbook))
          (Timer.ownerCooldown owner trigger chainPos) =
        takeUpAgain (Outside.plain stuckRunbook) state chainPos owner := by
  intro resumes
  have same := resumes (.job "job") (.prompting .question none none) "prompt:question" 0
    (by decide) (by decide) rfl
  have again := @takeUpAgain_stuck (Outside.plain stuckRunbook) (.job "job")
    (.prompting .question none none) "prompt:question" rfl 0
  have free : ':' ∉ "job".toList := by decide
  have parts : splitCooldown ("job" ++ ":" ++ "prompt:question" ++ ":" ++ toString 0) =
      some ("job", "prompt", 0) := by
    decide
  rw [← same, Timer.ownerCooldown, handleTimer_job _ _ free (by decide),
    handleCooldownTimer_of_split _ parts,
    forActiveJob_run (MaterializedState.getJob_found (stuck_found "job")) (by rfl)] at again
  have dropped : (retrigger (Outside.plain stuckRunbook) (stuckJob "job") "prompt" 0
      (Runtime.stuck (.job "job"))).1 = .ok [] := by
    unfold retrigger
    apply forAgent_stuck
    intro middle world
    rfl
  rw [dropped] at again
  cases again

end Handler

end OddJobs
