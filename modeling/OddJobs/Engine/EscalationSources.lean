import OddJobs.Engine.Cooldowns

/-!
# Sources of decisions

A decision that an escalation creates has a source, which settles what a person can choose.
On the way to it the state of the agent is flattened into the text of a trigger, and the
source is guessed from that text.
-/

namespace OddJobs

open Library

def MonitorState.source : MonitorState → Option DecisionSource
  | working => none
  | waitingForInput => some .idle
  | prompting promptType _ _ => some (if promptType = .question then .question else .approval)
  | failed _ _ | exited | gone => some .error

def Event.decisionSource? : Event → Option DecisionSource
  | decisionCreated _ _ _ _ source _ _ _ _ => some source
  | _ => none

/-! ## What is guessed -/

def EXHAUSTED : String := "_exhausted"

def baseTrigger (trigger : String) : String :=
  String.ofList (Text.trimEndMatches EXHAUSTED.toList trigger.toList)

def GuessedError (trigger : String) : Prop :=
  trigger ∈ ["dead", "on_dead", "exit", "exited", "error", "on_error"] ∨
    EXHAUSTED.toList <:+ trigger.toList ∧ baseTrigger trigger ∉ ["idle", "prompt:question"]

/-- Only the text of the trigger counts. -/
theorem toSource_congr {left right : ActionContext} (same : left.trigger = right.trigger) :
    left.escalationTrigger.toSource = right.escalationTrigger.toSource := by
  unfold ActionContext.escalationTrigger
  rw [same]
  dsimp only
  split
  all_goals try rfl
  split
  · split <;> rfl
  · rfl

def guessedSource (trigger : String) : DecisionSource :=
  (ActionContext.mk stuckAgent (.simple .escalate) trigger 0 none
    none).escalationTrigger.toSource

theorem toSource_eq_guessed (context : ActionContext) :
    context.escalationTrigger.toSource = guessedSource context.trigger :=
  toSource_congr rfl

theorem guessedSource_named :
    guessedSource "idle" = .idle ∧ guessedSource ("idle" ++ EXHAUSTED) = .idle ∧
      guessedSource "prompt:question" = .question ∧
      guessedSource ("prompt:question" ++ EXHAUSTED) = .question ∧
      guessedSource "prompt" = .approval ∧ guessedSource ("prompt" ++ EXHAUSTED) = .error ∧
      guessedSource "exit" = .error ∧ guessedSource ("exit" ++ EXHAUSTED) = .error ∧
      guessedSource "gate_failed" = .idle := by
  decide

theorem not_guessedError {trigger : String}
    (other : trigger ∉ ["dead", "on_dead", "exit", "exited", "error", "on_error"])
    (open_ : ¬EXHAUSTED.toList <:+ trigger.toList) : ¬GuessedError trigger := by
  rintro (listed | ⟨ends, -⟩)
  · exact other listed
  · exact open_ ends

theorem toSource_eq_error_iff (context : ActionContext) :
    context.escalationTrigger.toSource = .error ↔ GuessedError context.trigger := by
  obtain ⟨agentDef, actionConfig, trigger, chainPos, questionData, assistant⟩ := context
  unfold ActionContext.escalationTrigger
  dsimp only
  split
  · exact iff_of_false DecisionSource.noConfusion (not_guessedError (by decide) (by decide))
  · exact iff_of_false DecisionSource.noConfusion (not_guessedError (by decide) (by decide))
  · exact iff_of_true rfl (.inl (by decide))
  · exact iff_of_true rfl (.inl (by decide))
  · exact iff_of_true rfl (.inl (by decide))
  · exact iff_of_true rfl (.inl (by decide))
  · exact iff_of_true rfl (.inl (by decide))
  · exact iff_of_true rfl (.inl (by decide))
  · exact iff_of_false DecisionSource.noConfusion (not_guessedError (by decide) (by decide))
  · exact iff_of_false DecisionSource.noConfusion (not_guessedError (by decide) (by decide))
  · exact iff_of_false DecisionSource.noConfusion (not_guessedError (by decide) (by decide))
  · have other : trigger ∉ ["dead", "on_dead", "exit", "exited", "error", "on_error"] := by
      simp only [List.mem_cons, List.not_mem_nil, or_false, not_or]
      refine ⟨?_, ?_, ?_, ?_, ?_, ?_⟩ <;> assumption
    split
    · rename_i ends
      have suffixed : EXHAUSTED.toList <:+ trigger.toList := List.isSuffixOf_iff_suffix.mp ends
      have guessed : GuessedError trigger ↔ baseTrigger trigger ∉ ["idle", "prompt:question"] := by
        unfold GuessedError
        rw [or_iff_right other, and_iff_right suffixed]
      rw [guessed]
      have inFront : String.ofList (Text.trimEndMatches "_exhausted".toList trigger.toList) =
          baseTrigger trigger := rfl
      rw [inFront]
      split
      · rename_i base
        exact iff_of_false DecisionSource.noConfusion (by rw [base]; decide)
      · rename_i base
        exact iff_of_false DecisionSource.noConfusion (by rw [base]; decide)
      · rename_i base
        exact iff_of_true rfl (by rw [base]; decide)
      · refine iff_of_true rfl ?_
        simp only [List.mem_cons, List.not_mem_nil, or_false, not_or]
        refine ⟨?_, ?_⟩ <;> assumption
    · rename_i open_
      refine iff_of_false DecisionSource.noConfusion (not_guessedError other fun suffixed => ?_)
      exact open_ (List.isSuffixOf_iff_suffix.mpr suffixed)

/-- Where the attempts are exhausted, what counts is the text in front. -/
theorem guessedError_exhausted (trigger : String) :
    GuessedError (trigger ++ EXHAUSTED) ↔ baseTrigger trigger ∉ ["idle", "prompt:question"] := by
  have suffixed : EXHAUSTED.toList <:+ (trigger ++ EXHAUSTED).toList := by
    rw [String.toList_append]
    exact List.suffix_append _ _
  have plain : ∀ listed ∈ ["dead", "on_dead", "exit", "exited", "error", "on_error"],
      ¬EXHAUSTED.toList <:+ listed.toList := by
    decide
  have other : trigger ++ EXHAUSTED ∉ ["dead", "on_dead", "exit", "exited", "error", "on_error"] :=
    fun listed => plain _ listed suffixed
  have base : baseTrigger (trigger ++ EXHAUSTED) = baseTrigger trigger := by
    unfold baseTrigger
    rw [String.toList_append, Text.trimEndMatches_append (by decide)]
  unfold GuessedError
  rw [or_iff_right other, and_iff_right suffixed, base]

/-! ## Owners of agents -/

/-- The owner of an agent, as the engine has looked it up. -/
inductive Watched where
  | job (job : Job)
  | run (run : AgentRun)

/-- What is escalated: a state of the agent, or a gate that is run. -/
inductive Happening where
  | state (state : MonitorState)
  | gate (command : String)

def createdSources (before after : Runtime) : List DecisionSource :=
  (after.world.applied.drop before.world.applied.length).filterMap Event.decisionSource?

namespace Watched

variable (outside : Outside) (agentDef : AgentDef) (runtime : Runtime)

def handle (happening : Happening) (watched : Watched) : Handler (List Event) :=
  match watched, happening with
  | .job owner, .state state => Handler.handleMonitorState outside owner agentDef state
  | .run owner, .state state => Handler.handleStandaloneMonitorState outside owner agentDef state
  | .job owner, .gate command =>
      Handler.executeActionEffects outside owner agentDef (.gate command)
  | .run owner, .gate command =>
      Handler.executeStandaloneActionEffects outside owner agentDef (.gate command)

def made (trigger : String) (watched : Watched) : Nat :=
  match watched with
  | .job owner => ((runtime.world.state.jobs[owner.id]?).map
      (·.actionTracker.getActionAttempt trigger 0)).getD 0
  | .run owner => ((runtime.world.state.agentRuns[owner.id]?).map
      (·.actionTracker.getActionAttempt trigger 0)).getD 0

def Exhausted (state : MonitorState) (watched : Watched) : Prop :=
  ∃ trigger config, state.trigger = some trigger ∧ agentDef.configured state = some config ∧
    config.attempts.isExhausted (watched.made runtime trigger) = true

/-- The action for a state is to escalate, and no cooldown comes first. -/
def Configured (state : MonitorState) (watched : Watched) : Prop :=
  ∃ trigger config, state.trigger = some trigger ∧ agentDef.configured state = some config ∧
    config.action = .escalate ∧ (watched.made runtime trigger = 0 ∨ config.cooldown = none)

def gateText (command : String) (watched : Watched) : String × PathBuf :=
  match watched with
  | .job owner =>
      let vars := (((namespaceVars outside.order owner.vars).insert "job_id" owner.id).insert "name"
        owner.name).insert "workspace" (executionDir owner)
      (outside.interpolateShell command vars, executionDir owner)
  | .run owner =>
      let vars := (((namespaceVars outside.order owner.vars).insert "agent_run_id" owner.id).insert
        "name" owner.commandName).insert "workspace" owner.cwd
      (outside.interpolateShell command vars, owner.cwd)

def Asks (source : DecisionSource) (watched : Watched) : Happening → Prop
  | .state state => state.source = some source ∧
      (watched.Exhausted agentDef runtime state ∨ watched.Configured agentDef runtime state)
  | .gate command => source = .gate ∧ ∃ error, runGateCommand (runtime.readings 0)
      (watched.gateText outside command).1 (watched.gateText outside command).2 = .error error

/-- The cause can be read off the trigger: the text of an error is taken for one, a prompt
that is no question has attempts left, and a gate is that of a job. -/
def Readable (watched : Watched) : Happening → Prop
  | .state (.failed message errorType) =>
      (watched.Exhausted agentDef runtime (.failed message errorType) →
        baseTrigger message ∉ ["idle", "prompt:question"]) ∧
      (¬watched.Exhausted agentDef runtime (.failed message errorType) → GuessedError message)
  | .state (.prompting promptType questionData assistant) => promptType = .question ∨
      ¬watched.Exhausted agentDef runtime (.prompting promptType questionData assistant)
  | .state _ => True
  | .gate _ => ∃ owner, watched = .job owner

/-! ## What is created -/

section Creation

variable {outside agentDef runtime}

theorem createdSources_of_applied {before after : Runtime} {events : List Event}
    (applied : after.world.applied = before.world.applied ++ events) :
    createdSources before after = events.filterMap Event.decisionSource? := by
  unfold createdSources
  rw [applied, List.drop_left]

theorem createdSources_escalation (event : Event) (title message : String) (timer : TimerId) :
    createdSources runtime (Handler.executeAll outside
      [.emit event, .notify title message, .cancelTimer timer] runtime).2 =
      event.decisionSource?.toList := by
  have applied : (Handler.executeAll outside [.emit event, .notify title message,
      .cancelTimer timer] runtime).2.world.applied = runtime.world.applied ++ [event] := rfl
  rw [createdSources_of_applied applied]
  cases source : event.decisionSource? <;> simp [source]

theorem createdSources_escalationEffects (reading : Reading) (context : ActionContext)
    (run : AgentRun) (reason : String) :
    createdSources runtime (Handler.executeAll outside
      (escalationEffects outside reading context run reason) runtime).2 =
      [context.escalationTrigger.toSource] := by
  have applied : (Handler.executeAll outside
      (escalationEffects outside reading context run reason) runtime).2.world.applied =
      runtime.world.applied ++ [context.escalationTrigger.decisionForRun outside reading run] ++
        [.agentRunStatusChanged run.id .escalated (some reason)] := rfl
  rw [List.append_assoc] at applied
  exact createdSources_of_applied applied

theorem executeAction_escalates {job : Job} {context : ActionContext}
    (escalates : context.actionConfig.action = .escalate) :
    createdSources runtime (Handler.executeAction outside job context runtime).2 =
      [context.escalationTrigger.toSource] := by
  unfold Handler.executeAction buildActionEffects
  rw [Program.bind_ok (Handler.nextReading_run runtime), escalates]
  exact createdSources_escalation _ _ _ _

theorem executeStandaloneAction_escalates {run : AgentRun} {context : ActionContext}
    (escalates : context.actionConfig.action = .escalate) :
    createdSources runtime (Handler.executeStandaloneAction outside run context runtime).2 =
      [context.escalationTrigger.toSource] := by
  have built : buildActionEffectsForAgentRun outside (runtime.readings 0) context run =
      .ok (.escalate (escalationEffects outside (runtime.readings 0) context run
        context.trigger)) := by
    unfold buildActionEffectsForAgentRun
    rw [escalates]
  unfold Handler.executeStandaloneAction
  rw [Program.bind_ok (Handler.nextReading_run runtime), built]
  change createdSources runtime.afterReading _ = _
  exact createdSources_escalationEffects (runtime.readings 0) context run context.trigger

theorem countAttempt_made (job : Job) (trigger : String) (runtime : Runtime) :
    ∃ middle, Handler.countAttempt job.id trigger 0 runtime =
      (.ok ((Watched.job job).made runtime trigger + 1), middle) ∧
      middle.world.applied = runtime.world.applied := by
  unfold made
  dsimp only
  cases found : runtime.world.state.jobs[job.id]? with
  | some stored => exact ⟨_, Handler.countAttempt_next found trigger 0, rfl⟩
  | none =>
      have missing : (runtime.world.state.updateJob job.id
          (·.incrementActionAttempt trigger 0)).jobs[job.id]? = none := by
        rw [MaterializedState.lookup_updateJob, if_pos rfl, found]
        rfl
      obtain ⟨attempts, counted⟩ := Handler.countAttempt_run job.id trigger 0 runtime
      have one := congrArg Prod.fst counted
      change Except.ok (Option.getD (Option.map _ ((runtime.world.state.updateJob job.id
        _).jobs[job.id]?)) 1) = Except.ok attempts at one
      rw [missing] at one
      cases one
      exact ⟨_, counted, rfl⟩

theorem countRunAttempt_made (run : AgentRun) (trigger : String) (runtime : Runtime) :
    ∃ middle, Handler.countRunAttempt run.id trigger 0 runtime =
      (.ok ((Watched.run run).made runtime trigger + 1), middle) ∧
      middle.world.applied = runtime.world.applied := by
  unfold made
  dsimp only
  cases found : runtime.world.state.agentRuns[run.id]? with
  | some stored => exact ⟨_, Handler.countRunAttempt_next found trigger 0, rfl⟩
  | none =>
      have missing (update : AgentRun → AgentRun) :
          (runtime.world.state.agentRuns.modify run.id update)[run.id]? = none := by
        rw [Table.lookup_modify, if_pos rfl, found]
        rfl
      refine ⟨_, Prod.ext ?_ rfl, rfl⟩
      change Except.ok (Option.getD (Option.map _
        ((runtime.world.state.agentRuns.modify run.id _)[run.id]?)) 1) = _
      rw [missing]
      rfl

theorem createdSources_congr {before middle after : Runtime}
    (same : middle.world.applied = before.world.applied) :
    createdSources before after = createdSources middle after := by
  unfold createdSources
  rw [same]

/-- Once the attempts are exhausted, what is created is a decision for the trigger with the
suffix. -/
theorem executeActionWithAttempts_exhausted {job : Job} {context : ActionContext}
    (start : context.chainPos = 0)
    (exhausted : context.actionConfig.attempts.isExhausted
      ((Watched.job job).made runtime context.trigger) = true) :
    ∃ escalation : ActionContext, escalation.trigger = context.trigger ++ EXHAUSTED ∧
      createdSources runtime (Handler.executeActionWithAttempts outside job context runtime).2 =
        [escalation.escalationTrigger.toSource] := by
  obtain ⟨middle, counted, same⟩ := countAttempt_made job context.trigger runtime
  refine ⟨{ context with
    actionConfig := .simple .escalate
    trigger := context.trigger ++ EXHAUSTED }, rfl, ?_⟩
  unfold Handler.executeActionWithAttempts
  rw [start, Program.bind_ok counted, Nat.add_sub_cancel, if_pos exhausted,
    createdSources_congr same]
  exact executeAction_escalates rfl

/-- An escalation that is configured creates a decision for the trigger itself. -/
theorem executeActionWithAttempts_configured {job : Job} {context : ActionContext}
    (start : context.chainPos = 0)
    (left : context.actionConfig.attempts.isExhausted
      ((Watched.job job).made runtime context.trigger) = false)
    (escalates : context.actionConfig.action = .escalate)
    (atOnce : (Watched.job job).made runtime context.trigger = 0 ∨
      context.actionConfig.cooldown = none) :
    createdSources runtime (Handler.executeActionWithAttempts outside job context runtime).2 =
      [context.escalationTrigger.toSource] := by
  obtain ⟨middle, counted, same⟩ := countAttempt_made job context.trigger runtime
  have noWait : (if 1 < (Watched.job job).made runtime context.trigger + 1 then
      context.actionConfig.cooldown else none) = none := by
    rcases atOnce with first | none
    · rw [first]
      rfl
    · rw [none, ite_self]
  unfold Handler.executeActionWithAttempts
  rw [start, Program.bind_ok counted, Nat.add_sub_cancel, left, if_neg Bool.false_ne_true,
    noWait, createdSources_congr same]
  exact executeAction_escalates escalates

theorem executeStandaloneActionWithAttempts_exhausted {run : AgentRun} {context : ActionContext}
    (start : context.chainPos = 0)
    (exhausted : context.actionConfig.attempts.isExhausted
      ((Watched.run run).made runtime context.trigger) = true) :
    ∃ escalation : ActionContext, escalation.trigger = context.trigger ++ EXHAUSTED ∧
      createdSources runtime
          (Handler.executeStandaloneActionWithAttempts outside run context runtime).2 =
        [escalation.escalationTrigger.toSource] := by
  obtain ⟨middle, counted, same⟩ := countRunAttempt_made run context.trigger runtime
  refine ⟨{ context with
    actionConfig := .simple .escalate
    trigger := context.trigger ++ EXHAUSTED }, rfl, ?_⟩
  unfold Handler.executeStandaloneActionWithAttempts
  rw [start, Program.bind_ok counted, Nat.add_sub_cancel, if_pos exhausted,
    createdSources_congr same]
  exact executeStandaloneAction_escalates rfl

theorem executeStandaloneActionWithAttempts_configured {run : AgentRun} {context : ActionContext}
    (start : context.chainPos = 0)
    (left : context.actionConfig.attempts.isExhausted
      ((Watched.run run).made runtime context.trigger) = false)
    (escalates : context.actionConfig.action = .escalate)
    (atOnce : (Watched.run run).made runtime context.trigger = 0 ∨
      context.actionConfig.cooldown = none) :
    createdSources runtime
        (Handler.executeStandaloneActionWithAttempts outside run context runtime).2 =
      [context.escalationTrigger.toSource] := by
  obtain ⟨middle, counted, same⟩ := countRunAttempt_made run context.trigger runtime
  have noWait : (if 1 < (Watched.run run).made runtime context.trigger + 1 then
      context.actionConfig.cooldown else none) = none := by
    rcases atOnce with first | none
    · rw [first]
      rfl
    · rw [none, ite_self]
  unfold Handler.executeStandaloneActionWithAttempts
  rw [start, Program.bind_ok counted, Nat.add_sub_cancel, left, if_neg Bool.false_ne_true,
    noWait, createdSources_congr same]
  exact executeStandaloneAction_escalates escalates

def act (outside : Outside) (context : ActionContext) (watched : Watched) :
    Handler (List Event) :=
  match watched with
  | .job owner => Handler.executeActionWithAttempts outside owner context
  | .run owner => Handler.executeStandaloneActionWithAttempts outside owner context

/-- What is done about a state is to take the action that is configured for it. -/
theorem handle_state (watched : Watched) {state : MonitorState} {trigger : String}
    {config : ActionConfig} (named : state.trigger = some trigger)
    (configured : agentDef.configured state = some config) :
    ∃ (context : ActionContext) (middle : Runtime), context.trigger = trigger ∧
      context.actionConfig = config ∧ context.chainPos = 0 ∧ middle.world = runtime.world ∧
      watched.handle outside agentDef (.state state) runtime = watched.act outside context middle := by
  cases watched with
  | job owner =>
      obtain ⟨assistant, after, same, read⟩ := Handler.assistantContext_run owner runtime
      cases state with
      | working => cases named
      | prompting promptType questionData shown =>
          cases named
          cases configured
          exact ⟨_, runtime, rfl, rfl, rfl, rfl, rfl⟩
      | _ =>
          cases named
          cases configured
          refine ⟨⟨agentDef, _, _, 0, none, assistant⟩, after, rfl, rfl, rfl, same, ?_⟩
          unfold handle Handler.handleMonitorState
          exact Program.bind_ok read
  | run owner =>
      obtain ⟨assistant, after, same, read⟩ := Handler.runAssistantContext_run owner runtime
      cases state with
      | working => cases named
      | prompting promptType questionData shown =>
          cases named
          cases configured
          exact ⟨_, runtime, rfl, rfl, rfl, rfl, rfl⟩
      | _ =>
          cases named
          cases configured
          refine ⟨⟨agentDef, _, _, 0, none, assistant⟩, after, rfl, rfl, rfl, same, ?_⟩
          unfold handle Handler.handleStandaloneMonitorState
          exact Program.bind_ok read

/-- What a state of the agent creates, where its attempts are exhausted or an escalation is
configured. -/
theorem handle_creates (watched : Watched) {state : MonitorState} {trigger : String}
    {config : ActionConfig} (named : state.trigger = some trigger)
    (configured : agentDef.configured state = some config)
    (escalates : config.attempts.isExhausted (watched.made runtime trigger) = false →
      config.action = .escalate ∧ (watched.made runtime trigger = 0 ∨ config.cooldown = none)) :
    ∃ escalation : ActionContext,
      escalation.trigger =
        (if config.attempts.isExhausted (watched.made runtime trigger) then trigger ++ EXHAUSTED
        else trigger) ∧
      createdSources runtime (watched.handle outside agentDef (.state state) runtime).2 =
        [escalation.escalationTrigger.toSource] := by
  obtain ⟨context, middle, rfl, rfl, start, same, handled⟩ :=
    @handle_state outside agentDef runtime watched state trigger config named configured
  have madeSame : watched.made middle context.trigger = watched.made runtime context.trigger := by
    unfold made
    rw [same]
  rw [handled, createdSources_congr (congrArg World.applied same), ← madeSame]
  rw [← madeSame] at escalates
  cases exhausted : context.actionConfig.attempts.isExhausted
      (watched.made middle context.trigger) with
  | true =>
      rw [if_pos rfl]
      cases watched with
      | job owner => exact executeActionWithAttempts_exhausted start exhausted
      | run owner => exact executeStandaloneActionWithAttempts_exhausted start exhausted
  | false =>
      obtain ⟨escalate, atOnce⟩ := escalates exhausted
      rw [if_neg Bool.false_ne_true]
      refine ⟨context, rfl, ?_⟩
      cases watched with
      | job owner => exact executeActionWithAttempts_configured start exhausted escalate atOnce
      | run owner =>
          exact executeStandaloneActionWithAttempts_configured start exhausted escalate atOnce

/-- The gate of a job that fails creates a decision for a gate. -/
theorem handle_gate_job {owner : Job} {command error : String}
    (fails : runGateCommand (runtime.readings 0) ((Watched.job owner).gateText outside command).1
      ((Watched.job owner).gateText outside command).2 = .error error) :
    createdSources runtime ((Watched.job owner).handle outside agentDef (.gate command) runtime).2 =
      [.gate] := by
  have applied (event : Event) (timer : TimerId) (before : Runtime) :
      (Handler.executeAll outside [.emit event, .cancelTimer timer] before).2.world.applied =
        before.world.applied ++ [event] := rfl
  change createdSources runtime (Handler.runGate outside owner agentDef command runtime).2 = _
  unfold Handler.runGate
  rw [Program.bind_ok (Handler.nextReading_run runtime)]
  change runGateCommand _ (outside.interpolateShell command _) (executionDir owner) = _ at fails
  rw [fails]
  exact createdSources_of_applied (applied _ _ runtime.afterReading)

/-- That of a standalone agent creates one for an agent that is idle. -/
theorem handle_gate_run {owner : AgentRun} {command error : String}
    (fails : runGateCommand (runtime.readings 0) ((Watched.run owner).gateText outside command).1
      ((Watched.run owner).gateText outside command).2 = .error error) :
    createdSources runtime ((Watched.run owner).handle outside agentDef (.gate command) runtime).2 =
      [.idle] := by
  change createdSources runtime
    (Handler.runStandaloneGate outside owner agentDef command runtime).2 = _
  unfold Handler.runStandaloneGate
  rw [Program.bind_ok (Handler.nextReading_run runtime)]
  change runGateCommand _ (outside.interpolateShell command _) owner.cwd = _ at fails
  rw [fails]
  change createdSources runtime.afterReading _ = _
  refine (createdSources_escalationEffects (runtime.readings 0)
    ⟨agentDef, .simple .escalate, "gate_failed", 0, none, none⟩ owner error).trans ?_
  obtain ⟨-, -, -, -, -, -, -, -, gate⟩ := guessedSource_named
  rw [toSource_eq_guessed, gate]

end Creation

/-! ## What is asked for -/

section Causes

variable {agentDef runtime}

theorem acted_of_source {state : MonitorState} {source : DecisionSource}
    (asked : state.source = some source) : ∃ trigger config, state.trigger = some trigger ∧
      agentDef.configured state = some config := by
  cases state with
  | working => cases asked
  | _ => exact ⟨_, _, rfl, rfl⟩

theorem exhausted_iff {watched : Watched} {state : MonitorState} {trigger : String}
    {config : ActionConfig} (named : state.trigger = some trigger)
    (configured : agentDef.configured state = some config) :
    watched.Exhausted agentDef runtime state ↔
      config.attempts.isExhausted (watched.made runtime trigger) = true := by
  constructor
  · rintro ⟨trigger', config', named', configured', exhausted⟩
    rw [named] at named'
    rw [configured] at configured'
    cases named'
    cases configured'
    exact exhausted
  · exact fun exhausted => ⟨trigger, config, named, configured, exhausted⟩

/-- The source that is guessed is the one that is asked for exactly where the cause can be read
off the trigger. -/
theorem toSource_eq_iff {watched : Watched} {state : MonitorState} {trigger : String}
    {config : ActionConfig} {source : DecisionSource} {escalation : ActionContext}
    (asked : state.source = some source) (named : state.trigger = some trigger)
    (configured : agentDef.configured state = some config)
    (guessed : escalation.trigger =
      (if config.attempts.isExhausted (watched.made runtime trigger) then trigger ++ EXHAUSTED
      else trigger)) :
    escalation.escalationTrigger.toSource = source ↔
      watched.Readable agentDef runtime (.state state) := by
  have exhausts := @exhausted_iff agentDef runtime watched state trigger config named configured
  obtain ⟨idle, idleTwice, question, questionTwice, prompt, promptTwice, exit, exitTwice, -⟩ :=
    guessedSource_named
  rw [toSource_eq_guessed, guessed]
  cases state with
  | working => cases asked
  | waitingForInput =>
      cases asked
      cases named
      refine iff_of_true ?_ trivial
      split
      · exact idleTwice
      · exact idle
  | prompting promptType questionData shown =>
      cases asked
      cases named
      change _ ↔ promptType = .question ∨ ¬watched.Exhausted agentDef runtime _
      rw [exhausts]
      by_cases asks : promptType = .question
      · simp only [asks, if_true, true_or, iff_true]
        split
        · exact questionTwice
        · exact question
      · simp only [asks, if_false, false_or]
        split
        · rename_i exhausted
          exact iff_of_false (by rw [promptTwice]; exact DecisionSource.noConfusion)
            (not_not_intro exhausted)
        · rename_i left
          exact iff_of_true prompt left
  | failed message errorType =>
      cases asked
      cases named
      change _ ↔ (watched.Exhausted agentDef runtime _ → _) ∧
        (¬watched.Exhausted agentDef runtime _ → _)
      rw [← guessed, ← toSource_eq_guessed, toSource_eq_error_iff, exhausts, guessed]
      split
      · rename_i exhausted
        rw [guessedError_exhausted]
        exact ⟨fun other => ⟨fun _ => other, fun left => (left exhausted).elim⟩,
          fun both => both.1 exhausted⟩
      · rename_i left
        exact ⟨fun other => ⟨fun exhausted => (left exhausted).elim, fun _ => other⟩,
          fun both => both.2 left⟩
  | exited =>
      cases asked
      cases named
      refine iff_of_true ?_ trivial
      split
      · exact exitTwice
      · exact exit
  | gone =>
      cases asked
      cases named
      refine iff_of_true ?_ trivial
      split
      · exact exitTwice
      · exact exit

end Causes

end Watched

/-- A decision that is due has the source of its cause exactly where the cause can be read off
the trigger. -/
theorem escalation_source_iff (outside : Outside) (agentDef : AgentDef) (runtime : Runtime)
    (watched : Watched) (happening : Happening) {source : DecisionSource}
    (asks : watched.Asks outside agentDef runtime source happening) :
    createdSources runtime (watched.handle outside agentDef happening runtime).2 = [source] ↔
      watched.Readable agentDef runtime happening := by
  cases happening with
  | gate command =>
      obtain ⟨rfl, error, fails⟩ := asks
      cases watched with
      | job owner =>
          rw [Watched.handle_gate_job fails]
          exact iff_of_true rfl ⟨owner, rfl⟩
      | run owner =>
          rw [Watched.handle_gate_run fails]
          refine iff_of_false (by decide) ?_
          rintro ⟨other, same⟩
          cases same
  | state state =>
      obtain ⟨asked, due⟩ := asks
      obtain ⟨trigger, config, named, configured⟩ := @Watched.acted_of_source agentDef _ _ asked
      have exhausts := @Watched.exhausted_iff agentDef runtime watched _ _ _ named configured
      have escalates : config.attempts.isExhausted (watched.made runtime trigger) = false →
          config.action = .escalate ∧
            (watched.made runtime trigger = 0 ∨ config.cooldown = none) := by
        intro left
        rcases due with exhausted | ⟨trigger', config', named', configured', action, atOnce⟩
        · rw [exhausts, left] at exhausted
          cases exhausted
        · rw [named] at named'
          rw [configured] at configured'
          cases named'
          cases configured'
          exact ⟨action, atOnce⟩
      obtain ⟨escalation, guessed, created⟩ :=
        @Watched.handle_creates outside agentDef runtime watched _ _ _ named configured escalates
      rw [created, List.cons.injEq, eq_self, and_true]
      exact Watched.toSource_eq_iff asked named configured guessed

def escalatingAgent : AgentDef where
  name := "agent"
  onIdle := .simple .nudge
  onDead := .simple .escalate
  onPrompt := .simple .nudge
  onError := .simple (.simple .escalate)

/-- An agent that has exited is escalated as an error. -/
theorem escalation_source_exited :
    createdSources (.idle stuckRunbook {}) ((Watched.job (stuckJob "job")).handle
      (.plain stuckRunbook) escalatingAgent (.state .exited) (.idle stuckRunbook {})).2 =
        [.error] := by
  have asks : (Watched.job (stuckJob "job")).Asks (.plain stuckRunbook) escalatingAgent
      (.idle stuckRunbook {}) .error (.state .exited) :=
    ⟨rfl, .inr ⟨"exit", .simple .escalate, rfl, rfl, rfl, .inl rfl⟩⟩
  exact (escalation_source_iff _ _ _ _ _ asks).mpr trivial

/-- An error whose text is not one of the names of a trigger is escalated as an idle agent. -/
theorem escalation_source_lost :
    ¬∀ (outside : Outside) (agentDef : AgentDef) (runtime : Runtime) (watched : Watched)
      (happening : Happening) (source : DecisionSource),
      watched.Asks outside agentDef runtime source happening →
        createdSources runtime (watched.handle outside agentDef happening runtime).2 =
          [source] := by
  intro keeps
  have failed : (MonitorState.failed "server overloaded" none).trigger =
      some "server overloaded" := rfl
  have configured : escalatingAgent.configured (.failed "server overloaded" none) =
      some (.simple .escalate) := rfl
  have kept := keeps (.plain stuckRunbook) escalatingAgent (.idle stuckRunbook {})
    (.job (stuckJob "job")) (.state (.failed "server overloaded" none)) .error
    ⟨rfl, .inr ⟨_, _, failed, configured, rfl, .inl rfl⟩⟩
  obtain ⟨escalation, guessed, created⟩ := @Watched.handle_creates (.plain stuckRunbook)
    escalatingAgent (.idle stuckRunbook {}) (.job (stuckJob "job")) _ _ _ failed configured
    fun _ => ⟨rfl, .inl rfl⟩
  have idle : guessedSource "server overloaded" = .idle := by decide
  rw [created, toSource_eq_guessed, guessed] at kept
  rw [if_neg (by decide), idle] at kept
  cases kept

end OddJobs
