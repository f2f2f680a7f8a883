import OddJobs.Engine.Cooldowns

/-!
# Attempts in a row

While the condition of a trigger persists, its action is attempted again and again: by the
next report of the agent, or by the cooldown timer.  Each time an attempt is counted, and
the count decides what comes of it.
-/

namespace OddJobs

open Library

inductive AttemptOutcome where
  /-- The configured action is executed. -/
  | acted
  /-- The cooldown timer is set. -/
  | waited
  /-- The attempts are exhausted. -/
  | escalated
  deriving DecidableEq, Repr

/-- What an attempt comes to after those that have been made. -/
def ActionConfig.outcome (config : ActionConfig) (made : Nat) : AttemptOutcome :=
  if config.attempts.isExhausted made then .escalated
  else if 0 < made ∧ config.cooldown.isSome then .waited
  else .acted

def Runtime.attempts (runtime : Runtime) (id : JobId) (trigger : String) : Nat :=
  ((runtime.world.state.jobs[id]?).map (·.actionTracker.getActionAttempt trigger 0)).getD 0

namespace Handler

variable (outside : Outside)

def carryOutAttempt (job : Job) (context : ActionContext) :
    AttemptOutcome → Handler (List Event)
  | .acted => executeAction outside job context
  | .waited => actAfter outside job context context.actionConfig.cooldown
  | .escalated => executeAction outside job { context with
      actionConfig := .simple .escalate
      trigger := context.trigger ++ "_exhausted" }

/-- An attempt is counted, and then comes to what the attempts before it make of it. -/
theorem executeActionWithAttempts_outcome {job stored : Job} {runtime : Runtime}
    (found : runtime.world.state.jobs[job.id]? = some stored) (context : ActionContext) :
    executeActionWithAttempts outside job context runtime =
      carryOutAttempt outside job context
        (context.actionConfig.outcome
          (stored.actionTracker.getActionAttempt context.trigger context.chainPos))
        (updateJobState job.id
          (·.incrementActionAttempt context.trigger context.chainPos) runtime).2 := by
  have counted := countAttempt_next found context.trigger context.chainPos
  rw [executeActionWithAttempts, Program.bind_ok counted, ActionConfig.outcome]
  generalize stored.actionTracker.getActionAttempt context.trigger context.chainPos = made
  rw [Nat.add_sub_cancel]
  split
  · rfl
  · by_cases again : 0 < made
    · rw [if_pos (Nat.succ_lt_succ again)]
      cases waits : context.actionConfig.cooldown with
      | none =>
          rw [if_neg fun held => Bool.false_ne_true held.2]
          rfl
      | some cooldown =>
          rw [if_pos ⟨again, rfl⟩, carryOutAttempt, waits]
    · rw [if_neg fun later => again (Nat.lt_of_succ_lt_succ later), if_neg fun held => again held.1]
      rfl

theorem attempts_of_found {job : Job} {runtime : Runtime}
    (found : runtime.world.state.jobs[job.id]? = some job) (trigger : String) :
    runtime.attempts job.id trigger = job.actionTracker.getActionAttempt trigger 0 := by
  rw [Runtime.attempts, found]
  rfl

/-- The attempt, once the last message of the agent has been fetched. -/
theorem assistedAction_outcome {job : Job} {runtime : Runtime}
    (found : runtime.world.state.jobs[job.id]? = some job) {trigger : String}
    {config : ActionConfig} (context : Option String → ActionContext)
    (same : ∀ assistant, (context assistant).actionConfig = config ∧
      (context assistant).trigger = trigger ∧ (context assistant).chainPos = 0) :
    ∃ actual after, actual.actionConfig = config ∧ actual.trigger = trigger ∧
      (do
        let assistant ← assistantContext job
        executeActionWithAttempts outside job (context assistant) : Handler (List Event)) runtime =
        carryOutAttempt outside job actual (config.outcome (runtime.attempts job.id trigger))
          after := by
  obtain ⟨assistant, after, world, ran⟩ := assistantContext_run job runtime
  obtain ⟨action, reason, first⟩ := same assistant
  have present : after.world.state.jobs[job.id]? = some job := by rw [world, found]
  have attempt := executeActionWithAttempts_outcome outside present (context assistant)
  rw [action, first] at attempt
  refine ⟨context assistant, (updateJobState job.id
    (·.incrementActionAttempt (context assistant).trigger 0) after).2, action, reason, ?_⟩
  rw [Program.bind_ok ran, attempts_of_found found, ← reason]
  exact attempt

/-- A report of the agent makes an attempt. -/
theorem handleMonitorState_outcome {job : Job} {runtime : Runtime}
    (found : runtime.world.state.jobs[job.id]? = some job) {agentDef : AgentDef}
    {state : MonitorState} {trigger : String} {config : ActionConfig}
    (triggered : state.trigger = some trigger)
    (configured : agentDef.configured state = some config) :
    ∃ context after, context.actionConfig = config ∧ context.trigger = trigger ∧
      handleMonitorState outside job agentDef state runtime =
        carryOutAttempt outside job context (config.outcome (runtime.attempts job.id trigger))
          after := by
  cases state with
  | working => cases triggered
  | prompting promptType questionData assistant =>
      cases triggered
      cases configured
      have attempt := executeActionWithAttempts_outcome outside found
        ⟨agentDef, agentDef.onPrompt,
          if promptType = .question then "prompt:question" else "prompt", 0, questionData,
          assistant⟩
      rw [attempts_of_found found]
      exact ⟨_, _, rfl, rfl, attempt⟩
  | waitingForInput | failed | exited | gone =>
      cases triggered
      cases configured
      exact assistedAction_outcome outside found (fun assistant => ⟨agentDef, _, _, 0, none,
        assistant⟩) fun _ => ⟨rfl, rfl, rfl⟩

/-- The cooldown timer of an agent that is idle or has exited makes an attempt. -/
theorem handleTimer_outcome (others : OtherHandlers) {job : Job} {runtime : Runtime}
    (free : ':' ∉ job.id.toList) (other : job.id ≠ "ar")
    (found : runtime.world.state.jobs[job.id]? = some job) (active : job.isTerminal = false)
    {agentDef : AgentDef} (agent : runtime.agentOf outside job = some agentDef)
    {trigger : String} {config : ActionConfig}
    (configured : agentDef.cooldownAction trigger = some config) :
    ∃ context after, context.actionConfig = config ∧ context.trigger = trigger ∧
      handleTimer outside (others.withCooldowns outside) (Timer.cooldown job.id trigger 0) runtime =
        carryOutAttempt outside job context (config.outcome (runtime.attempts job.id trigger))
          after := by
  have word : ':' ∉ trigger.toList := by
    have known := (agentDef.cooldownAction_eq_none trigger).not.mp (by rw [configured]; simp)
    rw [not_and_or, not_ne_iff, not_ne_iff] at known
    rcases known with rfl | rfl <;> decide
  have parts := splitCooldown_word free word (show 0 < U64_VALUES by decide)
  rw [handleTimer_job outside others free other, handleCooldownTimer_of_split outside parts,
    forActiveJob_run (MaterializedState.getJob_found found) active]
  obtain ⟨middle, world, ran⟩ := forAgent_finds outside agent
  have present : middle.world.state.jobs[job.id]? = some job := by rw [world, found]
  have attempts : middle.attempts job.id trigger = runtime.attempts job.id trigger := by
    rw [Runtime.attempts, Runtime.attempts, world]
  unfold retrigger
  rw [ran, configured, ← attempts]
  exact assistedAction_outcome outside present
    (fun assistant => ⟨agentDef, config, trigger, 0, none, assistant⟩) fun _ => ⟨rfl, rfl, rfl⟩

/-- A report of the agent, or the cooldown timer, makes an attempt that comes to this. -/
def Attempted (others : OtherHandlers) (id : JobId) (state : MonitorState) (trigger : String)
    (config : ActionConfig) (outcome : AttemptOutcome) (before : Runtime) : Prop :=
  ∃ (job : Job) (handled : Except RuntimeError (List Event) × Runtime),
    before.world.state.jobs[id]? = some job ∧
      ((∃ agentDef, handled = handleMonitorState outside job agentDef state before) ∨
      handled = handleTimer outside (others.withCooldowns outside) (Timer.cooldown id trigger 0)
        before) ∧
    ∃ context after, context.actionConfig = config ∧ context.trigger = trigger ∧
      handled = carryOutAttempt outside job context outcome after

end Handler

/-! ## Runs -/

/-- A run of a job in which the condition of a trigger persists, with what its attempts have
come to: the attempts are made by reports and by the cooldown timer, and nothing else
changes their count. -/
inductive Persisting (outside : Outside) (others : OtherHandlers) (id : JobId)
    (state : MonitorState) (trigger : String) (config : ActionConfig) :
    List AttemptOutcome → Runtime → Prop where
  | start {runtime : Runtime} (fresh : runtime.attempts id trigger = 0) :
      Persisting outside others id state trigger config [] runtime
  | reported {outcomes : List AttemptOutcome} {before : Runtime} {job : Job} {agentDef : AgentDef}
      (earlier : Persisting outside others id state trigger config outcomes before)
      (found : before.world.state.jobs[id]? = some job) (named : job.id = id)
      (triggered : state.trigger = some trigger)
      (configured : agentDef.configured state = some config)
      (persists : (Handler.handleMonitorState outside job agentDef state before).2.attempts id
        trigger = before.attempts id trigger + 1) :
      Persisting outside others id state trigger config
        (outcomes ++ [config.outcome (before.attempts id trigger)])
        (Handler.handleMonitorState outside job agentDef state before).2
  | fired {outcomes : List AttemptOutcome} {before : Runtime} {job : Job} {agentDef : AgentDef}
      (earlier : Persisting outside others id state trigger config outcomes before)
      (found : before.world.state.jobs[id]? = some job) (named : job.id = id)
      (active : job.isTerminal = false) (agent : before.agentOf outside job = some agentDef)
      (configured : agentDef.cooldownAction trigger = some config)
      (persists : (Handler.handleTimer outside (others.withCooldowns outside)
        (Timer.cooldown id trigger 0) before).2.attempts id trigger =
          before.attempts id trigger + 1) :
      Persisting outside others id state trigger config
        (outcomes ++ [config.outcome (before.attempts id trigger)])
        (Handler.handleTimer outside (others.withCooldowns outside)
          (Timer.cooldown id trigger 0) before).2
  | elsewhere {outcomes : List AttemptOutcome} {before after : Runtime}
      (earlier : Persisting outside others id state trigger config outcomes before)
      (same : after.attempts id trigger = before.attempts id trigger) :
      Persisting outside others id state trigger config outcomes after

namespace Persisting

variable {outside : Outside} {others : OtherHandlers} {id : JobId} {state : MonitorState}
  {trigger : String} {config : ActionConfig} {outcomes : List AttemptOutcome} {after : Runtime}

/-- The attempts come to what their numbers make of them. -/
theorem outcomes_eq (run : Persisting outside others id state trigger config outcomes after) :
    outcomes = (List.range (after.attempts id trigger)).map config.outcome := by
  induction run with
  | start fresh => rw [fresh]; rfl
  | reported earlier found named triggered configured persists ih =>
      rw [persists, List.range_succ, List.map_append, ← ih]
      rfl
  | fired earlier found named active agent configured persists ih =>
      rw [persists, List.range_succ, List.map_append, ← ih]
      rfl
  | elsewhere earlier same ih => rw [same]; exact ih

/-- At its turn in the run, each attempt has been carried out as it is said to have come out. -/
theorem attempted (run : Persisting outside others id state trigger config outcomes after)
    (free : ':' ∉ id.toList) (other : id ≠ "ar") {n : Nat} {outcome : AttemptOutcome}
    (nth : outcomes[n]? = some outcome) :
    ∃ before, Persisting outside others id state trigger config (outcomes.take n) before ∧
      Handler.Attempted outside others id state trigger config outcome before := by
  have last {outcomes : List AttemptOutcome} {before : Runtime} {made : AttemptOutcome}
      (earlier : Persisting outside others id state trigger config outcomes before)
      (attempt : Handler.Attempted outside others id state trigger config made before)
      (ih : outcomes[n]? = some outcome → ∃ before,
        Persisting outside others id state trigger config (outcomes.take n) before ∧
          Handler.Attempted outside others id state trigger config outcome before)
      (nth : (outcomes ++ [made])[n]? = some outcome) :
      ∃ before, Persisting outside others id state trigger config ((outcomes ++ [made]).take n)
        before ∧ Handler.Attempted outside others id state trigger config outcome before := by
    rcases Nat.lt_or_ge n outcomes.length with inside | beyond
    · rw [List.getElem?_append_left inside] at nth
      rw [List.take_append_of_le_length (Nat.le_of_lt inside)]
      exact ih nth
    · rw [List.getElem?_append_right beyond, List.getElem?_singleton] at nth
      split at nth
      · cases nth
        have whole : n = outcomes.length := by omega
        rw [whole, List.take_left]
        exact ⟨before, earlier, attempt⟩
      · cases nth
  induction run with
  | start fresh => cases nth
  | reported earlier found named triggered configured persists ih =>
      subst named
      exact last earlier ⟨_, _, found, .inl ⟨_, rfl⟩,
        Handler.handleMonitorState_outcome outside found triggered configured⟩ ih nth
  | fired earlier found named active agent configured persists ih =>
      subst named
      exact last earlier ⟨_, _, found, .inr rfl,
        Handler.handleTimer_outcome outside others free other found active agent configured⟩ ih nth
  | elsewhere earlier same ih => exact ih nth

end Persisting

namespace ActionConfig

variable {config : ActionConfig} {max : Nat}

theorem outcome_escalated_iff (finite : config.attempts = .finite max) (made : Nat) :
    config.outcome made = .escalated ↔ max ≤ made := by
  rw [outcome, finite, Attempts.isExhausted]
  by_cases exhausted : max ≤ made
  · simp [exhausted]
  · rw [decide_eq_false exhausted, if_neg Bool.false_ne_true]
    constructor
    · intro same
      split at same <;> cases same
    · exact fun reached => absurd reached exhausted

/-- With a cooldown only the first attempt executes the action. -/
theorem outcome_acted_iff (finite : config.attempts = .finite max) (cools : config.cooldown.isSome)
    {made : Nat} (left : made < max) : config.outcome made = .acted ↔ made = 0 := by
  rw [outcome, finite, Attempts.isExhausted, decide_eq_false (Nat.not_le.mpr left),
    if_neg Bool.false_ne_true]
  by_cases first : made = 0
  · subst first
    exact ⟨fun _ => rfl, fun _ => rfl⟩
  · rw [if_pos ⟨Nat.pos_of_ne_zero first, cools⟩]
    exact ⟨fun same => (by cases same), fun same => absurd same first⟩

theorem count_acted (finite : config.attempts = .finite max) (cools : config.cooldown.isSome)
    {made : Nat} (bounded : made ≤ max) :
    ((List.range made).map config.outcome).count .acted = min made 1 := by
  induction made with
  | zero => rfl
  | succ made ih =>
      have last := outcome_acted_iff finite cools (Nat.lt_of_succ_le bounded)
      rw [List.range_succ, List.map_append, List.count_append,
        ih (Nat.le_trans (Nat.le_succ made) bounded), List.map_singleton, List.count_singleton]
      by_cases first : made = 0
      · rw [last.mpr first, first]
        rfl
      · rw [beq_false_of_ne fun same => first (last.mp same), if_neg Bool.false_ne_true]
        omega

end ActionConfig

section Exact

variable {outside : Outside} {others : OtherHandlers} {id : JobId} {state : MonitorState}
  {trigger : String} {config : ActionConfig} {max : Nat} {outcomes : List AttemptOutcome}
  {after : Runtime}

/-- The first escalation comes after as many attempts as there may be. -/
theorem length_before_escalation (finite : config.attempts = .finite max)
    (run : Persisting outside others id state trigger config (outcomes ++ [.escalated]) after)
    (first : .escalated ∉ outcomes) : outcomes = (List.range max).map config.outcome := by
  have all := run.outcomes_eq
  cases made : after.attempts id trigger with
  | zero =>
      rw [made] at all
      exact absurd (List.append_eq_nil_iff.mp all).2 (List.cons_ne_nil _ _)
  | succ before =>
      rw [made, List.range_succ, List.map_append, List.map_singleton] at all
      obtain ⟨earlier, last⟩ := List.append_inj' all rfl
      have reached : max ≤ before :=
        (ActionConfig.outcome_escalated_iff finite before).mp (List.singleton_inj.mp last).symm
      have left : before ≤ max := by
        refine Nat.not_lt.mp fun later => first ?_
        rw [earlier, List.mem_map]
        exact ⟨max, List.mem_range.mpr later,
          (ActionConfig.outcome_escalated_iff finite max).mpr (Nat.le_refl max)⟩
      rw [earlier, Nat.le_antisymm left reached]

/-- With a cooldown, the action is executed as often as there are attempts before they are
exhausted, exactly when there is at most one.  The handlers carry out what each attempt comes to. -/
theorem attempts_executed_iff (finite : config.attempts = .finite max)
    (cools : config.cooldown.isSome)
    (run : Persisting outside others id state trigger config (outcomes ++ [.escalated]) after)
    (first : .escalated ∉ outcomes) :
    (outcomes.count .acted = max ↔ max ≤ 1) ∧
      (':' ∉ id.toList → id ≠ "ar" → ∀ (n : Nat) (outcome : AttemptOutcome),
        (outcomes ++ [AttemptOutcome.escalated])[n]? = some outcome →
        ∃ before, Handler.Attempted outside others id state trigger config outcome before ∧
          Persisting outside others id state trigger config
            ((outcomes ++ [AttemptOutcome.escalated]).take n) before) := by
  constructor
  · rw [length_before_escalation finite run first,
      ActionConfig.count_acted finite cools (Nat.le_refl max)]
    omega
  · intro free other n outcome nth
    obtain ⟨before, earlier, attempt⟩ := run.attempted free other nth
    exact ⟨before, attempt, earlier⟩

end Exact

section TwoAttempts

def nudgeTwice : ActionConfig := .withOptions .nudge none false none (.finite 2) (some "10s")

def nudgedAgent : AgentDef where
  name := "agent"
  onIdle := nudgeTwice

def nudgedRunbook : Runbook where
  jobs := (∅ : HashMap JobDef).insert "job"
    { kind := "job", steps := [{ name := "step", run := .agent "agent" none }] }
  agents := (∅ : HashMap AgentDef).insert "agent" nudgedAgent

def nudgedState : MaterializedState where
  jobs := (∅ : HashMap Job).insert "job" { stuckJob "job" with sessionId := some "session" }

def nudgedRuntime : Runtime :=
  { Runtime.idle nudgedRunbook nudgedState with
    runbookCache := (∅ : HashMap Runbook).insert "hash" nudgedRunbook }

def reportIdle (runtime : Runtime) : Runtime :=
  match runtime.world.state.jobs["job"]? with
  | some job =>
      (Handler.handleMonitorState (Outside.plain nudgedRunbook) job nudgedAgent .waitingForInput
        runtime).2
  | none => runtime

theorem reportIdle_persists {outcomes : List AttemptOutcome} {before : Runtime} (made : Nat)
    (earlier : Persisting (Outside.plain nudgedRunbook) .silent "job" .waitingForInput "idle"
      nudgeTwice outcomes before)
    (named : (before.world.state.jobs["job"]?).map Job.id = some "job")
    (counted : before.attempts "job" "idle" = made)
    (counts : (reportIdle before).attempts "job" "idle" = made + 1) :
    Persisting (Outside.plain nudgedRunbook) .silent "job" .waitingForInput "idle" nudgeTwice
      (outcomes ++ [nudgeTwice.outcome made]) (reportIdle before) := by
  obtain ⟨job, found, same⟩ := Option.map_eq_some_iff.mp named
  have reported : reportIdle before = (Handler.handleMonitorState (Outside.plain nudgedRunbook) job
      nudgedAgent .waitingForInput before).2 := by
    unfold reportIdle
    rw [found]
  rw [reported, ← counted] at counts ⊢
  exact .reported earlier found same rfl rfl counts

def expireCooldown (runtime : Runtime) : Runtime :=
  (Handler.handleTimer (Outside.plain nudgedRunbook)
    (OtherHandlers.silent.withCooldowns (Outside.plain nudgedRunbook))
    (Timer.cooldown "job" "idle" 0) runtime).2

theorem expireCooldown_persists {outcomes : List AttemptOutcome} {before : Runtime} (made : Nat)
    (earlier : Persisting (Outside.plain nudgedRunbook) .silent "job" .waitingForInput "idle"
      nudgeTwice outcomes before)
    (stands : (before.world.state.jobs["job"]?).map (fun job =>
      (job.id, job.runbookHash, job.kind, job.step)) = some ("job", "hash", "job", "step"))
    (cached : before.runbookCache = nudgedRuntime.runbookCache)
    (counted : before.attempts "job" "idle" = made)
    (counts : (expireCooldown before).attempts "job" "idle" = made + 1) :
    Persisting (Outside.plain nudgedRunbook) .silent "job" .waitingForInput "idle" nudgeTwice
      (outcomes ++ [nudgeTwice.outcome made]) (expireCooldown before) := by
  obtain ⟨job, found, same⟩ := Option.map_eq_some_iff.mp stands
  obtain ⟨named, same⟩ := Prod.mk.inj same
  obtain ⟨hash, rest⟩ := Prod.mk.inj same
  obtain ⟨kind, step⟩ := Prod.mk.inj rest
  have active : job.isTerminal = false := by
    rw [Job.isTerminal, step]
    decide
  have known : before.runbookAt (Outside.plain nudgedRunbook) job.runbookHash =
      some nudgedRunbook := by
    have lookup : nudgedRuntime.runbookCache["hash"]? = some nudgedRunbook := by
      unfold nudgedRuntime
      dsimp only
      rw [Table.lookup_insert, if_pos rfl]
    unfold Runtime.runbookAt
    rw [hash, cached, lookup]
  have agent : before.agentOf (Outside.plain nudgedRunbook) job = some nudgedAgent := by
    have defined : nudgedRunbook.getJob "job" = some
        { kind := "job", steps := [{ name := "step", run := .agent "agent" none }] } := by
      unfold Runbook.getJob nudgedRunbook
      dsimp only
      rw [Table.lookup_insert, if_pos rfl]
    have present : nudgedRunbook.getAgent "agent" = some nudgedAgent := by
      unfold Runbook.getAgent nudgedRunbook
      dsimp only
      rw [Table.lookup_insert, if_pos rfl]
    rw [Runtime.agentOf, known, Option.bind_some]
    unfold Handler.getAgentDef
    rw [kind, step, defined]
    exact present
  rw [← counted] at counts ⊢
  exact .fired earlier found named active agent rfl counts

/-- One nudge, one cooldown, and the attempts are exhausted. -/
theorem nudgeTwice_run :
    Persisting (Outside.plain nudgedRunbook) .silent "job" .waitingForInput "idle" nudgeTwice
      ([.acted, .waited] ++ [.escalated])
      (expireCooldown (reportIdle (reportIdle nudgedRuntime))) := by
  have start : Persisting (Outside.plain nudgedRunbook) .silent "job" .waitingForInput "idle"
      nudgeTwice [] nudgedRuntime := .start (by decide +kernel)
  have first := reportIdle_persists 0 start (by decide +kernel) (by decide +kernel)
    (by decide +kernel)
  have second := reportIdle_persists 1 first (by decide +kernel) (by decide +kernel)
    (by decide +kernel)
  exact expireCooldown_persists 2 second (by decide +kernel) rfl (by decide +kernel)
    (by decide +kernel)

/-- Two attempts are more than one: the second only waits, and no nudge comes of it. -/
theorem nudgeTwice_executed :
    ([AttemptOutcome.acted, .waited].count .acted = 2 ↔ 2 ≤ 1) ∧
      ∃ before, Handler.Attempted (Outside.plain nudgedRunbook) .silent "job" .waitingForInput "idle"
        nudgeTwice .waited before := by
  obtain ⟨executed, attempted⟩ := attempts_executed_iff rfl rfl nudgeTwice_run (by decide)
  obtain ⟨before, waits, _⟩ := attempted (by decide) (by decide) 1 .waited rfl
  exact ⟨executed, before, waits⟩

/-- An action with two attempts and a cooldown is executed once. -/
theorem cooldown_spends_attempt :
    ¬∀ (outside : Outside) (others : OtherHandlers) (id : JobId) (state : MonitorState)
      (trigger : String) (config : ActionConfig) (max : Nat) (outcomes : List AttemptOutcome)
      (after : Runtime), config.attempts = .finite max → config.cooldown.isSome →
      Persisting outside others id state trigger config (outcomes ++ [.escalated]) after →
      .escalated ∉ outcomes → outcomes.count .acted = max := by
  intro executed
  have twice := executed _ _ _ _ _ _ 2 [.acted, .waited] _ rfl rfl nudgeTwice_run (by decide)
  exact absurd twice (by decide)

end TwoAttempts

end OddJobs
