import OddJobs.Core.Event

/-!
# Runbooks

The definitions of a runbook that the engine reads: jobs with their steps and
transitions, agents, queues, workers and crons.
-/

namespace OddJobs

/-- What a command or step should execute. -/
inductive RunDirective where
  | shell (command : String)
  | job (job : String)
  | agent (agent : String) (attach : Option Bool)
  deriving DecidableEq, Repr, Inhabited

def RunDirective.isAgent : RunDirective → Bool
  | agent _ _ => true
  | _ => false

structure StepTransition where
  step : String
  deriving DecidableEq, Repr, Inhabited

def StepTransition.stepName (transition : StepTransition) : String := transition.step

/-- Notification messages for lifecycle events. -/
structure NotifyConfig where
  onStart : Option String := none
  onDone : Option String := none
  onFail : Option String := none
  deriving DecidableEq, Repr, Inhabited

structure StepDef where
  name : String
  run : RunDirective
  onDone : Option StepTransition := none
  onFail : Option StepTransition := none
  onCancel : Option StepTransition := none
  deriving DecidableEq, Repr, Inhabited

/-- Workspace configuration: a plain directory, or a git worktree. -/
inductive WorkspaceConfig where
  | folder
  | worktree (branch fromRef : Option String)
  deriving DecidableEq, Repr, Inhabited

def WorkspaceConfig.isGitWorktree : WorkspaceConfig → Bool
  | worktree _ _ => true
  | folder => false

structure JobDef where
  kind : String
  name : Option String := none
  vars : List String := []
  cwd : Option String := none
  workspace : Option WorkspaceConfig := none
  onDone : Option StepTransition := none
  onFail : Option StepTransition := none
  onCancel : Option StepTransition := none
  locals : HashMap String := ∅
  notify : NotifyConfig := {}
  steps : List StepDef

namespace JobDef

def getStep (job : JobDef) (name : String) : Option StepDef :=
  job.steps.find? (·.name == name)

def firstStep (job : JobDef) : Option StepDef := job.steps.head?

theorem getStep_name {job : JobDef} {name : String} {step : StepDef}
    (found : job.getStep name = some step) : step.name = name := by
  have named := List.find?_some found
  exact beq_iff_eq.mp named

theorem getStep_mem {job : JobDef} {name : String} {step : StepDef}
    (found : job.getStep name = some step) : step ∈ job.steps :=
  List.mem_of_find?_eq_some found

end JobDef

/-! ## Agents -/

/-- Number of times an action can fire per trigger occurrence. -/
inductive Attempts where
  | finite (max : Nat)
  | forever
  deriving DecidableEq, Repr, Inhabited

def Attempts.isExhausted (current : Nat) : Attempts → Bool
  | finite max => max ≤ current
  | forever => false

inductive AgentAction where
  | nudge
  | done
  | fail
  | resume
  | escalate
  /-- Run a shell command; advance if it passes, escalate if it fails. -/
  | gate
  deriving DecidableEq, Repr, Inhabited

inductive ActionConfig where
  | simple (action : AgentAction)
  | withOptions (action : AgentAction) (message : Option String := none) (append : Bool := false)
      (run : Option String := none) (attempts : Attempts := .finite 1)
      (cooldown : Option String := none)
  deriving DecidableEq, Repr, Inhabited

namespace ActionConfig

def action : ActionConfig → AgentAction
  | simple action | withOptions action _ _ _ _ _ => action

def message : ActionConfig → Option String
  | simple _ => none
  | withOptions _ message _ _ _ _ => message

def append : ActionConfig → Bool
  | simple _ => false
  | withOptions _ _ append _ _ _ => append

def run : ActionConfig → Option String
  | simple _ => none
  | withOptions _ _ _ run _ _ => run

def attempts : ActionConfig → Attempts
  | simple _ => .finite 1
  | withOptions _ _ _ _ attempts _ => attempts

def cooldown : ActionConfig → Option String
  | simple _ => none
  | withOptions _ _ _ _ _ cooldown => cooldown

end ActionConfig

inductive ErrorType where
  | unauthorized
  | outOfCredits
  | noInternet
  | rateLimited
  deriving DecidableEq, Repr, Inhabited

/-- An action for one type of error, or for all of them. -/
structure ErrorMatch where
  errorMatch : Option ErrorType
  action : AgentAction
  message : Option String := none
  append : Bool := false
  deriving DecidableEq, Repr, Inhabited

/-- Error action configuration: simple, or per error type. -/
inductive ErrorActionConfig where
  | simple (config : ActionConfig)
  | byType (matches_ : List ErrorMatch)
  deriving DecidableEq, Repr, Inhabited

def ErrorActionConfig.actionFor (errorType : Option ErrorType) : ErrorActionConfig → ActionConfig
  | simple config => config
  | byType matches_ =>
      match matches_.find? fun entry => entry.errorMatch.isNone || entry.errorMatch == errorType with
      | some entry => .withOptions entry.action entry.message entry.append none (.finite 1) none
      | none => .simple .escalate

/-- What the engine itself reads of an agent definition. -/
structure AgentDef where
  name : String
  onIdle : ActionConfig := .simple .escalate
  onDead : ActionConfig := .simple .escalate
  onPrompt : ActionConfig := .simple .escalate
  onError : ErrorActionConfig := .simple (.simple .escalate)
  maxConcurrency : Option Nat := none
  notify : NotifyConfig := {}

/-- Type of queue backing: shell commands, or the log. -/
inductive QueueType where
  | external
  | persisted
  deriving DecidableEq, Repr, Inhabited

/-- Retry configuration for persisted queues.  With no attempts, failed items
go directly to dead. -/
structure RetryConfig where
  attempts : Nat := 0
  cooldown : String := "0s"
  deriving DecidableEq, Repr, Inhabited

structure QueueDef where
  name : String := ""
  queueType : QueueType := .external
  list : Option String := none
  take : Option String := none
  vars : List String := []
  defaults : HashMap String := ∅
  retry : Option RetryConfig := none
  poll : Option String := none
  deriving DecidableEq, Repr, Inhabited

/-- A worker polls a queue and dispatches its items to a job. -/
structure WorkerDef where
  name : String := ""
  queue : String
  job : String
  concurrency : Nat := 1
  deriving DecidableEq, Repr, Inhabited

structure CronDef where
  name : String := ""
  interval : String
  run : RunDirective
  concurrency : Option Nat := none
  deriving DecidableEq, Repr, Inhabited

structure Runbook where
  jobs : HashMap JobDef := ∅
  agents : HashMap AgentDef := ∅
  queues : HashMap QueueDef := ∅
  workers : HashMap WorkerDef := ∅
  crons : HashMap CronDef := ∅

namespace Runbook

def getJob (runbook : Runbook) (name : String) : Option JobDef := runbook.jobs[name]?

def getAgent (runbook : Runbook) (name : String) : Option AgentDef := runbook.agents[name]?

def getQueue (runbook : Runbook) (name : String) : Option QueueDef := runbook.queues[name]?

def getWorker (runbook : Runbook) (name : String) : Option WorkerDef := runbook.workers[name]?

def getCron (runbook : Runbook) (name : String) : Option CronDef := runbook.crons[name]?

end Runbook

end OddJobs
