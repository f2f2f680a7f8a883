import Mathlib.Data.List.Induction
import OddJobs.Core.Records

/-!
# Step records of a job

The helpers through which events change a job: finishing the current step
record, opening the next one, and counting the visits of a step.
-/

namespace OddJobs

namespace ActionTracker

def actionKey (trigger : String) (chainPos : Nat) : String := trigger ++ ":" ++ toString chainPos

def getActionAttempt (trigger : String) (chainPos : Nat) (tracker : ActionTracker) : Nat :=
  (tracker.actionAttempts[actionKey trigger chainPos]?).getD 0

def incrementActionAttempt (trigger : String) (chainPos : Nat) (tracker : ActionTracker) :
    ActionTracker :=
  { tracker with
    actionAttempts := tracker.actionAttempts.insert (actionKey trigger chainPos)
      (tracker.getActionAttempt trigger chainPos + 1) }

def resetActionAttempts (tracker : ActionTracker) : ActionTracker :=
  { tracker with actionAttempts := ∅ }

def clearAgentSignal (tracker : ActionTracker) : ActionTracker :=
  { tracker with agentSignal := none }

end ActionTracker

/-- Maximum number of times any single step can be entered before the job is
failed with a circuit-breaker error. -/
def MAX_STEP_VISITS : Nat := 5

def isTerminalStep (step : String) : Bool :=
  step == "done" || step == "failed" || step == "cancelled"

def enteredStatus (step : String) : StepStatus :=
  if step = "failed" ∨ step = "cancelled" then .failed
  else if step = "done" then .completed
  else .pending

theorem enteredStatus_eq_failed (step : String) :
    (enteredStatus step == .failed) = (step == "failed" || step == "cancelled") := by
  by_cases fails : step = "failed" ∨ step = "cancelled"
  · rcases fails with rfl | rfl <;> decide
  · have others := not_or.mp fails
    by_cases done : step = "done"
    · subst done
      decide
    · have pending : enteredStatus step = .pending := by
        simp [enteredStatus, others.1, others.2, done]
      rw [pending, beq_false_of_ne others.1, beq_false_of_ne others.2]
      rfl

theorem enteredStatus_nonterminal {step : String} (continues : isTerminalStep step = false) :
    enteredStatus step = .pending := by
  have others : (step ≠ "done" ∧ step ≠ "failed") ∧ step ≠ "cancelled" := by
    simpa [isTerminalStep] using continues
  simp [enteredStatus, others.1.1, others.1.2, others.2]

structure JobConfig where
  id : String
  name : String
  kind : String
  vars : HashMap String
  runbookHash : String
  cwd : PathBuf
  initialStep : String
  ns : String
  cronName : Option String

def updateOpenRecord (update : StepRecord → StepRecord) : List StepRecord → List StepRecord
  | [] => []
  | [record] => if record.finishedAtMs.isNone then [update record] else [record]
  | record :: rest => record :: updateOpenRecord update rest

theorem updateOpenRecord_concat (update : StepRecord → StepRecord) (history : List StepRecord)
    (record : StepRecord) :
    updateOpenRecord update (history ++ [record]) =
      history ++ [if record.finishedAtMs.isNone then update record else record] := by
  induction history with
  | nil =>
      simp only [List.nil_append, updateOpenRecord]
      split <;> rfl
  | cons first rest ih =>
      cases rest with
      | nil => exact congrArg (first :: ·) ih
      | cons second tail => exact congrArg (first :: ·) ih

/-- Two updates of the open record, the first of which leaves it open, are one. -/
theorem updateOpenRecord_comp (first second : StepRecord → StepRecord)
    (history : List StepRecord)
    (leavesOpen : ∀ record, (first record).finishedAtMs = record.finishedAtMs) :
    updateOpenRecord second (updateOpenRecord first history) =
      updateOpenRecord (second ∘ first) history := by
  cases history using List.reverseRecOn with
  | nil => rfl
  | append_singleton init record =>
      rw [updateOpenRecord_concat, updateOpenRecord_concat, updateOpenRecord_concat]
      cases finished : record.finishedAtMs <;> simp [finished, leavesOpen]

/-- An update that absorbs a second one, or that closes the record, is not changed by it. -/
theorem updateOpenRecord_twice (first second : StepRecord → StepRecord)
    (history : List StepRecord)
    (absorbs : ∀ record, (first record).finishedAtMs = none →
      second (first record) = first record) :
    updateOpenRecord second (updateOpenRecord first history) = updateOpenRecord first history := by
  cases history using List.reverseRecOn with
  | nil => rfl
  | append_singleton init record =>
      rw [updateOpenRecord_concat, updateOpenRecord_concat]
      cases finished : record.finishedAtMs with
      | some epochMs => simp [finished]
      | none =>
          cases closed : (first record).finishedAtMs with
          | some epochMs => simp [closed]
          | none => simp [closed, absorbs record closed]

theorem updateOpenRecord_names (update : StepRecord → StepRecord) (history : List StepRecord)
    (keepsName : ∀ record, (update record).name = record.name) :
    (updateOpenRecord update history).map (·.name) = history.map (·.name) := by
  cases history using List.reverseRecOn with
  | nil => rfl
  | append_singleton init record =>
      rw [updateOpenRecord_concat]
      cases finished : record.finishedAtMs <;> simp [keepsName]

namespace Job

def newWithEpochMs (config : JobConfig) (epochMs instant : Nat) : Job where
  id := config.id
  name := config.name
  kind := config.kind
  ns := config.ns
  step := config.initialStep
  stepStatus := .pending
  vars := config.vars
  runbookHash := config.runbookHash
  cwd := config.cwd
  workspaceId := none
  workspacePath := none
  sessionId := none
  createdAt := instant
  stepStartedAt := instant
  error := none
  stepHistory := [{
    name := config.initialStep
    startedAtMs := epochMs
    finishedAtMs := none
    outcome := .running
    agentId := none
    agentName := none }]
  actionTracker := {}
  cancelling := false
  totalRetries := 0
  stepVisits := ∅
  cronName := config.cronName
  idleGraceLogSize := none
  lastNudgeAt := none

def finalizeCurrentStep (job : Job) (outcome : StepOutcome) (epochMs : Nat) : Job :=
  { job with
    stepHistory := updateOpenRecord
      (fun record => { record with finishedAtMs := some epochMs, outcome }) job.stepHistory }

def updateCurrentStepOutcome (job : Job) (outcome : StepOutcome) : Job :=
  { job with
    stepHistory := updateOpenRecord (fun record => { record with outcome }) job.stepHistory }

def pushStep (job : Job) (name : String) (epochMs : Nat) : Job :=
  { job with
    stepHistory := job.stepHistory ++ [{
      name
      startedAtMs := epochMs
      finishedAtMs := none
      outcome := .running
      agentId := none
      agentName := none }] }

def setCurrentStepAgentId (job : Job) (agentId : String) : Job :=
  { job with
    stepHistory := updateOpenRecord (fun record => { record with agentId := some agentId })
      job.stepHistory }

def setCurrentStepAgentName (job : Job) (agentName : String) : Job :=
  { job with
    stepHistory := updateOpenRecord (fun record => { record with agentName := some agentName })
      job.stepHistory }

def isTerminal (job : Job) : Bool := isTerminalStep job.step

def incrementActionAttempt (trigger : String) (chainPos : Nat) (job : Job) : Job :=
  let actionTracker := job.actionTracker.incrementActionAttempt trigger chainPos
  let retries := if 1 < actionTracker.getActionAttempt trigger chainPos then 1 else 0
  { job with actionTracker, totalRetries := job.totalRetries + retries }

def resetActionAttempts (job : Job) : Job :=
  { job with actionTracker := job.actionTracker.resetActionAttempts }

def clearAgentSignal (job : Job) : Job :=
  { job with actionTracker := job.actionTracker.clearAgentSignal }

def getStepVisits (job : Job) (step : String) : Nat :=
  (job.stepVisits[step]?).getD 0

def recordStepVisit (job : Job) (step : String) : Job :=
  { job with stepVisits := job.stepVisits.insert step (job.getStepVisits step + 1) }

def historyNames (job : Job) : List String := job.stepHistory.map (·.name)

theorem finalizeCurrentStep_twice (job : Job) (first second : StepOutcome) (epochMs again : Nat) :
    (job.finalizeCurrentStep first epochMs).finalizeCurrentStep second again =
      job.finalizeCurrentStep first epochMs := by
  have history := updateOpenRecord_twice
    (fun record => { record with finishedAtMs := some epochMs, outcome := first })
    (fun record => { record with finishedAtMs := some again, outcome := second })
    job.stepHistory (fun _ opened => nomatch opened)
  simp only [finalizeCurrentStep, history]

end Job

end OddJobs
