import OddJobs.Library.Relation
import OddJobs.Storage.State

/-!
# Clock readings

The fields that `apply_event` stamps from the clock, and the records without
them.
-/

namespace OddJobs

def AgentRecord.forgetStamps (record : AgentRecord) : AgentRecord :=
  { record with createdAtMs := 0, updatedAtMs := 0 }

def AgentRun.forgetStamps (run : AgentRun) : AgentRun := { run with updatedAtMs := 0 }

def Workspace.forgetStamps (workspace : Workspace) : Workspace :=
  { workspace with createdAtMs := 0 }

def CronRecord.forgetStamps (record : CronRecord) : CronRecord :=
  { record with startedAtMs := 0, lastFiredAtMs := record.lastFiredAtMs.map fun _ => 0 }

def StepRecord.forgetClock (record : StepRecord) : StepRecord :=
  { record with startedAtMs := 0, finishedAtMs := record.finishedAtMs.map fun _ => 0 }

namespace Job

def forgetClock (job : Job) : Job :=
  { job with
    createdAt := 0
    stepStartedAt := 0
    stepHistory := job.stepHistory.map StepRecord.forgetClock }

/-! ## Updates of a job at two readings of the clock -/

theorem updateOpenRecord_forgetClock {update image : StepRecord → StepRecord}
    (commutes : ∀ record, (update record).forgetClock = image record.forgetClock)
    (history : List StepRecord) :
    (updateOpenRecord update history).map StepRecord.forgetClock =
      updateOpenRecord image (history.map StepRecord.forgetClock) := by
  cases history using List.reverseRecOn with
  | nil => rfl
  | append_singleton init record =>
      have stays : record.forgetClock.finishedAtMs.isNone = record.finishedAtMs.isNone :=
        Option.isNone_map
      rw [updateOpenRecord_concat, List.map_append, List.map_append, List.map_singleton,
        List.map_singleton, updateOpenRecord_concat, stays]
      cases record.finishedAtMs.isNone with
      | false => rfl
      | true => simp only [↓reduceIte, commutes]

private theorem forgetClock_ite {condition : Prop} [Decidable condition] {yes no yes' no' : Job}
    (onYes : yes.forgetClock = yes') (onNo : no.forgetClock = no') :
    (if condition then yes else no).forgetClock = if condition then yes' else no' := by
  split
  · exact onYes
  · exact onNo

variable (job : Job)

theorem finalizeCurrentStep_forgetClock (outcome : StepOutcome) (epochMs : Nat) :
    (job.finalizeCurrentStep outcome epochMs).forgetClock =
      job.forgetClock.finalizeCurrentStep outcome 0 := by
  have history := @updateOpenRecord_forgetClock
    (fun record => { record with finishedAtMs := some epochMs, outcome })
    (fun record => { record with finishedAtMs := some 0, outcome })
    (fun _ => rfl) job.stepHistory
  simp only [finalizeCurrentStep, forgetClock, history]

theorem applyAgentExited_forgetClock (exitCode : Option Int) :
    (applyAgentExited exitCode job).forgetClock = applyAgentExited exitCode job.forgetClock :=
  forgetClock_ite rfl (forgetClock_ite rfl rfl)

theorem applyAgentLost_forgetClock (message : String) :
    (applyAgentLost message job).forgetClock = applyAgentLost message job.forgetClock :=
  forgetClock_ite rfl rfl

theorem applyShellExited_forgetClock (epochMs : Nat) (exitCode : Int) :
    (applyShellExited epochMs exitCode job).forgetClock =
      applyShellExited 0 exitCode job.forgetClock :=
  forgetClock_ite (finalizeCurrentStep_forgetClock _ _ _) (finalizeCurrentStep_forgetClock _ _ _)

theorem advanceSkipped_forgetClock (step : String) :
    advanceSkipped step job.forgetClock = advanceSkipped step job := rfl

theorem applyAdvanced_forgetClock (epochMs : Nat) (step : String) :
    (applyAdvanced epochMs step job).forgetClock = applyAdvanced 0 step job.forgetClock := by
  have history := @updateOpenRecord_forgetClock
    (fun record => { record with
      finishedAtMs := some epochMs
      outcome := job.advanceOutcome step })
    (fun record => { record with
      finishedAtMs := some 0
      outcome := job.advanceOutcome step })
    (fun _ => rfl) job.stepHistory
  rw [applyAdvanced_eq, applyAdvanced_eq]
  simp only [forgetClock, List.map_append, history]
  congr 2
  split <;> rfl

theorem applyStepStarted_forgetClock (agentId : Option AgentId) (agentName : Option String) :
    (applyStepStarted agentId agentName job).forgetClock =
      applyStepStarted agentId agentName job.forgetClock := by
  have history := @updateOpenRecord_forgetClock (startedRecord agentId agentName)
    (startedRecord agentId agentName) (fun _ => rfl) job.stepHistory
  rw [applyStepStarted_eq, applyStepStarted_eq]
  simp only [forgetClock, history]

theorem applyStepWaiting_forgetClock (reason decisionId : Option String) :
    (applyStepWaiting reason decisionId job).forgetClock =
      applyStepWaiting reason decisionId job.forgetClock := by
  have history := @updateOpenRecord_forgetClock
    (fun record => { record with outcome := .waiting (reason.getD "") })
    (fun record => { record with outcome := .waiting (reason.getD "") })
    (fun _ => rfl) job.stepHistory
  simp only [applyStepWaiting, updateCurrentStepOutcome, forgetClock, history]

theorem applyStepCompleted_forgetClock (epochMs : Nat) :
    (applyStepCompleted epochMs job).forgetClock = applyStepCompleted 0 job.forgetClock :=
  finalizeCurrentStep_forgetClock _ _ _

theorem applyStepFailed_forgetClock (epochMs : Nat) (error : String) :
    (applyStepFailed epochMs error job).forgetClock = applyStepFailed 0 error job.forgetClock :=
  finalizeCurrentStep_forgetClock _ _ _

theorem hasCurrentAgent_forgetClock (agentId : AgentId) :
    hasCurrentAgent agentId job.forgetClock = hasCurrentAgent agentId job := by
  simp only [hasCurrentAgent, forgetClock, List.getLast?_map]
  cases job.stepHistory.getLast? <;> rfl

end Job

end OddJobs
