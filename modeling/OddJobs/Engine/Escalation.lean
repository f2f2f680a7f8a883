import OddJobs.Library.Map
import OddJobs.Storage.State

/-!
# Escalation decisions

When an agent needs a human, a decision is created whose options depend on what has
happened.
-/

namespace OddJobs

inductive EscalationTrigger where
  | idle (assistantContext : Option String)
  | dead (exitCode : Option Int) (assistantContext : Option String)
  | error (errorType message : String) (assistantContext : Option String)
  | gateFailed (command : String) (exitCode : Int) (stderr : String)
  | prompt (promptType : String) (assistantContext : Option String)
  | question (questionData : Option QuestionData) (assistantContext : Option String)
  deriving DecidableEq, Repr

namespace DecisionOption

def new (label : String) : DecisionOption := ⟨label, none, false⟩

def describe (option : DecisionOption) (text : String) : DecisionOption :=
  { option with description := some text }

def recommend (option : DecisionOption) : DecisionOption := { option with recommended := true }

end DecisionOption

namespace EscalationTrigger

def toSource : EscalationTrigger → DecisionSource
  | idle _ => .idle
  | dead _ _ | error _ _ _ => .error
  | gateFailed _ _ _ => .gate
  | prompt _ _ => .approval
  | question _ _ => .question

def questionOptions (questionData : Option QuestionData) : List DecisionOption :=
  match questionData.bind (·.questions.head?) with
  | none => []
  | some entry => entry.options.map fun option =>
      { DecisionOption.new option.label with description := option.description }

def buildOptions : EscalationTrigger → List DecisionOption
  | idle _ => [
      ((DecisionOption.new "Nudge").describe
        "Send a message prompting the agent to continue").recommend,
      (DecisionOption.new "Done").describe "Mark as complete",
      (DecisionOption.new "Cancel").describe "Cancel and fail",
      (DecisionOption.new "Dismiss").describe "Dismiss this notification without taking action"]
  | dead _ _ | error _ _ _ => [
      ((DecisionOption.new "Retry").describe
        "Restart the agent with --resume to continue").recommend,
      (DecisionOption.new "Skip").describe "Skip and mark as complete",
      (DecisionOption.new "Cancel").describe "Cancel and fail"]
  | gateFailed _ _ _ => [
      ((DecisionOption.new "Retry").describe "Re-run the gate command").recommend,
      (DecisionOption.new "Skip").describe "Skip the gate and continue",
      (DecisionOption.new "Cancel").describe "Cancel and fail"]
  | prompt _ _ => [
      (DecisionOption.new "Approve").describe "Approve the pending action",
      (DecisionOption.new "Deny").describe "Deny the pending action",
      (DecisionOption.new "Cancel").describe "Cancel and fail"]
  | question questionData _ =>
      questionOptions questionData ++ [(DecisionOption.new "Cancel").describe "Cancel and fail"]

/-- The event that creates the decision.  Its context, which only people read, is given. -/
def build (id : DecisionId) (owner : OwnerId) (agentId : Option String) (context : String)
    (createdAtMs : Nat) (ns : String) (trigger : EscalationTrigger) : Event :=
  let jobId := match owner with
    | .job id => id
    | .agentRun _ => ""
  .decisionCreated id jobId agentId owner trigger.toSource context trigger.buildOptions createdAtMs
    ns

end EscalationTrigger

/-- The decision is one that was built for an escalation of its job. -/
structure Decision.BuiltFor (trigger : EscalationTrigger) (decision : Decision) : Prop where
  owner : decision.owner = .job decision.jobId
  source : decision.source = trigger.toSource
  options : decision.options = trigger.buildOptions

end OddJobs
