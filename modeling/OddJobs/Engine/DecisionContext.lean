import OddJobs.Agent.LogEntry
import OddJobs.Engine.Escalation

/-!
# Contexts of decisions

What a person reads of an escalation.  A long message of the agent is cut at a fixed byte.
-/

namespace OddJobs.EscalationTrigger

open Library AgentLog

def questionLine (entry : QuestionEntry) : String :=
  "[" ++ entry.header.getD "Question" ++ "] " ++ entry.question

def header (displayName : String) : EscalationTrigger → List String
  | idle _ => ["Agent in job \"" ++ displayName ++ "\" is idle and waiting for input."]
  | dead exitCode _ =>
      let code := (exitCode.map fun code => " (exit code " ++ toString code ++ ")").getD ""
      ["Agent in job \"" ++ displayName ++ "\" exited unexpectedly" ++ code ++ "."]
  | error errorType message _ =>
      ["Agent in job \"" ++ displayName ++ "\" encountered an error: " ++ errorType ++ " - " ++
        message]
  | gateFailed command exitCode stderr =>
      ["Gate command failed in job \"" ++ displayName ++ "\".", "Command: " ++ command,
        "Exit code: " ++ toString exitCode] ++
          if stderr = "" then [] else ["stderr:\n" ++ stderr]
  | prompt promptType _ =>
      ["Agent in job \"" ++ displayName ++ "\" is showing a " ++ promptType ++ " prompt."]
  | question questionData _ =>
      match questionData with
      | none =>
          ["Agent in job \"" ++ displayName ++ "\" is asking a question (no details available)."]
      | some data =>
          ("Agent in job \"" ++ displayName ++ "\" is asking a question.") ::
            match data.questions with
            | [] => []
            | questions => "" :: questions.map questionLine

/-- The last message of the agent, which all triggers carry but a failed gate. -/
def assistantContext : EscalationTrigger → Option String
  | idle context | dead _ context | error _ _ context | prompt _ context | question _ context =>
      context
  | gateFailed _ _ _ => none

def contextLabel : EscalationTrigger → String
  | question _ _ | prompt _ _ => "Agent Context"
  | _ => "Last Agent Message"

def truncated (context : List Char) : Except Panic (List Char) :=
  if Text.size context > 2000 then sliceTo 2000 context else .ok context

def contextPart (trigger : EscalationTrigger) : Except Panic (List String) :=
  match trigger.assistantContext with
  | none => .ok []
  | some context =>
      if context = "" then .ok []
      else do
        let text ← truncated context.toList
        return ["\n--- " ++ trigger.contextLabel ++ " ---\n" ++ String.ofList text]

def logPart : Option String → List String
  | none => []
  | some tail => if tail = "" then [] else ["\nRecent agent output:\n" ++ tail]

def buildContext (displayName : String) (agentLogTail : Option String)
    (trigger : EscalationTrigger) : Except Panic String := do
  let context ← trigger.contextPart
  return "\n".intercalate (trigger.header displayName ++ context ++ logPart agentLogTail)

/-- `EscalationDecisionBuilder::build`. -/
def buildDecision (id : DecisionId) (owner : OwnerId) (displayName : String)
    (agentId agentLogTail : Option String) (createdAtMs : Nat) (ns : String)
    (trigger : EscalationTrigger) : Except Panic Event := do
  let context ← trigger.buildContext displayName agentLogTail
  return trigger.build id owner agentId context createdAtMs ns

end OddJobs.EscalationTrigger
