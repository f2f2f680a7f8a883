import OddJobs.Storage.Decisions

/-!
# Resolving decisions

A request to resolve a decision is checked against the state.  If it is accepted, the
resolution and what it means for the owner of the decision are sent to the log.
-/

namespace OddJobs

open Library

def MaterializedState.getDecision (state : MaterializedState) (id : String) : Option Decision :=
  match state.decisions[id]? with
  | some decision => some decision
  | none =>
      match state.decisions.toList.filter fun entry => id.toList.isPrefixOf entry.1.toList with
      | [entry] => some entry.2
      | _ => none

/-- What the resolution of a decision asks for, whoever its owner is. -/
inductive ResolvedAction where
  | nudge
  | complete
  | cancel
  | retry
  | approve
  | deny
  | answer
  | dismiss
  | freeform
  deriving DecidableEq, Repr

def resolveDecisionAction (source : DecisionSource) (chosen : Option Nat)
    (options : List DecisionOption) : ResolvedAction :=
  match chosen with
  | none => .freeform
  | some choice =>
      -- the last option of a question cancels, and the third one of all others
      if source = .question then
        if choice = options.length then .cancel else .answer
      else if choice = 3 then .cancel
      else
        match source, choice with
        | .idle, 1 => .nudge
        | .idle, 2 => .complete
        | .error, 1 | .gate, 1 => .retry
        | .error, 2 | .gate, 2 => .complete
        | .approval, 1 => .approve
        | .approval, 2 => .deny
        | _, _ => .dismiss

def buildQuestionResumeMessage (chosen : Option Nat) (message : Option String)
    (decisionId : DecisionId) (options : List DecisionOption) : String :=
  let selected := chosen.toList.map fun choice =>
    let label := ((options[choice - 1]?).map (·.label)).getD "unknown"
    "Selected: " ++ label ++ " (option " ++ toString choice ++ ")"
  let parts := selected ++ message.toList
  String.intercalate "; "
    (if parts.isEmpty then ["decision " ++ decisionId ++ " resolved"] else parts)

def buildResumeMessage (chosen : Option Nat) (message : Option String) (decisionId : DecisionId) :
    String :=
  let resolved := chosen.toList.map fun choice =>
    "decision " ++ decisionId ++ " resolved: option " ++ toString choice
  let told := message.toList.map fun text =>
    if resolved.isEmpty then "decision " ++ decisionId ++ " resolved: " ++ text
    else "message: " ++ text
  String.intercalate "; " (resolved ++ told)

def mapDecisionToJobAction (source : DecisionSource) (chosen : Option Nat)
    (message : Option String) (decisionId : DecisionId) (jobId : JobId) (jobStep : Option String)
    (options : List DecisionOption) : Option Event :=
  let resume := fun message => Event.jobResume jobId (some message) ∅ false
  match resolveDecisionAction source chosen options with
  | .freeform => message.map fun text =>
      resume ("decision " ++ decisionId ++ " freeform: " ++ text)
  | .cancel => some (.jobCancel jobId)
  | .nudge | .retry => some (resume (buildResumeMessage chosen message decisionId))
  | .complete => jobStep.map fun step => .stepCompleted jobId step
  | .approve => some (resume ("decision " ++ decisionId ++ " approved"))
  | .deny => some (.jobCancel jobId)
  | .answer => some (resume (buildQuestionResumeMessage chosen message decisionId options))
  | .dismiss => none

def mapDecisionToAgentRunAction (source : DecisionSource) (chosen : Option Nat)
    (message : Option String) (decisionId : DecisionId) (runId : AgentRunId)
    (sessionId : Option SessionId) (options : List DecisionOption) : List Event :=
  let sendToSession := fun input => sessionId.toList.map fun id => Event.sessionInput id input
  match resolveDecisionAction source chosen options with
  | .freeform => message.toList.map fun text => .agentRunResume runId (some text) false
  | .cancel => [.agentRunStatusChanged runId .failed (some ("cancelled via decision " ++ decisionId))]
  | .nudge => [.agentRunResume runId (some (message.getD "Please continue with the task.")) false]
  | .complete =>
      let reason :=
        if source = .error ∨ source = .gate then "skipped via decision " ++ decisionId
        else "marked done via decision " ++ decisionId
      [.agentRunStatusChanged runId .completed (some reason)]
  | .retry => [.agentRunResume runId (some (buildResumeMessage chosen message decisionId)) true]
  | .approve => sendToSession "y\n"
  | .deny => sendToSession "n\n"
  | .answer =>
      match chosen, message with
      | some choice, _ => sendToSession (toString choice ++ "\n")
      | none, some text => sendToSession (text ++ "\n")
      | none, none => []
  | .dismiss => []

/-- How a request to resolve a decision is turned down. -/
inductive ResolveError where
  | internal (message : String)
  | response (message : String)
  deriving DecidableEq, Repr

/-- An accepted request: what it sends, the resolution first. -/
structure Resolution where
  decision : Decision
  resolved : Event
  actions : List Event

def MaterializedState.resolutionActions (state : MaterializedState) (decision : Decision)
    (chosen : Option Nat) (message : Option String) : List Event :=
  match decision.owner with
  | .agentRun runId =>
      let sessionId := (state.agentRuns[runId]?).bind (·.sessionId)
      mapDecisionToAgentRunAction decision.source chosen message decision.id runId
        (sessionId.or decision.agentId) decision.options
  | .job _ =>
      (mapDecisionToJobAction decision.source chosen message decision.id decision.jobId
        ((state.jobs[decision.jobId]?).map (·.step)) decision.options).toList

def MaterializedState.handleDecisionResolve (state : MaterializedState) (id : String)
    (chosen : Option Nat) (message : Option String) (nowMs : Nat) :
    Except ResolveError Resolution :=
  match state.getDecision id with
  | none => .error (.internal ("decision not found: " ++ id))
  | some decision =>
      if decision.isResolved then
        .error (.response ("decision " ++ id ++ " is already resolved"))
      else if chosen.any fun choice => choice == 0 || decide (decision.options.length < choice) then
        .error (.response ("choice " ++ toString (chosen.getD 0) ++ " out of range (1.." ++
          toString decision.options.length ++ ")"))
      else if chosen = none ∧ message = none then
        .error (.response "must provide either a choice or a message (-m)")
      else
        .ok {
          decision
          resolved := .decisionResolved decision.id chosen message nowMs decision.ns
          actions := state.resolutionActions decision chosen message }

namespace MaterializedState

variable {state : MaterializedState}

/-- A decision that is looked up is in the table. -/
theorem getDecision_mem {id : String} {decision : Decision}
    (found : state.getDecision id = some decision) :
    ∃ key : DecisionId, state.decisions[key]? = some decision := by
  unfold getDecision at found
  split at found
  · rename_i same present
    cases found
    exact ⟨id, present⟩
  · split at found
    · rename_i entry only
      cases found
      have member : entry ∈ state.decisions.toList := by
        have inFilter : entry ∈ state.decisions.toList.filter fun entry =>
            id.toList.isPrefixOf entry.1.toList := only ▸ List.mem_cons_self
        exact (List.mem_filter.mp inFilter).1
      exact ⟨entry.1, Std.ExtTreeMap.mem_toList_iff_getElem?_eq_some.mp member⟩
    · cases found

/-- What follows a resolution resolves nothing. -/
theorem resolutionActions_made {decision : Decision} {chosen : Option Nat} {message : Option String}
    {action : Event} (member : action ∈ state.resolutionActions decision chosen message) :
    action.resolves = none := by
  unfold resolutionActions at member
  cases owned : decision.owner with
  | job id =>
      rw [owned] at member
      have mapped := Option.mem_toList.mp member
      unfold mapDecisionToJobAction at mapped
      split at mapped
      · obtain ⟨_, _, rfl⟩ := Option.map_eq_some_iff.mp mapped
        rfl
      · cases mapped
        rfl
      · cases mapped
        rfl
      · cases mapped
        rfl
      · obtain ⟨_, _, rfl⟩ := Option.map_eq_some_iff.mp mapped
        rfl
      · cases mapped
        rfl
      · cases mapped
        rfl
      · cases mapped
        rfl
      · cases mapped
  | agentRun id =>
      rw [owned] at member
      dsimp only at member
      unfold mapDecisionToAgentRunAction at member
      split at member
      · obtain ⟨_, _, rfl⟩ := List.mem_map.mp member
        rfl
      · cases List.mem_singleton.mp member
        rfl
      · cases List.mem_singleton.mp member
        rfl
      · cases List.mem_singleton.mp member
        rfl
      · cases List.mem_singleton.mp member
        rfl
      · obtain ⟨_, _, rfl⟩ := List.mem_map.mp member
        rfl
      · obtain ⟨_, _, rfl⟩ := List.mem_map.mp member
        rfl
      · split at member
        · obtain ⟨_, _, rfl⟩ := List.mem_map.mp member
          rfl
        · obtain ⟨_, _, rfl⟩ := List.mem_map.mp member
          rfl
        · cases member
      · cases member

/-- An accepted request is about an open decision, and resolves that one. -/
theorem handleDecisionResolve_accepted {id : String} {chosen : Option Nat}
    {message : Option String} {nowMs : Nat} {resolution : Resolution}
    (accepted : state.handleDecisionResolve id chosen message nowMs = .ok resolution) :
    (∃ key : DecisionId, state.decisions[key]? = some resolution.decision) ∧
      resolution.decision.isResolved = false ∧
      resolution.resolved = .decisionResolved resolution.decision.id chosen message nowMs
        resolution.decision.ns ∧
      resolution.actions = state.resolutionActions resolution.decision chosen message := by
  unfold handleDecisionResolve at accepted
  cases found : state.getDecision id with
  | none =>
      rw [found] at accepted
      cases accepted
  | some decision =>
      rw [found] at accepted
      dsimp only at accepted
      split at accepted
      · cases accepted
      · rename_i isOpen
        split at accepted
        · cases accepted
        · split at accepted
          · cases accepted
          · cases accepted
            exact ⟨getDecision_mem found, Bool.eq_false_iff.mpr isOpen, rfl, rfl⟩

end MaterializedState

end OddJobs
