import OddJobs.Daemon.Resolutions
import OddJobs.Engine.Account
import OddJobs.Engine.Escalation
import OddJobs.Engine.Resume
import OddJobs.Engine.Traces
import Mathlib.Tactic.IntervalCases

/-!
# Resolved jobs

A decision of a job is resolved by a person who reads its options.  What the option asks
for is compared with what the engine does once it has processed the resolution.
-/

namespace OddJobs

open Library

/-! ## What an option asks for -/

inductive Asks where
  /-- The agent goes on. -/
  | resume
  /-- The step is done. -/
  | advance
  | cancel
  | dismiss
  deriving DecidableEq, Repr

def DecisionOption.asks (option : DecisionOption) : Asks :=
  if option.label = "Done" ∨ option.label = "Skip" then .advance
  else if option.label = "Cancel" ∨ option.label = "Deny" then .cancel
  else if option.label = "Dismiss" then .dismiss
  else .resume

/-- The options of a question are those of the agent, but for the last one.  A message
alone is for the agent. -/
def EscalationTrigger.asks (trigger : EscalationTrigger) (chosen : Option Nat) : Asks :=
  match chosen, trigger with
  | none, _ => .resume
  | some choice, .question .. => if choice = trigger.buildOptions.length then .cancel else .resume
  | some choice, _ => ((trigger.buildOptions[choice - 1]?).map DecisionOption.asks).getD .dismiss

def ResolvedAction.asks : ResolvedAction → Asks
  | nudge | retry | approve | answer | freeform => .resume
  | complete => .advance
  | cancel | deny => .cancel
  | dismiss => .dismiss

/-- The listener reads every option in range as it was built. -/
theorem resolveDecisionAction_asks (trigger : EscalationTrigger) {chosen : Option Nat}
    (inRange : ∀ choice, chosen = some choice →
      choice ≠ 0 ∧ choice ≤ trigger.buildOptions.length) :
    (resolveDecisionAction trigger.toSource chosen trigger.buildOptions).asks =
      trigger.asks chosen := by
  cases chosen with
  | none => cases trigger <;> rfl
  | some choice =>
      obtain ⟨positive, bounded⟩ := inRange choice rfl
      cases trigger with
      | question questionData context =>
          have reads : resolveDecisionAction .question (some choice)
              (EscalationTrigger.question questionData context).buildOptions =
              if choice = (EscalationTrigger.question questionData context).buildOptions.length then
                .cancel
              else .answer := rfl
          rw [EscalationTrigger.toSource, reads, EscalationTrigger.asks]
          split <;> rfl
      | idle context =>
          change choice ≤ 4 at bounded
          interval_cases choice
          · exact absurd rfl positive
          all_goals rfl
      | dead | error | gateFailed | prompt =>
          change choice ≤ 3 at bounded
          interval_cases choice
          · exact absurd rfl positive
          all_goals rfl

/-- Only a message alone is free of form. -/
theorem chosen_of_freeform {source : DecisionSource} {chosen : Option Nat}
    {options : List DecisionOption}
    (freeform : resolveDecisionAction source chosen options = .freeform) : chosen = none := by
  cases chosen with
  | none => rfl
  | some choice =>
      unfold resolveDecisionAction at freeform
      dsimp only at freeform
      split at freeform
      · split at freeform <;> cases freeform
      · split at freeform
        · cases freeform
        · split at freeform <;> cases freeform

def Asks.Sends (jobId : JobId) (step : String) (actions : List Event) : Asks → Prop
  | resume => ∃ text, actions = [.jobResume jobId (some text) ∅ false]
  | advance => actions = [.stepCompleted jobId step]
  | cancel => actions = [.jobCancel jobId]
  | dismiss => actions = []

/-- An accepted resolution sends what its option asks for. -/
theorem resolutionActions_asks {state : MaterializedState} {decision : Decision}
    {trigger : EscalationTrigger} {chosen : Option Nat} {message : Option String} {job : Job}
    (built : decision.BuiltFor trigger) (found : state.jobs[decision.jobId]? = some job)
    (inRange : ∀ choice, chosen = some choice →
      choice ≠ 0 ∧ choice ≤ trigger.buildOptions.length)
    (answered : chosen = none → message ≠ none) :
    (trigger.asks chosen).Sends decision.jobId job.step
      (state.resolutionActions decision chosen message) := by
  rw [← resolveDecisionAction_asks trigger inRange]
  have owned : state.resolutionActions decision chosen message =
      (mapDecisionToJobAction decision.source chosen message decision.id decision.jobId
        (some job.step) decision.options).toList := by
    rw [MaterializedState.resolutionActions, built.owner, found]
    rfl
  rw [owned, built.source, built.options, mapDecisionToJobAction]
  cases action : resolveDecisionAction trigger.toSource chosen trigger.buildOptions with
  | freeform =>
      obtain ⟨text, told⟩ := Option.ne_none_iff_exists'.mp (answered (chosen_of_freeform action))
      rw [told]
      exact ⟨_, rfl⟩
  | nudge | retry | approve | answer => exact ⟨_, rfl⟩
  | complete | cancel | deny | dismiss => rfl

/-! ## What the engine does -/

/-- No fewer events have been applied. -/
def Grows (before after : Trace) : Prop := before.applied.length ≤ after.applied.length

theorem tracing_grows (order : WalkOrder) : Tracing order (fun _ => True) Grows where
  refl := fun _ => Nat.le_refl _
  trans := fun first second => Nat.le_trans first second
  event := by
    intro event _ clock trace
    have applied : (trace.apply order clock event).applied = trace.applied ++ [event] := rfl
    rw [Grows, applied, List.length_append]
    exact Nat.le_add_right _ _
  cleaning := fun _ _ => Nat.le_refl _

namespace Handler

variable (outside : Outside)

/-- A routine that does nothing but the permitted applies no fewer events. -/
theorem grows_of_moves {α : Type} {program : Handler α} {before after : Runtime} {value : α}
    (moves : Program.Moves (Traced Grows) program) (ran : program before = (.ok value, after)) :
    before.world.applied.length ≤ after.world.applied.length := by
  have grows := moves before
  rw [ran] at grows
  exact grows

theorem execute_emit (event : Event) (runtime : Runtime) :
    execute outside (.emit event) runtime =
      (.ok (some event), runtime.emitting outside.order event) := rfl

/-- Effects that emit an event apply one. -/
theorem executeAll_applies {effects : List Effect} {event : Event} {before after : Runtime}
    {events : List Event} (within : ∀ effect ∈ effects, effect.Within (.permitting fun _ => True))
    (member : .emit event ∈ effects)
    (ran : executeAll outside effects before = (.ok events, after)) :
    before.world.applied.length < after.world.applied.length := by
  have course := (tracing_grows outside.order).course
  induction effects generalizing before events with
  | nil => cases member
  | cons effect rest ih =>
      obtain ⟨first, later⟩ := List.forall_mem_cons.mp within
      rw [executeAll_cons] at ran
      obtain ⟨_, middle, head, tail⟩ := Program.bind_eq_ok.mp ran
      obtain ⟨_, _, goesOn, returned⟩ := Program.bind_eq_ok.mp tail
      cases returned
      rcases List.mem_cons.mp member with rfl | inRest
      · rw [execute_emit] at head
        cases head
        have grows := grows_of_moves (course.executeAll_moves later) goesOn
        have applied : (before.emitting outside.order event).world.applied =
            before.world.applied ++ [event] := rfl
        rw [applied, List.length_append] at grows
        exact Nat.lt_of_succ_le grows
      · have grows := grows_of_moves (course.execute_moves first) head
        exact Nat.lt_of_le_of_lt grows (ih later inRest goesOn)

/-- The completion of a job applies an event. -/
theorem completeJob_applies {job : Job} {before after : Runtime} {events : List Event}
    (ran : completeJob outside job before = (.ok events, after)) :
    before.world.applied.length < after.world.applied.length := by
  have course := (tracing_grows outside.order).course
  unfold completeJob at ran
  obtain ⟨cleanup, cleaned, cleans, rest⟩ := Program.bind_eq_ok.mp ran
  obtain ⟨_, completed, completes, rest⟩ := Program.bind_eq_ok.mp rest
  have first := grows_of_moves (course.workspaceCleanupEffects_moves job) cleans
  have member : Effect.emit (.stepCompleted job.id job.step) ∈
      Steps.completionEffects job ++ cleanup := by
    unfold Steps.completionEffects
    simp
  have applies := executeAll_applies outside ?_ member completes
  · have ends : ∀ event : Event, event.Settles "done" → True := fun _ _ => trivial
    obtain ⟨_, settled, settles, rest⟩ := Program.bind_eq_ok.mp rest
    have second := grows_of_moves (course.settles job.id "done" ends) settles
    obtain ⟨_, _, notifies, returned⟩ := Program.bind_eq_ok.mp rest
    cases returned
    have last := grows_of_moves (course.notifyDone_moves job) notifies
    exact Nat.lt_of_le_of_lt first (Nat.lt_of_lt_of_le applies (Nat.le_trans second last))
  · intro effect inEffects
    rcases List.mem_append.mp inEffects with completing | cleaning
    · exact Course.completionEffects_within (free_covers job.id).serves
        ⟨fun _ => trivial, trivial, fun _ _ => trivial⟩ effect completing
    · exact Course.workspaceCleanupEffects_within (fun _ => trivial) cleans effect cleaning

/-- The advance of a job applies an event. -/
theorem advanceJob_applies {job : Job} {before after : Runtime} {events : List Event}
    (ran : advanceJob outside job before = (.ok events, after)) :
    before.world.applied.length < after.world.applied.length := by
  have course := (tracing_grows outside.order).course
  have finds : Course.Finds (.permitting fun _ => True) (Traced Grows) job.id :=
    fun _ found _ => .inl (free_covers found.id)
  unfold advanceJob at ran
  split at ran
  · exact completeJob_applies outside ran
  obtain ⟨runbook, looked, looks, rest⟩ := Program.bind_eq_ok.mp ran
  have first := grows_of_moves (course.cachedRunbook_moves job.runbookHash) looks
  obtain ⟨_, left, leaves, rest⟩ := Program.bind_eq_ok.mp rest
  have second := grows_of_moves (course.leaveStep_moves (free_covers job.id).serves _) leaves
  obtain ⟨_, completed, completes, rest⟩ := Program.bind_eq_ok.mp rest
  rw [execute_emit] at completes
  cases completes
  suffices last : (left.emitting outside.order (.stepCompleted job.id job.step)).world.applied.length
      ≤ after.world.applied.length by
    have applied : (left.emitting outside.order (.stepCompleted job.id job.step)).world.applied =
        left.world.applied ++ [.stepCompleted job.id job.step] := rfl
    rw [applied, List.length_append] at last
    exact Nat.lt_of_le_of_lt (Nat.le_trans first second) (Nat.lt_of_succ_le last)
  cases chosen : ((runbook.getJob job.kind).bind (·.getStep job.step)).bind (·.onDone) with
  | some transition =>
      rw [chosen] at rest
      exact grows_of_moves (course.advanceTo_moves (free_covers job.id) finds chosen
        (free_route job _)) rest
  | none =>
      rw [chosen] at rest
      cases ends : (runbook.getJob job.kind).bind (·.onDone) with
      | some onDone =>
          rw [ends] at rest
          dsimp only at rest
          split at rest
          · refine grows_of_moves (course.routeTo_moves (free_covers job.id) finds ?_ _) rest
            intro effect member
            rw [List.mem_singleton.mp member]
            trivial
          · exact grows_of_moves (course.finishJob_moves (free_covers job.id).serves
              (free_route job (.complete "done"))) rest
      | none =>
          rw [ends] at rest
          dsimp only at rest
          split at rest
          · exact grows_of_moves (course.terminateCancelled_moves (free_covers job.id).serves
              (free_route job .cancel)) rest
          · exact grows_of_moves (course.finishJob_moves (free_covers job.id).serves
              (free_route job (.complete "done"))) rest

end Handler

/-- The step of the job is completed, and yet it is a step to go on from. -/
def Stranded (id : JobId) (state : MaterializedState) : Prop :=
  ∃ job, state.jobs[id]? = some job ∧ job.isTerminal = false ∧ job.stepStatus = .completed

/-- The job is known under its own id, and not stranded. -/
def Poised (id : JobId) (state : MaterializedState) : Prop :=
  ∃ view, (state.account id).job = some view ∧ view.id = id ∧
    ¬(view.isTerminal = false ∧ view.status = .completed)

theorem Poised.unstranded {id : JobId} {state : MaterializedState} (poised : Poised id state) :
    ¬Stranded id state := by
  rintro ⟨job, found, going, completed⟩
  obtain ⟨view, viewed, _, unlike⟩ := poised
  have same : (state.account id).job = some job.view := congrArg (Option.map Job.view) found
  rw [same] at viewed
  cases viewed
  exact unlike ⟨going, completed⟩

/-- Only the completion of its step leaves a job stranded. -/
theorem stranded_of_mark {view : JobView} {mark : Mark} (unlike : mark ≠ .completed)
    (stranded : (view.mark mark).isTerminal = false ∧ (view.mark mark).status = .completed) :
    view.isTerminal = false ∧ view.status = .completed := by
  obtain ⟨going, completed⟩ := stranded
  cases mark with
  | advanced step =>
      rw [JobView.mark, JobView.advance] at going completed
      split at going
      · rename_i skipped
        rw [if_pos skipped] at completed
        exact ⟨going, completed⟩
      · rename_i moved
        rw [if_neg moved] at completed
        have entered : enteredStatus step = .completed := completed
        rw [enteredStatus_nonterminal going] at entered
        cases entered
  | started => cases completed
  | completed => exact absurd rfl unlike
  | failed error => cases completed
  | opened sessionId jobId => exact ⟨going, completed⟩
  | closed sessionId =>
      rw [JobView.mark] at going completed
      split at going
      · rename_i held
        rw [if_pos held] at completed
        exact ⟨going, completed⟩
      · rename_i other
        rw [if_neg other] at completed
        exact ⟨going, completed⟩

theorem JobView.mark_id (view : JobView) (mark : Mark) : (view.mark mark).id = view.id := by
  cases mark with
  | advanced step =>
      rw [JobView.mark, JobView.advance]
      split <;> rfl
  | closed sessionId =>
      rw [JobView.mark]
      split <;> rfl
  | _ => rfl

/-- The events of a job's lifecycle, but for the completion of its step. -/
def Event.Uncompleting (id : JobId) (event : Event) : Prop :=
  event.Lifecycle id ∧ event.mark? ≠ some .completed

theorem tracing_poised (order : WalkOrder) (id : JobId) :
    Tracing order (Event.Uncompleting id)
      (Preserves fun trace : Trace => Poised id trace.state) where
  toClosed := closed_preserves _
  event := by
    rintro event ⟨lifecycle, unlike⟩ clock trace ⟨view, viewed, named, unstranded⟩
    have marked := MaterializedState.account_applyEvent order clock trace.state lifecycle
    change ∃ view, ((trace.state.applyEvent order clock event).account id).job = some view ∧ _
    rw [marked]
    cases mark : event.mark? with
    | none => exact ⟨view, viewed, named, unstranded⟩
    | some left =>
        rw [mark] at unlike
        have moved := congrArg (Option.map fun view : JobView => view.mark left) viewed
        refine ⟨view.mark left, moved, ?_, ?_⟩
        · exact (view.mark_id left).trans named
        · exact fun stranded => unstranded
            (stranded_of_mark (fun same => unlike (congrArg some same)) stranded)
  cleaning := fun workspaceId trace poised => poised

/-- What starts and fails a step does not complete it. -/
theorem uncompleting_covers (id : JobId) : (Bounds.permitting (Event.Uncompleting id)).Covers id where
  started := fun _ _ _ => ⟨rfl, fun same => nomatch same⟩
  failed := fun _ _ => ⟨rfl, fun same => nomatch same⟩
  fails := ⟨rfl, fun same => nomatch same⟩
  session := fun _ => ⟨rfl, fun same => nomatch same⟩
  sessionless := fun _ => ⟨trivial, fun same => nomatch same⟩
  removed := fun _ => ⟨trivial, fun same => nomatch same⟩
  liveness := trivial
  exitDeferred := trivial

theorem uncompleting_settles {id : JobId} {step : String} {event : Event}
    (settles : event.Settles step) : event.Uncompleting id := by
  cases event with
  | queueCompleted | queueFailed | queueItemDead => exact ⟨trivial, fun same => nomatch same⟩
  | _ => exact settles.elim

/-- A job that is cancelled is not left stranded. -/
theorem Handler.cancelJob_poised (outside : Outside) {job : Job} {before after : Runtime}
    {events : List Event} (poised : Poised job.id before.world.state)
    (ran : cancelJob outside job before = (.ok events, after)) :
    Poised job.id after.world.state := by
  have course := (tracing_poised outside.order job.id).course
  have advances : ∀ step, (Event.jobAdvanced job.id step).Uncompleting job.id :=
    fun _ => ⟨rfl, fun same => nomatch same⟩
  have finds : Course.Finds (.permitting (Event.Uncompleting job.id))
      (Traced (Preserves fun trace : Trace => Poised job.id trace.state)) job.id := by
    intro runtime found present
    by_cases known : Poised job.id runtime.world.state
    · left
      obtain ⟨view, viewed, named, _⟩ := known
      obtain ⟨stored, lookup, rfl⟩ := Option.map_eq_some_iff.mp viewed
      rw [MaterializedState.getJob_found lookup] at present
      cases present
      have same : found.id = job.id := named
      rw [same]
      exact uncompleting_covers job.id
    · right
      exact fun after held => absurd held known
  have moved := course.cancelJob_moves (uncompleting_covers job.id) finds
    before ⟨rfl, fun same => nomatch same⟩ ?_
  · rw [ran] at moved
    exact moved poised
  · intro runbook _
    rcases job.cancelRoute_cases (runbook.getJob job.kind) with ⟨step, starts⟩ | cancels
    · rw [starts]
      exact advances step
    · rw [cancels]
      exact ⟨fun _ => advances "cancelled", fun _ settles => uncompleting_settles settles⟩

/-! ## Decisions that take effect -/

/-- The runtime once some events have been applied, one after the other. -/
def Runtime.applyingAll (order : WalkOrder) (events : List Event) (runtime : Runtime) : Runtime :=
  events.foldl (fun runtime event => runtime.applying order event) runtime

def Handler.processAll (outside : Outside) (others : OtherHandlers) (events : List Event) :
    Handler Unit :=
  Program.forEach
    (fun event => do
      let _ ← processEvent outside others event
      pure ())
    events

/-- What was asked for has been done: `told` is the runtime once the events on the decision
have been applied. -/
def TakesEffect (outside : Outside) (id : JobId) (told after : Runtime) : Asks → Prop
  | .resume => ∃ job step agentName, told.world.state.jobs[id]? = some job ∧
      job.resumeStep = some step ∧ told.agentAt outside job step = some agentName ∧
      StepRuns id step after ∧ Asked (·.Resumes job step agentName) told after
  | .advance => ∃ job events, told.world.state.jobs[id]? = some job ∧
      Handler.advanceJob outside job told = (.ok events, after)
  | .cancel => ∃ job events, told.world.state.jobs[id]? = some job ∧
      Handler.cancelJob outside job told = (.ok events, after)
  | .dismiss => True

section Resolved

variable (outside : Outside) (others : OtherHandlers)

/-- The resolution itself only marks the decision; then its action is processed. -/
theorem processAll_action {resolved action : Event} {before after : Runtime} {id ns : String}
    {chosen : Option Nat} {message : Option String} {nowMs : Nat}
    (resolves : resolved = .decisionResolved id chosen message nowMs ns)
    (processed : Handler.processAll outside others [resolved, action] before = (.ok (), after)) :
    ∃ events, Handler.handleEvent outside others action
      (before.applyingAll outside.order [resolved, action]) = (.ok events, after) := by
  subst resolves
  unfold Handler.processAll at processed
  obtain ⟨_, middle, first, rest⟩ := Program.bind_eq_ok.mp processed
  cases first
  obtain ⟨_, last, second, done⟩ := Program.bind_eq_ok.mp rest
  cases done
  obtain ⟨events, handled, ran, returned⟩ := Program.bind_eq_ok.mp second
  cases returned
  exact ⟨events, ran⟩

variable {before after : Runtime} {id : JobId} {job : Job}

/-- A step that is marked as completed stays where it is: nobody acts on the event. -/
theorem completed_not_advanced {told : Runtime} {step : String} {events : List Event}
    (handled : Handler.handleEvent outside others (.stepCompleted id step) told =
      (.ok events, after)) : ¬TakesEffect outside id told after .advance := by
  cases handled
  rintro ⟨job, events, _, ran⟩
  exact Nat.lt_irrefl _ (Handler.advanceJob_applies outside ran)

theorem cancel_takesEffect {told : Runtime} {events : List Event}
    (found : told.world.state.jobs[id]? = some job) (named : job.id = id)
    {decisionId : Option DecisionId} (waits : job.stepStatus = .waiting decisionId)
    (handled : Handler.handleEvent outside others (.jobCancel id) told = (.ok events, after)) :
    TakesEffect outside id told after .cancel ∧ ¬Stranded id after.world.state := by
  have cancels : Handler.handleJobCancel outside id told = (.ok events, after) := handled
  unfold Handler.handleJobCancel at cancels
  obtain ⟨read, _, required, ran⟩ := Program.bind_eq_ok.mp cancels
  obtain ⟨rfl, present⟩ := Handler.requireJob_eq_ok.mp required
  rw [MaterializedState.getJob_found found] at present
  cases present
  refine ⟨⟨job, events, found, ran⟩, ?_⟩
  subst named
  have poised : Poised job.id told.world.state := by
    refine ⟨job.view, congrArg (Option.map Job.view) found, rfl, ?_⟩
    rintro ⟨_, completed⟩
    have completed : job.stepStatus = .completed := completed
    rw [waits] at completed
    cases completed
  exact (Handler.cancelJob_poised outside poised ran).unstranded

theorem resume_takesEffect_iff {told : Runtime} {events : List Event} {text : String}
    (found : told.world.state.jobs[id]? = some job) (named : job.id = id)
    (handled : Handler.handleEvent outside (others.withResume outside)
      (.jobResume id (some text) ∅ false) told = (.ok events, after)) :
    TakesEffect outside id told after .resume ∧ ¬Stranded id after.world.state ↔
      ∃ step agentName, job.resumeStep = some step ∧
        told.agentAt outside job step = some agentName := by
  have resumes : Handler.handleJobResume outside id (some text) ∅ false told =
      (.ok events, after) := handled
  constructor
  · rintro ⟨⟨other, step, agentName, present, atStep, runs, _⟩, _⟩
    rw [found] at present
    cases present
    exact ⟨step, agentName, atStep, runs⟩
  · rintro ⟨step, agentName, atStep, runs⟩
    obtain ⟨running, asked⟩ :=
      Handler.handleJobResume_running outside found named atStep runs resumes
    refine ⟨⟨job, step, agentName, found, atStep, runs, running, asked⟩, ?_⟩
    rintro ⟨current, stored, _, completed⟩
    obtain ⟨other, present, _, runningNow⟩ := running
    rw [stored] at present
    cases present
    rw [completed] at runningNow
    cases runningNow

/-- What is accepted is an option in range, or a message. -/
theorem handleDecisionResolve_inRange {state : MaterializedState} {key : String}
    {chosen : Option Nat} {message : Option String} {nowMs : Nat} {resolution : Resolution}
    (accepted : state.handleDecisionResolve key chosen message nowMs = .ok resolution) :
    (∀ choice, chosen = some choice →
      choice ≠ 0 ∧ choice ≤ resolution.decision.options.length) ∧
      (chosen = none → message ≠ none) := by
  unfold MaterializedState.handleDecisionResolve at accepted
  cases found : state.getDecision key with
  | none =>
      rw [found] at accepted
      cases accepted
  | some decision =>
      rw [found] at accepted
      dsimp only at accepted
      split at accepted
      · cases accepted
      · split at accepted
        · cases accepted
        · rename_i inRange
          split at accepted
          · cases accepted
          · rename_i answered
            cases accepted
            constructor
            · rintro choice rfl
              simpa using inRange
            · exact fun noChoice noMessage => answered ⟨noChoice, noMessage⟩

/-- An accepted resolution of the decision on which a job waits takes effect, unless it is
to complete the step, or to resume an agent where the step has none. -/
theorem resolved_decision_takes_effect_iff {trigger : EscalationTrigger} {key : String}
    {chosen : Option Nat} {message : Option String} {nowMs : Nat} {resolution : Resolution}
    (found : before.world.state.jobs[resolution.decision.jobId]? = some job)
    (named : job.id = resolution.decision.jobId)
    (waits : job.stepStatus = .waiting (some resolution.decision.id))
    (built : resolution.decision.BuiltFor trigger)
    (accepted : before.world.state.handleDecisionResolve key chosen message nowMs =
      .ok resolution)
    (wanted : trigger.asks chosen ≠ .dismiss)
    (processed : Handler.processAll outside (others.withResume outside)
      (resolution.resolved :: resolution.actions) before = (.ok (), after)) :
    TakesEffect outside resolution.decision.jobId
        (before.applyingAll outside.order (resolution.resolved :: resolution.actions)) after
        (trigger.asks chosen) ∧
        ¬Stranded resolution.decision.jobId after.world.state ↔
      trigger.asks chosen ≠ .advance ∧
        (trigger.asks chosen = .resume → ∃ step agentName, job.resumeStep = some step ∧
          before.agentAt outside job step = some agentName) := by
  obtain ⟨inRange, answered⟩ := handleDecisionResolve_inRange accepted
  obtain ⟨_, _, resolves, actions⟩ :=
    MaterializedState.handleDecisionResolve_accepted accepted
  rw [built.options] at inRange
  have sends := resolutionActions_asks built found inRange answered
  rw [← actions] at sends
  cases asks : trigger.asks chosen with
  | dismiss => exact absurd asks wanted
  | advance =>
      rw [asks] at sends
      have sent : resolution.actions = [_] := sends
      rw [sent] at processed ⊢
      obtain ⟨events, handled⟩ := processAll_action outside _ resolves processed
      constructor
      · exact fun holds => absurd holds.1 (completed_not_advanced outside _ handled)
      · exact fun holds => absurd rfl holds.1
  | cancel =>
      rw [asks] at sends
      have sent : resolution.actions = [_] := sends
      rw [sent] at processed ⊢
      obtain ⟨events, handled⟩ := processAll_action outside _ resolves processed
      rw [resolves] at handled ⊢
      have stays : (before.applyingAll outside.order
          [.decisionResolved resolution.decision.id chosen message nowMs resolution.decision.ns,
            .jobCancel resolution.decision.jobId]).world.state.jobs[resolution.decision.jobId]? =
          some job := found
      have holds := cancel_takesEffect outside _ stays named waits handled
      exact ⟨fun _ => ⟨fun other => (nomatch other), fun other => (nomatch other)⟩, fun _ => holds⟩
  | resume =>
      rw [asks] at sends
      obtain ⟨text, sent⟩ := sends
      rw [sent] at processed ⊢
      obtain ⟨events, handled⟩ := processAll_action outside _ resolves processed
      rw [resolves] at handled ⊢
      have stays : (before.applyingAll outside.order
          [.decisionResolved resolution.decision.id chosen message nowMs resolution.decision.ns,
            .jobResume resolution.decision.jobId (some text) ∅
              false]).world.state.jobs[resolution.decision.jobId]? = some job := found
      have holds := resume_takesEffect_iff outside others stays named handled
      exact holds.trans ⟨fun agent => ⟨fun other => (nomatch other), fun _ => agent⟩,
        fun met => met.2 rfl⟩

end Resolved

/-! ## An agent that is idle -/

def Runbook.coding : Runbook where
  jobs := (∅ : HashMap JobDef).insert "build"
    { kind := "build", steps := [{ name := "code", run := .agent "coder" none }] }
  agents := (∅ : HashMap AgentDef).insert "coder" { name := "coder" }

def Runtime.asked : Runtime :=
  let state := ({} : MaterializedState).replay (fun _ => .byKey) (fun _ => ⟨0, 0⟩) 0
    [.runbookLoaded "hash" 1 .null,
      .jobCreated "job" "build" "build" "hash" "/" ∅ "code" 0 "" none,
      .stepStarted "job" "code" (some "agent") (some "coder"),
      (EscalationTrigger.idle none).build "decision" (.job "job") none "" 0 ""]
  let idle := Runtime.idle .coding state
  { idle with readings := fun n =>
      { idle.readings n with agentState := fun _ => some .waitingForInput } }

def idleDecision : Decision where
  id := "decision"
  jobId := "job"
  agentId := none
  owner := .job "job"
  source := .idle
  context := ""
  options := (EscalationTrigger.idle none).buildOptions
  chosen := none
  message := none
  createdAtMs := 0
  resolvedAtMs := none
  supersededBy := none
  ns := ""

theorem asked_job : ∃ job : Job, Runtime.asked.world.state.jobs["job"]? = some job ∧
    job.id = "job" ∧ job.step = "code" ∧ job.stepStatus = .waiting (some "decision") ∧
    Runtime.asked.agentAt (.plain .coding) job "code" = some "coder" := by
  have waits : (Runtime.asked.world.state.jobs["job"]?).map (fun job => (job.id, job.step,
      job.stepStatus, Runtime.asked.agentAt (.plain .coding) job "code")) =
      some ("job", "code", .waiting (some "decision"), some "coder") := by
    decide +kernel
  obtain ⟨job, found, same⟩ := Option.map_eq_some_iff.mp waits
  obtain ⟨named, rest⟩ := Prod.mk.inj same
  obtain ⟨step, rest⟩ := Prod.mk.inj rest
  obtain ⟨status, agent⟩ := Prod.mk.inj rest
  exact ⟨job, found, named, step, status, agent⟩

/-- Each of the four options is accepted. -/
theorem asked_accepts {choice : Nat} (positive : choice ≠ 0) (bounded : choice ≤ 4) :
    Runtime.asked.world.state.handleDecisionResolve "decision" (some choice) none 0 =
      .ok {
        decision := idleDecision
        resolved := .decisionResolved "decision" (some choice) none 0 ""
        actions := Runtime.asked.world.state.resolutionActions idleDecision (some choice) none } := by
  have stored : Runtime.asked.world.state.decisions["decision"]? = some idleDecision := by
    decide +kernel
  have looked : Runtime.asked.world.state.getDecision "decision" = some idleDecision := by
    unfold MaterializedState.getDecision
    rw [stored]
  have inRange : ¬(some choice).any (fun choice =>
      choice == 0 || decide (idleDecision.options.length < choice)) = true := by
    simp only [Option.any_some, Bool.or_eq_true, beq_iff_eq, decide_eq_true_eq, not_or, Nat.not_lt]
    exact ⟨positive, bounded⟩
  unfold MaterializedState.handleDecisionResolve
  rw [looked]
  dsimp only
  rw [if_neg (by decide), if_neg inRange, if_neg (fun same => nomatch same.1)]
  rfl

/-- The job whose step was said to be done stays at it, and nobody acts. -/
theorem done_strands_the_job :
    ∃ (job : Job) (resolution : Resolution) (after : Runtime),
      Runtime.asked.world.state.jobs[resolution.decision.jobId]? = some job ∧
      job.id = resolution.decision.jobId ∧
      job.stepStatus = .waiting (some resolution.decision.id) ∧
      resolution.decision.BuiltFor (.idle none) ∧
      Runtime.asked.world.state.handleDecisionResolve "decision" (some 2) none 0 =
        .ok resolution ∧
      (EscalationTrigger.idle none).asks (some 2) = .advance ∧
      Handler.processAll (.plain .coding) (OtherHandlers.silent.withResume (.plain .coding))
        (resolution.resolved :: resolution.actions) .asked = (.ok (), after) ∧
      ¬TakesEffect (.plain .coding) resolution.decision.jobId
        (Runtime.asked.applyingAll .byKey (resolution.resolved :: resolution.actions)) after
        .advance ∧
      Stranded resolution.decision.jobId after.world.state := by
  obtain ⟨job, found, named, step, waits, _⟩ := asked_job
  have accepted := @asked_accepts 2 (by decide) (by decide)
  obtain ⟨inRange, answered⟩ := handleDecisionResolve_inRange accepted
  have built : idleDecision.BuiltFor (.idle none) := ⟨rfl, rfl, rfl⟩
  have sent : Runtime.asked.world.state.resolutionActions idleDecision (some 2) none =
      [.stepCompleted "job" job.step] := resolutionActions_asks built found inRange answered
  rw [step] at sent
  rw [sent] at accepted
  have completed : ((Runtime.asked.applyingAll .byKey
      [.decisionResolved "decision" (some 2) none 0 "",
        .stepCompleted "job" "code"]).world.state.jobs["job"]?).map
      (fun job => (job.isTerminal, job.stepStatus)) = some (false, .completed) := by
    decide +kernel
  obtain ⟨left, present, same⟩ := Option.map_eq_some_iff.mp completed
  obtain ⟨going, status⟩ := Prod.mk.inj same
  have handled : Handler.handleEvent (.plain .coding) .silent (.stepCompleted "job" "code")
      (Runtime.asked.applyingAll .byKey [.decisionResolved "decision" (some 2) none 0 "",
        .stepCompleted "job" "code"]) =
      (.ok [], Runtime.asked.applyingAll .byKey [.decisionResolved "decision" (some 2) none 0 "",
        .stepCompleted "job" "code"]) := rfl
  exact ⟨job, _, _, found, named, waits, built, accepted, rfl, rfl,
    completed_not_advanced (.plain .coding) .silent handled, left, present, going, status⟩

/-- The agent that is nudged goes on. -/
theorem nudged_agent_goes_on :
    ∃ (resolution : Resolution) (after : Runtime),
      Runtime.asked.world.state.handleDecisionResolve "decision" (some 1) none 0 =
        .ok resolution ∧
      Handler.processAll (.plain .coding) (OtherHandlers.silent.withResume (.plain .coding))
        (resolution.resolved :: resolution.actions) .asked = (.ok (), after) ∧
      TakesEffect (.plain .coding) resolution.decision.jobId
        (Runtime.asked.applyingAll .byKey (resolution.resolved :: resolution.actions)) after
        .resume ∧
      ¬Stranded resolution.decision.jobId after.world.state := by
  obtain ⟨job, found, named, step, waits, agent⟩ := asked_job
  have accepted := @asked_accepts 1 (by decide) (by decide)
  have built : idleDecision.BuiltFor (.idle none) := ⟨rfl, rfl, rfl⟩
  have going : job.resumeStep = some "code" := by
    rw [Job.resumeStep, step]
    rfl
  have succeeds : (Handler.processAll (.plain .coding)
      (OtherHandlers.silent.withResume (.plain .coding))
      (.decisionResolved "decision" (some 1) none 0 "" ::
        Runtime.asked.world.state.resolutionActions idleDecision (some 1) none) .asked).1.toBool =
      true := by
    decide +kernel
  cases ran : Handler.processAll (.plain .coding)
      (OtherHandlers.silent.withResume (.plain .coding))
      (.decisionResolved "decision" (some 1) none 0 "" ::
        Runtime.asked.world.state.resolutionActions idleDecision (some 1) none) .asked with
  | mk result after =>
      rw [ran] at succeeds
      cases result with
      | error error => cases succeeds
      | ok done =>
          refine ⟨_, after, accepted, ran, ?_⟩
          exact (resolved_decision_takes_effect_iff (.plain .coding) .silent found named waits
            built accepted (by decide) ran).mpr ⟨by decide, fun _ => ⟨"code", "coder", going, agent⟩⟩

end OddJobs
