import OddJobs.Engine.Liveness

/-!
# Requests to resume everything

The listener lists the jobs or the agents that can be resumed, and sends a resumption for
each, without a message.  The engine wants a message for the agent of a step.
-/

namespace OddJobs

open Library

/-! ## The listener -/

/-- Without `--kill`, only what waits, has failed or has not begun is resumed. -/
def StepStatus.isResumable : StepStatus → Bool
  | waiting _ | failed | pending => true
  | running | completed => false

def StepStatus.shown : StepStatus → String
  | pending => "Pending"
  | running => "Running"
  | waiting none => "Waiting(None)"
  | waiting (some decisionId) => "Waiting(Some(\"" ++ decisionId ++ "\"))"
  | completed => "Completed"
  | failed => "Failed"

def MaterializedState.jobValues (order : WalkOrder) (state : MaterializedState) : List Job :=
  (order.walk state.jobs.keys).filterMap (state.jobs[·]?)

def Job.resumption (kill : Bool) (job : Job) : Event := .jobResume job.id none ∅ kill

/-- Whether a request reaches a job: only `--kill` reaches those at work. -/
def Job.isReached (kill : Bool) (job : Job) : Bool := kill || job.stepStatus.isResumable

/-- The answer to a request to resume all jobs, with the events that are sent. -/
structure JobsResumed where
  resumed : List JobId
  skipped : List (JobId × String)
  events : List Event

def jobTargets (order : WalkOrder) (state : MaterializedState) (kill : Bool) :
    List Job × List (JobId × String) :=
  let live := (state.jobValues order).filter (!·.isTerminal)
  (live.filter (·.isReached kill), (live.filter (!·.isReached kill)).map fun job =>
    (job.id, "job is " ++ job.stepStatus.shown ++ " (use --kill to force)"))

def handleJobResumeAll (order : WalkOrder) (state : MaterializedState) (kill : Bool) :
    JobsResumed :=
  let (targets, skipped) := jobTargets order state kill
  { resumed := targets.map (·.id)
    skipped
    events := targets.map (·.resumption kill) }

structure ResumeTarget where
  job : Job
  agentId : AgentId

structure AgentsResumed where
  resumed : List AgentId
  skipped : List (AgentId × String)
  events : List Event

def MaterializedState.currentAgents (order : WalkOrder) (state : MaterializedState) :
    List ResumeTarget :=
  ((state.jobValues order).filter (!·.isTerminal)).filterMap fun job =>
    job.stepAgentId.map fun agentId => ⟨job, agentId⟩

/-- The first agent, in any step of any job, that is named by its id or the beginning of it. -/
def MaterializedState.findAgent (order : WalkOrder) (state : MaterializedState) (text : String) :
    Option ResumeTarget :=
  (state.jobValues order).findSome? fun job =>
    (job.stepHistory.findSome? fun record => record.agentId.filter fun agentId =>
      agentId == text || text.toList.isPrefixOf agentId.toList).map fun agentId => ⟨job, agentId⟩

/-- The agents to be resumed, and those that are skipped, or why the request is refused. -/
def agentTargets (order : WalkOrder) (state : MaterializedState) (text : String)
    (kill all : Bool) : Except String (List ResumeTarget × List (AgentId × String)) :=
  if all then
    let agents := state.currentAgents order
    .ok (agents.filter (·.job.isReached kill), (agents.filter (!·.job.isReached kill)).map
      fun target => (target.agentId,
        "agent is " ++ target.job.stepStatus.shown ++ " (use --kill to force)"))
  else
    match state.findAgent order text with
    | none => .error ("agent not found: " ++ text)
    | some target =>
        if target.job.isTerminal then
          .error ("job " ++ target.job.id ++ " is already " ++ target.job.step ++
            " — cannot resume agent")
        else .ok ([target], [])

/-- Handle an agent resume request.  With `--kill` the sessions are killed first. -/
def handleAgentResumeRequest (order : WalkOrder) (state : MaterializedState) (text : String)
    (kill all : Bool) : Except String AgentsResumed := do
  let (targets, skipped) ← agentTargets order state text kill all
  let deleted := targets.filterMap fun target => target.job.sessionId.map Event.sessionDeleted
  pure {
    resumed := targets.map (·.agentId)
    skipped
    events := (if kill then deleted else []) ++ targets.map fun target => target.job.resumption kill }

def chosenJobs : Except String (List ResumeTarget × List (AgentId × String)) → List Job
  | .ok (targets, _) => targets.map ResumeTarget.job
  | .error _ => []

theorem mem_chosenJobs {answer : Except String (List ResumeTarget × List (AgentId × String))}
    {job : Job} : job ∈ chosenJobs answer ↔
      ∃ targets skipped, answer = .ok (targets, skipped) ∧ ∃ target ∈ targets, target.job = job := by
  cases answer with
  | error message =>
      constructor
      · intro listed
        cases listed
      · rintro ⟨_, _, same, _⟩
        cases same
  | ok answer =>
      obtain ⟨targets, skipped⟩ := answer
      constructor
      · exact fun listed => ⟨targets, skipped, rfl, List.mem_map.mp listed⟩
      · rintro ⟨_, _, same, listed⟩
        cases same
        exact List.mem_map.mpr listed

def sentEvents : Except String AgentsResumed → List Event
  | .ok answer => answer.events
  | .error _ => []

inductive ResumeRequest where
  | jobs (kill : Bool)
  | agents (text : String) (kill all : Bool)

namespace ResumeRequest

def kill : ResumeRequest → Bool
  | jobs kill | agents _ kill _ => kill

/-- The jobs that are reported as resumed, be it by their own ids or by those of their agents. -/
def targets (order : WalkOrder) (state : MaterializedState) : ResumeRequest → List Job
  | jobs kill => (jobTargets order state kill).1
  | agents text kill all => chosenJobs (agentTargets order state text kill all)

def events (order : WalkOrder) (state : MaterializedState) : ResumeRequest → List Event
  | jobs kill => (handleJobResumeAll order state kill).events
  | agents text kill all => sentEvents (handleAgentResumeRequest order state text kill all)

variable {order : WalkOrder} {state : MaterializedState}

/-- For every job that is reported as resumed a resumption is sent. -/
theorem sends (request : ResumeRequest) {job : Job} (listed : job ∈ request.targets order state) :
    job.resumption request.kill ∈ request.events order state := by
  cases request with
  | jobs kill => exact List.mem_map_of_mem listed
  | agents text kill all =>
      obtain ⟨chosen, skipped, answered, target, among, rfl⟩ := mem_chosenJobs.mp listed
      change _ ∈ sentEvents (handleAgentResumeRequest order state text kill all)
      unfold handleAgentResumeRequest
      rw [answered]
      exact List.mem_append_right _
        (List.mem_map_of_mem (f := fun target : ResumeTarget => target.job.resumption kill) among)

/-- All of these jobs are there, and none has ended. -/
theorem targets_live (request : ResumeRequest) {job : Job}
    (listed : job ∈ request.targets order state) :
    (∃ id : JobId, state.jobs[id]? = some job) ∧ job.isTerminal = false := by
  have stored : ∀ {job : Job}, job ∈ state.jobValues order →
      ∃ id : JobId, state.jobs[id]? = some job := by
    intro job among
    obtain ⟨id, _, present⟩ := List.mem_filterMap.mp among
    exact ⟨id, present⟩
  have of_live : ∀ {job : Job}, job ∈ (state.jobValues order).filter (!·.isTerminal) →
      (∃ id : JobId, state.jobs[id]? = some job) ∧ job.isTerminal = false := by
    intro job member
    obtain ⟨among, live⟩ := List.mem_filter.mp member
    rw [Bool.not_eq_true'] at live
    exact ⟨stored among, live⟩
  cases request with
  | jobs kill => exact of_live (List.mem_of_mem_filter listed)
  | agents text kill all =>
      obtain ⟨chosen, skipped, answered, target, among, rfl⟩ := mem_chosenJobs.mp listed
      unfold agentTargets at answered
      split at answered
      · cases answered
        obtain ⟨job, live, named⟩ := List.mem_filterMap.mp (List.mem_of_mem_filter among)
        obtain ⟨agentId, _, rfl⟩ := Option.map_eq_some_iff.mp named
        exact of_live live
      · split at answered
        · cases answered
        · rename_i found
          split at answered
          · cases answered
          · rename_i live
            cases answered
            rw [List.mem_singleton.mp among]
            obtain ⟨job, value, named⟩ := List.exists_of_findSome?_eq_some found
            obtain ⟨agentId, _, rfl⟩ := Option.map_eq_some_iff.mp named
            exact ⟨stored value, Bool.eq_false_iff.mpr live⟩

end ResumeRequest

/-! ## The engine -/

def RuntimeError.Invalid (error : RuntimeError) : Prop :=
  ∃ text, error = .invalidRequest text ∨ error = .stepNotFound text

/-- The errors of all that is looked at before a job is resumed. -/
def RuntimeError.Refusal (error : RuntimeError) : Prop :=
  error.Invalid ∨ ∃ text, error = .jobNotFound text ∨ error = .runbookLoadError text ∨
    error = .jobDefNotFound text

/-- A result with none of these errors. -/
def Spared (errors : RuntimeError → Prop) (result : Except RuntimeError (List Event)) : Prop :=
  ∀ error, result = .error error → ¬errors error

namespace Handler

variable (outside : Outside)

/-- The command of a step that is defined runs again, unless an effect fails. -/
theorem handleShellResume_errs {job : Job} {runtime : Runtime} {runbook : Runbook}
    {jobDef : JobDef} {stepDef : StepDef}
    (found : runtime.world.state.getJob job.id = some job)
    (known : runtime.runbookAt outside job.runbookHash = some runbook)
    (defined : runbook.getJob job.kind = some jobDef)
    (step : jobDef.getStep job.step = some stepDef) (shell : stepDef.isShell = true)
    {error : RuntimeError} {after : Runtime}
    (ran : handleShellResume outside job job.step runtime = (.error error, after)) :
    error.OfEffect := by
  obtain ⟨killed, kills, state, _, cache⟩ := tryKillSession_run outside job runtime
  have found' : killed.world.state.getJob job.id = some job := by
    rw [state]
    exact found
  have known' : killed.runbookAt outside job.runbookHash = some runbook := by
    rw [Runtime.runbookAt_congr outside cache (congrArg (·.runbooks) state)]
    exact known
  rw [handleShellResume, Program.bind_ok kills] at ran
  exact startStep_errs outside found' known' defined step shell ran

/-- What is left of a resumption without a message, once the runbook is there. -/
def resumeIn (runbook : Runbook) (job : Job) (kill : Bool) : Handler (List Event) := do
  let jobDef ← require (.jobDefNotFound job.kind) (runbook.getJob job.kind)
  let stepDef ← require (.stepNotFound job.step) (jobDef.getStep job.step)
  let resolved ← resumeMessage job stepDef none
  resumeAt outside job job.step stepDef resolved kill

variable {job : Job} {runtime : Runtime} {runbook : Runbook} {jobDef : JobDef} {stepDef : StepDef}

/-- A job that has not failed goes on at its step, as its runbook has it. -/
theorem handleJobResume_run (kill : Bool) (found : runtime.world.state.getJob job.id = some job)
    (going : job.step ≠ "failed") :
    handleJobResume outside job.id none ∅ kill runtime =
      (cachedRunbook outside job.runbookHash >>= (resumeIn outside · job kill)) runtime := by
  have required : requireJob job.id runtime = (.ok job, runtime) :=
    requireJob_eq_ok.mpr ⟨rfl, found⟩
  have goesOn : require (.invalidRequest "no failed step found in history") job.resumeStep runtime =
      (.ok job.step, runtime) := by
    rw [Job.resumeStep, if_neg going]
    rfl
  have unvaried : updateVars outside job ∅ = pure () := if_pos Std.ExtTreeMap.isEmpty_empty
  unfold handleJobResume
  rw [Program.bind_ok required, Program.bind_ok goesOn]
  refine congrArg (fun next => (cachedRunbook outside job.runbookHash >>= next) runtime) ?_
  funext runbook
  refine congrArg (require _ _ >>= ·) (funext fun jobDef => ?_)
  refine congrArg (require _ _ >>= ·) (funext fun stepDef => ?_)
  refine congrArg (resumeMessage job stepDef none >>= ·) (funext fun resolved => ?_)
  rw [resetFailed, if_neg going, unvaried]
  exact Program.bind_pure _

/-- A job whose runbook is not known is refused. -/
theorem handleJobResume_unknown (kill : Bool)
    (found : runtime.world.state.getJob job.id = some job) (going : job.step ≠ "failed")
    (unknown : runtime.runbookAt outside job.runbookHash = none) :
    ∃ text, (handleJobResume outside job.id none ∅ kill runtime).1 =
      .error (.runbookLoadError text) := by
  obtain ⟨error, failed⟩ := cachedRunbook_unknown outside unknown
  obtain ⟨text, rfl⟩ := cachedRunbook_errs outside job.runbookHash _ _ _ failed
  refine ⟨text, ?_⟩
  rw [handleJobResume_run outside kill found going, Program.bind_error failed]

theorem resumeIn_undefined (kill : Bool) (undefined : runbook.getJob job.kind = none) :
    (resumeIn outside runbook job kill runtime).1 = .error (.jobDefNotFound job.kind) := by
  rw [resumeIn, undefined]
  rfl

theorem resumeIn_noStep (kill : Bool) (defined : runbook.getJob job.kind = some jobDef)
    (undefined : jobDef.getStep job.step = none) :
    (resumeIn outside runbook job kill runtime).1 = .error (.stepNotFound job.step) := by
  rw [resumeIn, defined, require_some, Program.pure_bind, undefined]
  rfl

/-- The agent of a step gets no message, and what is no shell step cannot be run again. -/
theorem resumeIn_noShell (kill : Bool) (defined : runbook.getJob job.kind = some jobDef)
    (step : jobDef.getStep job.step = some stepDef) (going : job.step ≠ "failed")
    (other : stepDef.isShell = false) :
    ∃ text, (resumeIn outside runbook job kill runtime).1 = .error (.invalidRequest text) := by
  rw [resumeIn, defined, require_some, Program.pure_bind, step, require_some, Program.pure_bind,
    resumeMessage]
  split
  · exact ⟨_, rfl⟩
  · rw [Program.pure_bind, resumeAt, if_neg (Bool.eq_false_iff.mp other)]
    exact ⟨_, rfl⟩

/-- A shell step runs again, unless an effect fails. -/
theorem handleJobResume_shell (kill : Bool) (found : runtime.world.state.getJob job.id = some job)
    (going : job.step ≠ "failed")
    (known : runtime.runbookAt outside job.runbookHash = some runbook)
    (defined : runbook.getJob job.kind = some jobDef)
    (step : jobDef.getStep job.step = some stepDef) (shell : stepDef.isShell = true) :
    Spared RuntimeError.Refusal (handleJobResume outside job.id none ∅ kill runtime).1 := by
  obtain ⟨runbookCache, loads, aside, _⟩ := cachedRunbook_known outside known
  have command : stepDef.run.isAgent = false := by
    unfold StepDef.isShell at shell
    cases runs : stepDef.run with
    | shell command => rfl
    | agent name attach =>
        rw [runs] at shell
        cases shell
    | job nested => rfl
  have resumes : resumeIn outside runbook job kill { runtime with runbookCache } =
      handleShellResume outside job job.step { runtime with runbookCache } := by
    rw [resumeIn, defined, require_some, Program.pure_bind, step, require_some, Program.pure_bind,
      resumeMessage, command, if_neg Bool.false_ne_true, Program.pure_bind, resumeAt, if_pos shell]
  rw [handleJobResume_run outside kill found going, Program.bind_ok loads, resumes]
  have known' : ({ runtime with runbookCache } : Runtime).runbookAt outside job.runbookHash =
      some runbook := (aside.runbooks _).trans known
  have found' : ({ runtime with runbookCache } : Runtime).world.state.getJob job.id = some job :=
    found
  intro error failed refused
  obtain ⟨failure, rfl⟩ := handleShellResume_errs outside found' known' defined step shell
    (Prod.ext failed rfl)
  rcases refused with ⟨text, same | same⟩ | ⟨text, same | same | same⟩ <;> cases same

end Handler

def Runtime.RunsCommand (outside : Outside) (runtime : Runtime) (job : Job) : Prop :=
  ∀ runbook jobDef, runtime.runbookAt outside job.runbookHash = some runbook →
    runbook.getJob job.kind = some jobDef →
    ∃ stepDef, jobDef.getStep job.step = some stepDef ∧ stepDef.isShell = true

def Runtime.KnowsJob (outside : Outside) (runtime : Runtime) (job : Job) : Prop :=
  ∃ runbook jobDef, runtime.runbookAt outside job.runbookHash = some runbook ∧
    runbook.getJob job.kind = some jobDef

theorem spared_error {errors : RuntimeError → Prop} {error : RuntimeError} :
    Spared errors (.error error) ↔ ¬errors error := by
  constructor
  · exact fun spared => spared error rfl
  · rintro allowed _ ⟨⟩
    exact allowed

/-- An error that is no matter of the request: the job is not known well enough. -/
theorem unknown_spared {error : RuntimeError} {text : String}
    (unknown : error = .runbookLoadError text ∨ error = .jobDefNotFound text) :
    Spared RuntimeError.Invalid (.error error) ∧ ¬Spared RuntimeError.Refusal (.error error) := by
  rw [spared_error, spared_error, not_not]
  refine ⟨?_, .inr ⟨text, .inr unknown⟩⟩
  rintro ⟨other, rfl | rfl⟩
  · rcases unknown with same | same <;> cases same
  · rcases unknown with same | same <;> cases same

theorem invalid_refused {error : RuntimeError} (invalid : error.Invalid) :
    ¬Spared RuntimeError.Invalid (.error error) ∧ ¬Spared RuntimeError.Refusal (.error error) := by
  rw [spared_error, spared_error, not_not, not_not]
  exact ⟨invalid, .inl invalid⟩

namespace Handler

variable (outside : Outside)

/-- The engine accepts a resumption without a message exactly at a step that runs a command. -/
theorem handleJobResume_accepts {job : Job} {runtime : Runtime} (kill : Bool)
    (found : runtime.world.state.getJob job.id = some job) (going : job.step ≠ "failed") :
    let result := (handleJobResume outside job.id none ∅ kill runtime).1
    (Spared RuntimeError.Invalid result ↔ runtime.RunsCommand outside job) ∧
      (Spared RuntimeError.Refusal result ↔
        runtime.RunsCommand outside job ∧ runtime.KnowsJob outside job) := by
  have whole := handleJobResume_run outside kill found going
  dsimp only
  cases known : runtime.runbookAt outside job.runbookHash with
  | none =>
      obtain ⟨text, failed⟩ := handleJobResume_unknown outside kill found going known
      obtain ⟨valid, refused⟩ := unknown_spared (.inl (Eq.refl (RuntimeError.runbookLoadError text)))
      rw [failed]
      refine ⟨iff_of_true valid ?_, iff_of_false refused ?_⟩
      · intro runbook jobDef present
        rw [known] at present
        cases present
      · rintro ⟨_, runbook, jobDef, present, _⟩
        rw [known] at present
        cases present
  | some runbook =>
      obtain ⟨runbookCache, loads, _⟩ := cachedRunbook_known outside known
      have same : ∀ other, runtime.runbookAt outside job.runbookHash = some other →
          other = runbook := fun other present => Option.some.inj (present.symm.trans known)
      rw [Program.bind_ok loads] at whole
      cases defined : runbook.getJob job.kind with
      | none =>
          obtain ⟨valid, refused⟩ := unknown_spared (.inr (Eq.refl (RuntimeError.jobDefNotFound job.kind)))
          rw [whole, resumeIn_undefined outside kill defined]
          refine ⟨iff_of_true valid ?_, iff_of_false refused ?_⟩
          · intro other jobDef present named
            rw [same other present, defined] at named
            cases named
          · rintro ⟨_, other, jobDef, present, named⟩
            rw [same other present, defined] at named
            cases named
      | some jobDef =>
          -- from here on the request itself is at issue
          have commands : runtime.RunsCommand outside job ↔
              ∃ stepDef, jobDef.getStep job.step = some stepDef ∧ stepDef.isShell = true := by
            constructor
            · exact fun runs => runs runbook jobDef known defined
            · intro runs other otherDef present named
              rw [same other present, defined] at named
              cases named
              exact runs
          have knows : runtime.KnowsJob outside job := ⟨runbook, jobDef, known, defined⟩
          rw [and_iff_left knows, commands]
          cases step : jobDef.getStep job.step with
          | none =>
              obtain ⟨invalid, refused⟩ := invalid_refused
                ⟨job.step, .inr (Eq.refl (RuntimeError.stepNotFound job.step))⟩
              have nothing : ¬∃ stepDef : StepDef, none = some stepDef ∧ stepDef.isShell = true := by
                rintro ⟨_, absent, _⟩
                cases absent
              rw [whole, resumeIn_noStep outside kill defined step]
              exact ⟨iff_of_false invalid nothing, iff_of_false refused nothing⟩
          | some stepDef =>
              cases shell : stepDef.isShell with
              | false =>
                  obtain ⟨text, failed⟩ :=
                    resumeIn_noShell outside kill defined step going shell
                  obtain ⟨invalid, refused⟩ := invalid_refused
                    ⟨text, .inl (Eq.refl (RuntimeError.invalidRequest text))⟩
                  have nothing : ¬∃ other, some stepDef = some other ∧ other.isShell = true := by
                    rintro ⟨_, own, runs⟩
                    rw [← Option.some.inj own, shell] at runs
                    cases runs
                  rw [whole, failed]
                  exact ⟨iff_of_false invalid nothing, iff_of_false refused nothing⟩
              | true =>
                  have spared := handleJobResume_shell outside kill found going known defined step
                    shell
                  have runs : ∃ other, some stepDef = some other ∧ other.isShell = true :=
                    ⟨stepDef, rfl, shell⟩
                  exact ⟨iff_of_true (fun error failed invalid =>
                    spared error failed (.inl invalid)) runs, iff_of_true spared runs⟩

end Handler

/-- What is reported as resumed is resumed, where it is at a step that runs a command: then the
engine does not find the resumption invalid.  Where the job is known as well, nothing that it
looks at refuses it. -/
theorem resumptions_accepted (outside : Outside) (others : OtherHandlers)
    (request : ResumeRequest) (state : MaterializedState) (job : Job) (runtime : Runtime)
    (sessionId : Option SessionId) (listed : job ∈ request.targets outside.order state)
    (same : runtime.world.state.jobs[job.id]? = some { job with sessionId }) :
    job.resumption request.kill ∈ request.events outside.order state ∧
      let result := (Handler.processEvent outside (others.withJobs outside)
        (job.resumption request.kill) runtime).1
      (Spared RuntimeError.Invalid result ↔ runtime.RunsCommand outside job) ∧
      (Spared RuntimeError.Refusal result ↔
        runtime.RunsCommand outside job ∧ runtime.KnowsJob outside job) := by
  have going : job.step ≠ "failed" := by
    intro failed
    have live : isTerminalStep job.step = false := (request.targets_live listed).2
    rw [failed] at live
    cases live
  refine ⟨request.sends listed, ?_⟩
  have found : (runtime.applying outside.order (job.resumption request.kill)).world.state.getJob
      job.id = some { job with sessionId } := MaterializedState.getJob_found same
  exact @Handler.handleJobResume_accepts outside { job with sessionId } _ request.kill found going

/-! ## A step that runs an agent -/

def twoJobs : Runbook where
  jobs := ((∅ : HashMap JobDef).insert "build"
      { kind := "build"
        steps := [{ name := "compile", run := .shell "make" }] }).insert "write"
    { kind := "write"
      steps := [{ name := "draft", run := .agent "writer" none }] }

def waitingState : MaterializedState :=
  ({} : MaterializedState).replay (fun _ => .byKey) (fun _ => ⟨0, 0⟩) 0
    [.runbookLoaded "hash" 1 .null,
      .jobCreated "b1" "build" "build" "hash" "/" ∅ "compile" 0 "" none,
      .jobCreated "w1" "write" "write" "hash" "/" ∅ "draft" 0 "" none,
      .stepStarted "w1" "draft" (some "agent") (some "writer"),
      .stepWaiting "w1" "draft" (some "idle") none]

theorem waitingState_target (id : JobId) (known : id = "b1" ∨ id = "w1") :
    ∃ job ∈ (ResumeRequest.jobs false).targets .byKey waitingState,
      waitingState.jobs[id]? = some job ∧ job.id = id := by
  have listed : ((ResumeRequest.jobs false).targets .byKey waitingState).map (·.id) =
      ["b1", "w1"] := by decide +kernel
  have among : id ∈ ((ResumeRequest.jobs false).targets .byKey waitingState).map (·.id) := by
    rw [listed]
    simpa using known
  obtain ⟨job, target, rfl⟩ := List.mem_map.mp among
  obtain ⟨key, stored⟩ := ((ResumeRequest.jobs false).targets_live target).1
  have own : waitingState.jobs.toList.all (fun entry => entry.1 == entry.2.id) = true := by
    decide +kernel
  have named := List.all_eq_true.mp own (key, job)
    (Std.ExtTreeMap.mem_toList_iff_getElem?_eq_some.mpr stored)
  have same : key = job.id := beq_iff_eq.mp named
  exact ⟨job, target, same ▸ stored, rfl⟩

/-- All jobs are resumed.  The one at a command is accepted. -/
theorem resumptions_accepted_command :
    ∃ job ∈ (ResumeRequest.jobs false).targets .byKey waitingState, job.id = "b1" ∧
      Spared RuntimeError.Refusal (Handler.processEvent (.plain twoJobs)
        (OtherHandlers.silent.withJobs (.plain twoJobs)) (job.resumption false)
        (.idle twoJobs waitingState)).1 := by
  obtain ⟨job, listed, stored, named⟩ := waitingState_target "b1" (.inl rfl)
  have same : (Runtime.idle twoJobs waitingState).world.state.jobs[job.id]? =
      some { job with sessionId := job.sessionId } := by
    rw [named]
    exact stored
  have accepted := resumptions_accepted (.plain twoJobs) .silent (.jobs false) waitingState job
    (.idle twoJobs waitingState) job.sessionId listed same
  have at_ : (waitingState.jobs["b1"]?).map (fun job => (job.runbookHash, job.kind, job.step)) =
      some ("hash", "build", "compile") := by decide +kernel
  rw [stored] at at_
  obtain ⟨hash, kind, step⟩ : job.runbookHash = "hash" ∧ job.kind = "build" ∧ job.step = "compile" :=
    by simpa using at_
  have known : (Runtime.idle twoJobs waitingState).runbookAt (.plain twoJobs) "hash" =
      some twoJobs := by rfl
  refine ⟨job, listed, named, accepted.2.2.mpr ⟨?_, ?_⟩⟩
  · intro runbook jobDef found defined
    rw [hash, known] at found
    cases found
    have known : twoJobs.getJob "build" = some {
        kind := "build"
        steps := [{ name := "compile", run := .shell "make" }] } := by rfl
    rw [kind, known] at defined
    cases defined
    rw [step]
    exact ⟨_, rfl, rfl⟩
  · rw [Runtime.KnowsJob, hash, kind]
    exact ⟨twoJobs, _, known, rfl⟩

/-- The one at an agent is reported as resumed too, but its resumption has no message. -/
theorem agent_without_message : ¬∀ (outside : Outside) (others : OtherHandlers)
    (request : ResumeRequest) (state : MaterializedState) (job : Job) (runtime : Runtime)
    (sessionId : Option SessionId), job ∈ request.targets outside.order state →
    runtime.world.state.jobs[job.id]? = some { job with sessionId } →
    Spared RuntimeError.Invalid (Handler.processEvent outside (others.withJobs outside)
      (job.resumption request.kill) runtime).1 := by
  intro accepts
  obtain ⟨job, listed, stored, named⟩ := waitingState_target "w1" (.inr rfl)
  have same : (Runtime.idle twoJobs waitingState).world.state.jobs[job.id]? =
      some { job with sessionId := job.sessionId } := by
    rw [named]
    exact stored
  have accepted := accepts (.plain twoJobs) .silent (.jobs false) waitingState job
    (.idle twoJobs waitingState) job.sessionId listed same
  have refused : ∃ text, (Handler.processEvent (.plain twoJobs)
      (OtherHandlers.silent.withJobs (.plain twoJobs)) (.jobResume "w1" none ∅ false)
      (.idle twoJobs waitingState)).1 = .error (.invalidRequest text) := ⟨_, by rfl⟩
  obtain ⟨text, refused⟩ := refused
  rw [Job.resumption, named] at accepted
  exact accepted _ refused ⟨text, .inl rfl⟩

end OddJobs
