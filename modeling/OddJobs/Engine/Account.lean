import OddJobs.Storage.State

/-!
# The account of a job

What the job lifecycle leaves on one job and on the sessions: the events of the
lifecycle leave marks, and the account of the job follows from the marks alone,
whatever the clock says.
-/

namespace OddJobs

open Library

/-- What is compared of a step record, and whether it is unfinished. -/
structure RecordView where
  name : String
  outcome : StepOutcome
  opened : Bool
  deriving DecidableEq, Repr

def StepRecord.view (record : StepRecord) : RecordView where
  name := record.name
  outcome := record.outcome
  opened := record.finishedAtMs.isNone

/-- What the lifecycle events read and change of a job. -/
structure JobView where
  id : String
  kind : String
  runbookHash : String
  step : String
  status : StepStatus
  error : Option String
  sessionId : Option SessionId
  records : List RecordView
  visits : HashMap Nat

def Job.view (job : Job) : JobView where
  id := job.id
  kind := job.kind
  runbookHash := job.runbookHash
  step := job.step
  status := job.stepStatus
  error := job.error
  sessionId := job.sessionId
  records := job.stepHistory.map StepRecord.view
  visits := job.stepVisits

/-- What a lifecycle event says about its job or its session. -/
inductive Mark where
  | advanced (step : String)
  | started
  | completed
  | failed (error : String)
  | opened (sessionId : SessionId) (jobId : JobId)
  | closed (sessionId : SessionId)
  deriving DecidableEq, Repr

def updateOpen (update : RecordView → RecordView) : List RecordView → List RecordView
  | [] => []
  | [record] => if record.opened then [update record] else [record]
  | record :: rest => record :: updateOpen update rest

theorem updateOpen_concat (update : RecordView → RecordView) (records : List RecordView)
    (record : RecordView) :
    updateOpen update (records ++ [record]) =
      records ++ [if record.opened then update record else record] := by
  induction records with
  | nil =>
      simp only [List.nil_append, updateOpen]
      split <;> rfl
  | cons first rest ih =>
      cases rest with
      | nil => exact congrArg (first :: ·) ih
      | cons second tail => exact congrArg (first :: ·) ih

theorem view_updateOpenRecord (update : StepRecord → StepRecord) (image : RecordView → RecordView)
    (commutes : ∀ record, (update record).view = image record.view) (history : List StepRecord) :
    (updateOpenRecord update history).map StepRecord.view =
      updateOpen image (history.map StepRecord.view) := by
  cases history using List.reverseRecOn with
  | nil => rfl
  | append_singleton init record =>
      rw [updateOpenRecord_concat, List.map_append, List.map_append, List.map_singleton,
        List.map_singleton, updateOpen_concat]
      have opened : record.view.opened = record.finishedAtMs.isNone := rfl
      cases unfinished : record.finishedAtMs.isNone with
      | true => simp only [opened, unfinished, ↓reduceIte, commutes]
      | false => simp only [opened, unfinished, Bool.false_eq_true, ↓reduceIte]

namespace RecordView

def close (outcome : StepOutcome) (record : RecordView) : RecordView :=
  { record with outcome, opened := false }

end RecordView

namespace JobView

def isTerminal (view : JobView) : Bool := isTerminalStep view.step

def getStepVisits (view : JobView) (step : String) : Nat := (view.visits[step]?).getD 0

def advanceSkipped (step : String) (view : JobView) : Bool :=
  view.step == step && !(view.status == .failed)

def advanceOutcome (step : String) (view : JobView) : StepOutcome :=
  if step = "failed" ∨ step = "cancelled" then .failed (view.error.getD "") else .completed

/-- A terminal job that moves to a nonterminal step starts afresh. -/
def resumes (step : String) (view : JobView) : Bool := view.isTerminal && !isTerminalStep step

def advance (step : String) (view : JobView) : JobView :=
  if view.advanceSkipped step then view
  else
    { view with
      step
      status := enteredStatus step
      error := if view.resumes step then none else view.error
      sessionId := if view.resumes step then none else view.sessionId
      records := updateOpen (.close (view.advanceOutcome step)) view.records ++
        if isTerminalStep step then []
        else [{ name := step, outcome := .running, opened := true }]
      visits :=
        if isTerminalStep step then view.visits
        else view.visits.insert step (view.getStepVisits step + 1) }

def mark (view : JobView) : Mark → JobView
  | .advanced step => view.advance step
  | .started =>
      { view with
        status := .running
        records := updateOpen (fun record => { record with outcome := .running }) view.records }
  | .completed =>
      { view with
        status := .completed
        records := updateOpen (.close .completed) view.records }
  | .failed error =>
      { view with
        status := .failed
        error := some error
        records := updateOpen (.close (.failed error)) view.records }
  | .opened sessionId _ => { view with sessionId := some sessionId }
  | .closed sessionId =>
      if view.sessionId = some sessionId then { view with sessionId := none } else view

end JobView

theorem Job.view_applyAdvanced (job : Job) (epochMs : Nat) (step : String)
    (moves : job.advanceSkipped step = false) :
    (job.applyAdvanced epochMs step).view = job.view.advance step := by
  have moves' : job.view.advanceSkipped step = false := moves
  rw [Job.applyAdvanced_eq, JobView.advance, moves', if_neg Bool.false_ne_true]
  have closed := view_updateOpenRecord
    (fun record => { record with
      finishedAtMs := some epochMs
      outcome := job.advanceOutcome step })
    (.close (job.view.advanceOutcome step)) (fun _ => rfl) job.stepHistory
  have pushed : ((if isTerminalStep step then [] else [{
      name := step
      startedAtMs := epochMs
      finishedAtMs := none
      outcome := .running
      agentId := none
      agentName := none }] : List StepRecord)).map StepRecord.view =
      if isTerminalStep step then []
      else [{ name := step, outcome := .running, opened := true }] := by
    split <;> rfl
  simp only [Job.view, List.map_append, pushed]
  rw [closed]
  rfl

theorem Job.view_applyStepStarted (job : Job) (agentId : Option AgentId)
    (agentName : Option String) :
    (job.applyStepStarted agentId agentName).view = job.view.mark .started := by
  have running := view_updateOpenRecord
    (Job.startedRecord agentId agentName)
    (fun record => { record with outcome := .running }) (fun _ => rfl) job.stepHistory
  rw [Job.applyStepStarted_eq]
  simp only [Job.view, running]
  rfl

theorem Job.view_applyStepCompleted (job : Job) (epochMs : Nat) :
    (job.applyStepCompleted epochMs).view = job.view.mark .completed := by
  have closed := view_updateOpenRecord
    (fun record => { record with
      finishedAtMs := some epochMs
      outcome := .completed })
    (.close .completed) (fun _ => rfl) job.stepHistory
  simp only [Job.applyStepCompleted, Job.finalizeCurrentStep, Job.view, closed]
  rfl

theorem Job.view_applyStepFailed (job : Job) (epochMs : Nat) (error : String) :
    (job.applyStepFailed epochMs error).view = job.view.mark (.failed error) := by
  have closed := view_updateOpenRecord
    (fun record => { record with
      finishedAtMs := some epochMs
      outcome := .failed error })
    (.close (.failed error)) (fun _ => rfl) job.stepHistory
  simp only [Job.applyStepFailed, Job.finalizeCurrentStep, Job.view, closed]
  rfl

/-! ## The account -/

structure Account where
  job : Option JobView
  sessions : HashMap Session

namespace Account

def mark (account : Account) (mark : Mark) : Account where
  job := account.job.map (·.mark mark)
  sessions :=
    match mark with
    | .opened sessionId jobId => account.sessions.insert sessionId { id := sessionId, jobId }
    | .closed sessionId => account.sessions.erase sessionId
    | _ => account.sessions

def run (account : Account) (marks : List Mark) : Account := marks.foldl mark account

theorem run_append (account : Account) (first second : List Mark) :
    account.run (first ++ second) = (account.run first).run second :=
  List.foldl_append

end Account

namespace Event

def mark? : Event → Option Mark
  | .jobAdvanced _ step => some (.advanced step)
  | .stepStarted _ _ _ _ => some .started
  | .stepCompleted _ _ => some .completed
  | .stepFailed _ _ error => some (.failed error)
  | .sessionCreated sessionId (.job jobId) => some (.opened sessionId jobId)
  | .sessionDeleted sessionId => some (.closed sessionId)
  | _ => none

/-- The events of the lifecycle of a job, and those on its workspace, its queue
item and its worker. -/
def Lifecycle (id : JobId) : Event → Prop
  | .jobAdvanced jobId _ | .stepStarted jobId _ _ _ | .stepCompleted jobId _
  | .stepFailed jobId _ _ | .jobCancelling jobId => jobId = id
  | .sessionCreated _ owner => owner = .job id
  | .sessionDeleted _ | .workspaceDeleted _ | .runbookLoaded _ _ _ | .queueCompleted _ _ _
  | .queueFailed _ _ _ _ | .queueItemDead _ _ _ | .workerPollComplete _ _ => True
  | _ => False

def marks (events : List Event) : List Mark := events.filterMap mark?

theorem marks_cons (event : Event) (rest : List Event) :
    marks (event :: rest) = event.mark?.toList ++ marks rest := by
  rw [marks, List.filterMap_cons]
  cases event.mark? with
  | none => rfl
  | some mark => rfl

end Event

namespace MaterializedState

def account (state : MaterializedState) (id : JobId) : Account where
  job := (state.jobs[id]?).map Job.view
  sessions := state.sessions

/-- An update of the job alone. -/
theorem account_updateJob (state : MaterializedState) (id : JobId) {update : Job → Job} (mark : Mark)
    (commutes : ∀ job, (update job).view = job.view.mark mark)
    (keeps : ∀ account : Account, (account.mark mark).sessions = account.sessions) :
    (state.updateJob id update).account id = (state.account id).mark mark := by
  have job : ((state.updateJob id update).jobs[id]?).map Job.view =
      (((state.jobs[id]?).map Job.view).map (·.mark mark)) := by
    rw [lookup_updateJob, if_pos rfl, Option.map_map, Option.map_map]
    exact Option.map_congr fun job _ => commutes job
  have sessions := keeps (state.account id)
  simp only [account, Account.mark, job] at sessions ⊢
  rw [sessions]
  rfl

theorem account_applyJobAdvanced (state : MaterializedState) (clock : Clock) (id : JobId)
    (step : String) :
    (state.applyJobAdvanced clock id step).account id =
      (state.account id).mark (.advanced step) := by
  have released : ∀ other : MaterializedState, (other.releaseJob id).account id = other.account id :=
    fun _ => rfl
  unfold applyJobAdvanced
  cases found : state.jobs[id]? with
  | none =>
      have moved := @updateJob_missing state id (Job.applyAdvanced clock.epochMs step) found
      simp only [Option.any_none, Bool.false_eq_true, ↓reduceIte, moved]
      have unmoved : (state.account id).mark (.advanced step) = state.account id := by
        simp only [account, Account.mark, found, Option.map_none]
      rw [unmoved]
      split
      · exact released state
      · rfl
  | some job =>
      have viewed : state.account id = { job := some job.view, sessions := state.sessions } := by
        simp only [account, found, Option.map_some]
      cases skipped : job.advanceSkipped step with
      | true =>
          have stays : job.view.mark (.advanced step) = job.view := if_pos skipped
          simp only [Option.any_some, skipped, ↓reduceIte, viewed, Account.mark, Option.map_some,
            stays]
      | false =>
          have moved := job.view_applyAdvanced clock.epochMs step skipped
          have advanced : (state.updateJob id (Job.applyAdvanced clock.epochMs step)).account id =
              (state.account id).mark (.advanced step) := by
            simp only [Account.mark, Option.map_some, account, lookup_updateJob, found,
              ↓reduceIte, moved]
            rfl
          simp only [Option.any_some, skipped, Bool.false_eq_true, ↓reduceIte]
          split
          · rw [released]
            exact advanced
          · exact advanced

theorem account_applyStepStarted (state : MaterializedState) (clock : Clock) (id : JobId)
    (agentId : Option AgentId) (agentName : Option String) :
    (state.applyStepStarted clock id agentId agentName).account id =
      (state.account id).mark .started := by
  have updated := state.account_updateJob id .started
    (fun job => job.view_applyStepStarted agentId agentName) (fun _ => rfl)
  unfold applyStepStarted
  cases found : state.jobs[id]? with
  | none => simp only [account, Account.mark, found, Option.map_none]
  | some job =>
      cases agentId with
      | none => exact updated
      | some agentId => exact updated

theorem account_applySessionCreated (state : MaterializedState) (id : JobId)
    (sessionId : SessionId) :
    (state.applySessionCreated sessionId (.job id)).account id =
      (state.account id).mark (.opened sessionId id) := by
  have job : (((state.jobs.modify id fun job => { job with sessionId := some sessionId })[id]?).map
      Job.view) = ((state.jobs[id]?).map Job.view).map (·.mark (.opened sessionId id)) := by
    rw [Table.lookup_modify, if_pos rfl, Option.map_map, Option.map_map]
    rfl
  simp only [applySessionCreated, updateJob, account, Account.mark, job]

theorem account_applySessionDeleted (state : MaterializedState) (id : JobId)
    (sessionId : SessionId) :
    (state.applySessionDeleted sessionId).account id =
      (state.account id).mark (.closed sessionId) := by
  have job : (((state.jobs.map fun _ job =>
      if job.sessionId = some sessionId then { job with sessionId := none } else job)[id]?).map
      Job.view) = ((state.jobs[id]?).map Job.view).map (·.mark (.closed sessionId)) := by
    rw [Table.lookup_map, Option.map_map, Option.map_map]
    refine Option.map_congr fun job _ => ?_
    by_cases held : job.sessionId = some sessionId
    · have held' : job.view.sessionId = some sessionId := held
      simp only [Function.comp_apply, JobView.mark, held, held', ↓reduceIte]
      rfl
    · have held' : ¬job.view.sessionId = some sessionId := held
      simp only [Function.comp_apply, JobView.mark, held, held', ↓reduceIte]
  simp only [applySessionDeleted, account, Account.mark, job]

/-- A lifecycle event changes the account of its job by its mark. -/
theorem account_applyEvent (order : WalkOrder) (clock : Clock) (state : MaterializedState)
    {id : JobId} {event : Event} (lifecycle : event.Lifecycle id) :
    (state.applyEvent order clock event).account id =
      (event.mark?.elim (state.account id) (state.account id).mark) := by
  cases event with
  | jobAdvanced jobId step =>
      cases lifecycle
      exact state.account_applyJobAdvanced clock id step
  | stepStarted jobId step agentId agentName =>
      cases lifecycle
      exact state.account_applyStepStarted clock id agentId agentName
  | stepCompleted jobId step =>
      cases lifecycle
      exact state.account_updateJob id .completed
        (fun job => job.view_applyStepCompleted clock.epochMs) fun _ => rfl
  | stepFailed jobId step error =>
      cases lifecycle
      exact state.account_updateJob id (.failed error)
        (fun job => job.view_applyStepFailed clock.epochMs error) fun _ => rfl
  | jobCancelling jobId =>
      cases lifecycle
      have job : ((state.jobs.modify id fun job => { job with cancelling := true })[id]?).map
          Job.view = (state.jobs[id]?).map Job.view := by
        rw [Table.lookup_modify, if_pos rfl, Option.map_map]
        rfl
      simp only [applyEvent, updateJob, account, job]
      rfl
  | sessionCreated sessionId owner =>
      cases lifecycle
      exact state.account_applySessionCreated id sessionId
  | sessionDeleted sessionId => exact state.account_applySessionDeleted id sessionId
  | workspaceDeleted | runbookLoaded | queueCompleted | queueFailed | queueItemDead
  | workerPollComplete => rfl
  | _ => exact lifecycle.elim

/-- The account after a log of lifecycle events. -/
theorem account_replay (orders : Nat → WalkOrder) (clocks : Nat → Clock) {id : JobId}
    {events : List Event} (lifecycle : ∀ event ∈ events, event.Lifecycle id)
    (state : MaterializedState) (n : Nat) :
    (state.replay orders clocks n events).account id =
      (state.account id).run (Event.marks events) := by
  induction events generalizing state n with
  | nil => rfl
  | cons event rest ih =>
      obtain ⟨first, later⟩ := List.forall_mem_cons.mp lifecycle
      rw [replay, ih later, account_applyEvent (orders n) (clocks n) state first,
        Event.marks_cons, Account.run_append]
      cases event.mark? with
      | none => rfl
      | some mark => rfl

/-- A job that fails at its second step, and whose session is closed then. -/
theorem account_replay_failed :
    let created := ({} : MaterializedState).applyEvent .byKey default
      (.jobCreated "j" "build" "job" "hash" "/" ∅ "plan" 0 "" none)
    let events : List Event := [.sessionCreated "s" (.job "j"), .jobAdvanced "j" "build",
      .stepFailed "j" "build" "error", .sessionDeleted "s"]
    (created.account "j").job.isSome = true ∧
      (created.replay (fun _ => .byKey) (fun _ => default) 0 events).account "j" =
        (created.account "j").run (Event.marks events) :=
  ⟨by rfl, account_replay _ _ (by simp [Event.Lifecycle]) _ 0⟩

end MaterializedState

end OddJobs
