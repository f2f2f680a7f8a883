import OddJobs.Storage.Frames
import OddJobs.Storage.ItemCursor
import OddJobs.Storage.JobCursor

/-!
# Marks of events

Jobs and queue items are followed through their cursors.  Every event leaves at
most one mark on a job or on an item, and a log moves a cursor by its marks.
-/

namespace OddJobs

open Library

def Job.cursor (job : Job) : JobCursor where
  step := job.step
  status := job.stepStatus
  names := job.historyNames
  visits := job.stepVisits

def QueueItem.cursor (item : QueueItem) : ItemCursor where
  status := item.status
  failureCount := item.failureCount

namespace Event

def jobMark? : Event → Option (JobId × JobMark)
  | .agentWorking _ (.job jobId) => some (jobId, .move (.status .running))
  | .agentFailed _ _ (.job jobId) => some (jobId, .move (.openStatus .failed))
  | .agentExited _ exitCode (.job jobId) =>
      some (jobId, .move (.openStatus (if exitCode = some 0 then .completed else .failed)))
  | .agentGone _ (.job jobId) => some (jobId, .move (.openStatus .failed))
  | .shellExited jobId _ exitCode _ _ =>
      some (jobId, .move (.status (if exitCode = 0 then .completed else .failed)))
  | .jobCreated id _ _ _ _ _ initialStep _ _ _ => some (id, .created initialStep)
  | .jobAdvanced id step => some (id, .move (.advanced step))
  | .jobDeleted id => some (id, .deleted)
  | .stepStarted jobId _ _ _ => some (jobId, .move (.status .running))
  | .stepWaiting jobId _ _ decisionId => some (jobId, .move (.status (.waiting decisionId)))
  | .stepCompleted jobId _ => some (jobId, .move (.status .completed))
  | .stepFailed jobId _ _ => some (jobId, .move (.status .failed))
  | .decisionCreated id _ _ (.job jobId) _ _ _ _ _ =>
      some (jobId, .move (.status (.waiting (some id))))
  | _ => none

def itemMark? : Event → Option ((String × String) × ItemMark)
  | .queuePushed queueName itemId _ _ ns => some ((scopedName ns queueName, itemId), .pushed)
  | .queueTaken queueName itemId _ ns => some ((scopedName ns queueName, itemId), .move .taken)
  | .queueCompleted queueName itemId ns =>
      some ((scopedName ns queueName, itemId), .move .completed)
  | .queueFailed queueName itemId _ ns => some ((scopedName ns queueName, itemId), .move .failed)
  | .queueDropped queueName itemId ns => some ((scopedName ns queueName, itemId), .dropped)
  | .queueItemRetry queueName itemId ns =>
      some ((scopedName ns queueName, itemId), .move .retried)
  | .queueItemDead queueName itemId ns => some ((scopedName ns queueName, itemId), .move .dead)
  | _ => none

def jobMark (id : JobId) (event : Event) : Option JobMark :=
  event.jobMark?.bind fun entry => if entry.1 = id then some entry.2 else none

def itemMark (key itemId : String) (event : Event) : Option ItemMark :=
  event.itemMark?.bind fun entry => if entry.1 = (key, itemId) then some entry.2 else none

end Event

namespace MaterializedState

def jobCursor (state : MaterializedState) (id : JobId) : Option JobCursor :=
  (state.jobs[id]?).map Job.cursor

def itemCursor (state : MaterializedState) (key itemId : String) : Option ItemCursor :=
  (state.queueItem key itemId).map QueueItem.cursor

/-! ## Events on a job -/

section JobCursor

variable (state : MaterializedState)

theorem jobCursor_updateJob (id other : JobId) (update : Job → Job) (image : JobCursor → JobCursor)
    (commutes : ∀ job, (update job).cursor = image job.cursor) :
    (state.updateJob id update).jobCursor other =
      if id = other then (state.jobCursor other).map image else state.jobCursor other := by
  rw [jobCursor, lookup_updateJob, jobCursor]
  split
  · rw [Option.map_map, Option.map_map]
    exact Option.map_congr fun job _ => commutes job
  · rfl

/-- An update of fields the cursor does not hold. -/
theorem jobCursor_updateJob_other (id other : JobId) (update : Job → Job)
    (keeps : ∀ job, (update job).cursor = job.cursor) :
    (state.updateJob id update).jobCursor other = state.jobCursor other := by
  rw [jobCursor_updateJob state id other update (fun cursor => cursor) keeps]
  simp

end JobCursor

end MaterializedState

namespace Job

theorem cursor_finalizeCurrentStep (job : Job) (outcome : StepOutcome) (epochMs : Nat) :
    (job.finalizeCurrentStep outcome epochMs).cursor = job.cursor := by
  have names := updateOpenRecord_names
    (fun record => { record with finishedAtMs := some epochMs, outcome })
    job.stepHistory (fun _ => rfl)
  simp only [cursor, historyNames, finalizeCurrentStep, names]

theorem cursor_applyAdvanced (epochMs : Nat) (step : String) (job : Job)
    (runs : job.advanceSkipped step = false) :
    (job.applyAdvanced epochMs step).cursor = job.cursor.advance step := by
  have moves : ¬(job.cursor.step = step ∧ job.cursor.status ≠ .failed) := by
    rintro ⟨here, succeeds⟩
    change job.step = step at here
    change job.stepStatus ≠ .failed at succeeds
    simp [advanceSkipped, here, succeeds] at runs
  have names := updateOpenRecord_names
    (fun record => { record with
      finishedAtMs := some epochMs
      outcome := job.advanceOutcome step })
    job.stepHistory (fun _ => rfl)
  cases ends : isTerminalStep step with
  | true =>
      rw [JobCursor.advance_ends ends moves, applyAdvanced_eq]
      simp [cursor, historyNames, ends, names]
  | false =>
      rw [JobCursor.advance_continues ends moves, applyAdvanced_eq]
      simp [cursor, historyNames, ends, names, enteredStatus_nonterminal ends, getStepVisits]

theorem cursor_applyAgentExited (exitCode : Option Int) (job : Job) :
    (job.applyAgentExited exitCode).cursor =
      job.cursor.move (.openStatus (if exitCode = some 0 then .completed else .failed)) := by
  change _ = if job.isTerminal then job.cursor else _
  cases ended : job.isTerminal with
  | true => simp [applyAgentExited, ended]
  | false => by_cases success : exitCode = some 0 <;> simp [applyAgentExited, ended, success] <;> rfl

theorem cursor_applyAgentLost (message : String) (job : Job) :
    (job.applyAgentLost message).cursor = job.cursor.move (.openStatus .failed) := by
  change _ = if job.isTerminal then job.cursor else _
  cases ended : job.isTerminal with
  | true => simp [applyAgentLost, ended]
  | false => simp [applyAgentLost, ended]; rfl

theorem cursor_applyShellExited (epochMs : Nat) (exitCode : Int) (job : Job) :
    (job.applyShellExited epochMs exitCode).cursor =
      job.cursor.move (.status (if exitCode = 0 then .completed else .failed)) := by
  by_cases success : exitCode = 0
  · simp only [applyShellExited, success, ↓reduceIte, cursor_finalizeCurrentStep]
    rfl
  · simp only [applyShellExited, success, ↓reduceIte, cursor_finalizeCurrentStep]
    rfl

theorem cursor_applyStepStarted (agentId : Option AgentId) (agentName : Option String) (job : Job) :
    (job.applyStepStarted agentId agentName).cursor = job.cursor.move (.status .running) := by
  have names := updateOpenRecord_names (startedRecord agentId agentName) job.stepHistory
    (fun _ => rfl)
  rw [applyStepStarted_eq]
  simp only [cursor, historyNames, JobCursor.move, names]

theorem cursor_applyStepWaiting (reason decisionId : Option String) (job : Job) :
    (job.applyStepWaiting reason decisionId).cursor =
      job.cursor.move (.status (.waiting decisionId)) := by
  have names := updateOpenRecord_names
    (fun record => { record with outcome := .waiting (reason.getD "") }) job.stepHistory
    (fun _ => rfl)
  simp only [applyStepWaiting, updateCurrentStepOutcome, cursor, historyNames, JobCursor.move,
    names]

theorem cursor_applyStepCompleted (epochMs : Nat) (job : Job) :
    (job.applyStepCompleted epochMs).cursor = job.cursor.move (.status .completed) :=
  cursor_finalizeCurrentStep _ _ _

theorem cursor_applyStepFailed (epochMs : Nat) (error : String) (job : Job) :
    (job.applyStepFailed epochMs error).cursor = job.cursor.move (.status .failed) :=
  cursor_finalizeCurrentStep _ _ _

end Job

namespace MaterializedState

/-- The state after an event shows the job as the event's mark says. -/
def FollowsJob (id : JobId) (before after : MaterializedState)
    (entry : Option (JobId × JobMark)) : Prop :=
  after.jobCursor id =
    match entry.bind fun entry => if entry.1 = id then some entry.2 else none with
    | some mark => JobCursor.apply (before.jobCursor id) mark
    | none => before.jobCursor id

section Follows

variable (state : MaterializedState) (id : JobId)

theorem followsJob_move (jobId : JobId) (update : Job → Job) (next : JobMove)
    (commutes : ∀ job, (update job).cursor = job.cursor.move next) :
    FollowsJob id state (state.updateJob jobId update) (some (jobId, .move next)) := by
  rw [FollowsJob, jobCursor_updateJob state jobId id update (·.move next) commutes]
  by_cases same : jobId = id
  · simp [same, JobCursor.apply]
  · simp [same]

theorem followsJob_ownerMove (owner : OwnerId) (update : Job → Job) (next : JobMove)
    (commutes : ∀ job, (update job).cursor = job.cursor.move next) :
    FollowsJob id state (state.updateOwnerJob owner update)
      (match owner with
      | .job jobId => some (jobId, .move next)
      | .agentRun _ => none) := by
  cases owner with
  | job jobId => exact followsJob_move state id jobId update next commutes
  | agentRun runId => rfl

theorem followsJob_advanced (clock : Clock) (jobId : JobId) (step : String) :
    FollowsJob id state (state.applyJobAdvanced clock jobId step)
      (some (jobId, .move (.advanced step))) := by
  cases skipped : (state.jobs[jobId]?).any (Job.advanceSkipped step) with
  | true =>
      have unchanged : state.applyJobAdvanced clock jobId step = state := by
        simp [applyJobAdvanced, skipped]
      rw [unchanged, FollowsJob]
      by_cases same : jobId = id
      · subst same
        cases present : state.jobs[jobId]? with
        | none => simp [jobCursor, present, JobCursor.apply]
        | some job =>
            rw [present] at skipped
            have stays : job.step = step ∧ job.stepStatus ≠ .failed := by
              simpa [Job.advanceSkipped] using skipped
            have skip : job.cursor.advance step = job.cursor :=
              JobCursor.advance_skip stays.1 stays.2
            simp [jobCursor, present, JobCursor.apply, JobCursor.move, skip]
      · simp [same]
  | false =>
      have jobs : (state.applyJobAdvanced clock jobId step).jobs =
          (state.updateJob jobId (Job.applyAdvanced clock.epochMs step)).jobs := by
        cases ends : isTerminalStep step <;> simp [applyJobAdvanced, skipped, ends, releaseJob]
      rw [FollowsJob, jobCursor, jobs, lookup_updateJob, jobCursor]
      by_cases same : jobId = id
      · subst same
        cases present : state.jobs[jobId]? with
        | none => simp [JobCursor.apply]
        | some job =>
            rw [present] at skipped
            have moved := Job.cursor_applyAdvanced clock.epochMs step job skipped
            simp [JobCursor.apply, JobCursor.move, moved]
      · simp [same]

theorem followsJob_started (clock : Clock) (jobId : JobId) (agentId : Option AgentId)
    (agentName : Option String) :
    FollowsJob id state (state.applyStepStarted clock jobId agentId agentName)
      (some (jobId, .move (.status .running))) := by
  have jobs : (state.applyStepStarted clock jobId agentId agentName).jobs =
      (state.updateJob jobId (Job.applyStepStarted agentId agentName)).jobs := by
    cases present : state.jobs[jobId]? with
    | none =>
        rw [updateJob_missing state present]
        simp [applyStepStarted, present]
    | some job => cases agentId <;> simp [applyStepStarted, present]
  have follows := followsJob_move state id jobId (Job.applyStepStarted agentId agentName)
    (.status .running) (Job.cursor_applyStepStarted agentId agentName)
  rw [FollowsJob, jobCursor, jobs]
  exact follows

theorem jobCursor_congr {left right : MaterializedState} (jobs : left.jobs = right.jobs) :
    left.jobCursor id = right.jobCursor id := by
  rw [jobCursor, jobs, jobCursor]

theorem jobCursor_applyAgentSignal (order : WalkOrder) (agentId : AgentId)
    (kind : AgentSignalKind) (message : Option String) :
    (state.applyAgentSignal order agentId kind message).jobCursor id = state.jobCursor id := by
  by_cases continues : kind = .continue
  · simp only [applyAgentSignal, continues, ↓reduceIte]
  · cases inRuns : Table.findKey? order state.agentRuns
        (fun run => run.agentId == some agentId) with
    | some runId =>
        refine jobCursor_congr id ?_
        simp only [applyAgentSignal, continues, ↓reduceIte, inRuns]
    | none =>
        cases inJobs : Table.findKey? order state.jobs (Job.hasCurrentAgent agentId) with
        | none => simp only [applyAgentSignal, continues, ↓reduceIte, inRuns, inJobs]
        | some jobId =>
            simp only [applyAgentSignal, continues, ↓reduceIte, inRuns, inJobs]
            exact jobCursor_updateJob_other state jobId id
              (·.setSignal { kind, message }) fun _ => rfl

/-- An event without a mark leaves every cursor alone. -/
theorem followsJob_none {after : MaterializedState}
    (keeps : after.jobCursor id = state.jobCursor id) : FollowsJob id state after none :=
  keeps

end Follows

/-- Every event moves the cursor of a job by the mark it leaves on that job. -/
theorem jobCursor_applyEvent (order : WalkOrder) (clock : Clock) (id : JobId)
    (state : MaterializedState) (event : Event) :
    (state.applyEvent order clock event).jobCursor id =
      match event.jobMark id with
      | some mark => JobCursor.apply (state.jobCursor id) mark
      | none => state.jobCursor id := by
  change FollowsJob id state (state.applyEvent order clock event) event.jobMark?
  cases event with
  | agentWorking agentId owner =>
      have follows := followsJob_ownerMove state id owner
        (fun job => { job with stepStatus := .running }) (.status .running) (fun _ => rfl)
      cases owner <;> exact follows
  | agentFailed agentId error owner =>
      have follows := followsJob_ownerMove state id owner _ (.openStatus .failed)
        (Job.cursor_applyAgentLost error.display)
      cases owner <;> exact follows
  | agentExited agentId exitCode owner =>
      have follows := followsJob_ownerMove state id owner _ _ (Job.cursor_applyAgentExited exitCode)
      cases owner <;> exact follows
  | agentGone agentId owner =>
      have follows := followsJob_ownerMove state id owner _ (.openStatus .failed)
        (Job.cursor_applyAgentLost "session terminated unexpectedly")
      cases owner <;> exact follows
  | agentSignal agentId kind message => exact jobCursor_applyAgentSignal state id order agentId kind message
  | commandRun jobId jobName projectRoot invokeDir ns command args =>
      exact jobCursor_congr id (recordProjectRoot_jobs state ns projectRoot)
  | jobCreated jobId kind name runbookHash cwd vars initialStep createdAtEpochMs ns cronName =>
      rw [FollowsJob, jobCursor, applyEvent, Table.lookup_insert]
      by_cases same : jobId = id
      · simp [same, Event.jobMark?, JobCursor.apply, Job.cursor, Job.historyNames,
          Job.newWithEpochMs]
      · simp [same, Event.jobMark?, jobCursor]
  | jobAdvanced jobId step => exact followsJob_advanced state id clock jobId step
  | jobUpdated jobId vars => exact jobCursor_updateJob_other state jobId id _ fun _ => rfl
  | jobCancelling jobId => exact jobCursor_updateJob_other state jobId id _ fun _ => rfl
  | jobDeleted jobId =>
      rw [FollowsJob, jobCursor, applyEvent, Table.lookup_erase]
      by_cases same : jobId = id
      · simp [same, Event.jobMark?, JobCursor.apply]
      · simp [same, Event.jobMark?, jobCursor]
  | sessionCreated sessionId owner =>
      cases owner with
      | job jobId =>
          exact jobCursor_updateJob_other state jobId id
            (fun job => { job with sessionId := some sessionId }) fun _ => rfl
      | agentRun runId => rfl
  | sessionDeleted sessionId =>
      refine followsJob_none state id ?_
      rw [jobCursor, applyEvent, applySessionDeleted, Table.lookup_map, Option.map_map, jobCursor]
      refine Option.map_congr fun job _ => ?_
      by_cases held : job.sessionId = some sessionId
      · simp [held]
        rfl
      · simp [held]
  | shellExited jobId step exitCode stdout stderr =>
      exact followsJob_move state id jobId _ _ (Job.cursor_applyShellExited clock.epochMs exitCode)
  | stepStarted jobId step agentId agentName =>
      exact followsJob_started state id clock jobId agentId agentName
  | stepWaiting jobId step reason decisionId =>
      exact followsJob_move state id jobId _ _ (Job.cursor_applyStepWaiting reason decisionId)
  | stepCompleted jobId step =>
      exact followsJob_move state id jobId _ _ (Job.cursor_applyStepCompleted clock.epochMs)
  | stepFailed jobId step error =>
      exact followsJob_move state id jobId _ _ (Job.cursor_applyStepFailed clock.epochMs error)
  | workspaceCreated workspaceId path branch owner workspaceType =>
      rcases owner with _ | jobId | runId
      · rfl
      · exact jobCursor_updateJob_other state jobId id
          (fun job => { job with workspacePath := some path, workspaceId := some workspaceId })
          fun _ => rfl
      · rfl
  | decisionCreated decisionId jobId agentId owner source context options createdAtMs ns =>
      have follows := followsJob_ownerMove state id owner
        (fun job => { job with stepStatus := .waiting (some decisionId) })
        (.status (.waiting (some decisionId))) (fun _ => rfl)
      have jobs : (state.applyDecisionCreated decisionId jobId agentId owner source context options
          createdAtMs ns).jobs = (state.updateOwnerJob owner fun job =>
            { job with stepStatus := .waiting (some decisionId) }).jobs := by
        cases owner <;> cases present : state.decisions.contains decisionId <;>
          simp [applyDecisionCreated, updateOwnerJob, updateJob, present]
      have moved := (jobCursor_congr id jobs).trans follows
      cases owner <;> exact moved
  | cronStarted cronName projectRoot runbookHash interval runTarget ns =>
      exact jobCursor_congr id (recordProjectRoot_jobs state ns projectRoot)
  | workerStarted workerName projectRoot runbookHash queueName concurrency ns =>
      exact jobCursor_congr id (recordProjectRoot_jobs state ns projectRoot)
  | agentRunStarted runId agentId =>
      refine jobCursor_congr id ?_
      cases present : state.agentRuns[runId]? <;> simp [applyEvent, applyAgentRunStarted, present]
  | agentRunStatusChanged runId status reason =>
      refine jobCursor_congr id ?_
      cases ends : status.isTerminal <;> simp [applyEvent, applyAgentRunStatusChanged, ends]
  | _ => rfl

/-! ## Events on an item -/

theorem find_updateItem (itemId other : String) {update : QueueItem → QueueItem}
    (keepsId : ∀ item, (update item).id = item.id) (items : List QueueItem) :
    (updateItem other update items).find? (·.id = itemId) =
      if other = itemId then (items.find? (·.id = itemId)).map update
      else items.find? (·.id = itemId) := by
  induction items with
  | nil => simp [updateItem]
  | cons item rest ih =>
      by_cases found : item.id = other
      · by_cases same : other = itemId
        · subst same
          simp [updateItem, found, keepsId]
        · have different : item.id ≠ itemId := fun equal => same (found.symm.trans equal)
          simp [updateItem, found, keepsId, same]
      · by_cases same : other = itemId
        · subst same
          simp only [updateItem, found, ↓reduceIte, List.find?_cons, decide_false]
          exact ih.trans (if_pos rfl)
        · by_cases hit : item.id = itemId <;> simp_all [updateItem]

theorem find_filter_ne (itemId other : String) (items : List QueueItem) :
    (items.filter (·.id ≠ other)).find? (·.id = itemId) =
      if other = itemId then none else items.find? (·.id = itemId) := by
  rw [List.find?_filter]
  by_cases same : other = itemId
  · subst same
    simp
  · rw [if_neg same]
    congr 1
    funext item
    by_cases hit : item.id = itemId
    · have kept : item.id ≠ other := fun equal => same (equal.symm.trans hit)
      simp [hit, Ne.symm same]
    · simp [hit]

theorem find_pushItem (itemId : String) (item : QueueItem) (items : List QueueItem) :
    (pushItem item items).find? (·.id = itemId) =
      if item.id = itemId then some ((items.find? (·.id = itemId)).getD item)
      else items.find? (·.id = itemId) := by
  cases stored : items.any (·.id == item.id) with
  | true =>
      have kept : pushItem item items = items := by simp [pushItem, stored]
      rw [kept]
      by_cases same : item.id = itemId
      · subst same
        obtain ⟨found, member, equal⟩ := List.any_eq_true.mp stored
        have present : (items.find? (·.id = item.id)).isSome = true := by
          rw [List.find?_isSome]
          exact ⟨found, member, by simpa using equal⟩
        obtain ⟨first, lookup⟩ := Option.isSome_iff_exists.mp present
        simp [lookup]
      · rw [if_neg same]
  | false =>
      have added : pushItem item items = items ++ [item] := by simp [pushItem, stored]
      rw [added, List.find?_append]
      by_cases same : item.id = itemId
      · subst same
        have absent : items.find? (·.id = item.id) = none := by
          rw [List.find?_eq_none]
          intro other member
          have unequal := List.any_eq_false.mp stored other member
          simpa using unequal
        simp [absent]
      · cases items.find? (·.id = itemId) <;> simp [same]

section ItemFollows

variable (state : MaterializedState) (key itemId : String)

/-- The state after an event shows the item as the event's mark says. -/
def FollowsItem (before after : MaterializedState)
    (entry : Option ((String × String) × ItemMark)) : Prop :=
  after.itemCursor key itemId =
    match entry.bind fun entry => if entry.1 = (key, itemId) then some entry.2 else none with
    | some mark => ItemCursor.apply (before.itemCursor key itemId) mark
    | none => before.itemCursor key itemId

theorem itemCursor_congr {left right : MaterializedState}
    (items : left.queueItems = right.queueItems) :
    left.itemCursor key itemId = right.itemCursor key itemId := by
  rw [itemCursor, queueItem, items, itemCursor, queueItem]

theorem followsItem_move (queueName ns other : String) (update : QueueItem → QueueItem)
    (next : ItemMove) (keepsId : ∀ item, (update item).id = item.id)
    (commutes : ∀ item, (update item).cursor = item.cursor.move next) :
    FollowsItem key itemId state (state.updateItems queueName ns (updateItem other update))
      (some ((scopedName ns queueName, other), .move next)) := by
  rw [FollowsItem, itemCursor, queueItem, updateItems, Table.lookup_modify]
  by_cases here : scopedName ns queueName = key
  · rw [if_pos here]
    cases present : state.queueItems[key]? with
    | none =>
        have absent : state.itemCursor key itemId = none := by
          simp [itemCursor, queueItem, present]
        by_cases same : other = itemId <;> simp [here, same, absent, ItemCursor.apply]
    | some items =>
        have found : state.itemCursor key itemId =
            (items.find? (·.id = itemId)).map QueueItem.cursor := by
          simp [itemCursor, queueItem, present]
        simp only [Option.map_some, Option.bind_some, find_updateItem itemId other keepsId, found]
        by_cases same : other = itemId
        · simp [here, same, ItemCursor.apply, commutes, Function.comp_def]
        · simp [same]
  · simp [here, itemCursor, queueItem]

theorem followsItem_dropped (queueName ns other : String) :
    FollowsItem key itemId state
      (state.updateItems queueName ns fun items => items.filter (·.id ≠ other))
      (some ((scopedName ns queueName, other), .dropped)) := by
  rw [FollowsItem, itemCursor, queueItem, updateItems, Table.lookup_modify]
  by_cases here : scopedName ns queueName = key
  · rw [if_pos here]
    cases present : state.queueItems[key]? with
    | none =>
        have absent : state.itemCursor key itemId = none := by
          simp [itemCursor, queueItem, present]
        by_cases same : other = itemId <;> simp [here, same, absent, ItemCursor.apply]
    | some items =>
        have found : state.itemCursor key itemId =
            (items.find? (·.id = itemId)).map QueueItem.cursor := by
          simp [itemCursor, queueItem, present]
        simp only [Option.map_some, Option.bind_some, find_filter_ne, found]
        by_cases same : other = itemId
        · simp [here, same, ItemCursor.apply]
        · simp [same]
  · simp [here, itemCursor, queueItem]

theorem followsItem_pushed (queueName other : String) (data : HashMap String)
    (pushedAtEpochMs : Nat) (ns : String) :
    FollowsItem key itemId state
      (state.applyQueuePushed queueName other data pushedAtEpochMs ns)
      (some ((scopedName ns queueName, other), .pushed)) := by
  rw [FollowsItem, itemCursor, queueItem, applyQueuePushed, Table.lookup_insert]
  by_cases here : scopedName ns queueName = key
  · rw [if_pos here, Option.bind_some, find_pushItem]
    have found : state.itemCursor key itemId =
        (((state.queueItems[key]?).getD []).find? (·.id = itemId)).map QueueItem.cursor := by
      cases present : state.queueItems[key]? <;> simp [itemCursor, queueItem, present]
    rw [found, here]
    by_cases same : other = itemId
    · cases ((state.queueItems[key]?).getD []).find? (·.id = itemId) <;>
        simp [same, ItemCursor.apply, ItemCursor.fresh, QueueItem.cursor]
    · simp [same]
  · simp [here, itemCursor, queueItem]

end ItemFollows

/-- Only the queue events touch the queues. -/
theorem queueItems_applyEvent (order : WalkOrder) (clock : Clock) (state : MaterializedState)
    (event : Event) (unmarked : event.itemMark? = none) :
    (state.applyEvent order clock event).queueItems = state.queueItems := by
  refine applyEvent_queueItems order clock state ?_
  cases event with
  | queuePushed | queueTaken | queueCompleted | queueFailed | queueDropped | queueItemRetry
  | queueItemDead => cases unmarked
  | _ => rfl

theorem cursor_applyFailed (item : QueueItem) :
    item.applyFailed.cursor = item.cursor.move .failed := rfl

/-- Every event moves the cursor of an item by the mark it leaves on that item. -/
theorem itemCursor_applyEvent (order : WalkOrder) (clock : Clock) (key itemId : String)
    (state : MaterializedState) (event : Event) :
    (state.applyEvent order clock event).itemCursor key itemId =
      match event.itemMark key itemId with
      | some mark => ItemCursor.apply (state.itemCursor key itemId) mark
      | none => state.itemCursor key itemId := by
  change FollowsItem key itemId state (state.applyEvent order clock event) event.itemMark?
  cases event with
  | queuePushed queueName other data pushedAtEpochMs ns =>
      exact followsItem_pushed state key itemId queueName other data pushedAtEpochMs ns
  | queueTaken queueName other workerName ns =>
      exact followsItem_move state key itemId queueName ns other (·.applyTaken workerName) .taken
        (fun _ => rfl) (fun _ => rfl)
  | queueCompleted queueName other ns =>
      exact followsItem_move state key itemId queueName ns other (·.applyCompleted) .completed
        (fun _ => rfl) (fun _ => rfl)
  | queueFailed queueName other error ns =>
      exact followsItem_move state key itemId queueName ns other (·.applyFailed) .failed
        (fun _ => rfl) cursor_applyFailed
  | queueDropped queueName other ns =>
      exact followsItem_dropped state key itemId queueName ns other
  | queueItemRetry queueName other ns =>
      exact followsItem_move state key itemId queueName ns other (·.applyRetry) .retried
        (fun _ => rfl) (fun _ => rfl)
  | queueItemDead queueName other ns =>
      exact followsItem_move state key itemId queueName ns other (·.applyDead) .dead
        (fun _ => rfl) (fun _ => rfl)
  | _ => exact itemCursor_congr key itemId (queueItems_applyEvent order clock state _ rfl)

/-! ## Folding the log -/

variable (orders : Nat → WalkOrder) (clocks : Nat → Clock)

/-- The cursor of a job after a log is the fold of the job's marks. -/
theorem jobCursor_replay (id : JobId) (state : MaterializedState) (n : Nat) (log : List Event) :
    (replay orders clocks state n log).jobCursor id =
      (log.filterMap (Event.jobMark id)).foldl JobCursor.apply (state.jobCursor id) := by
  induction log generalizing state n with
  | nil => rfl
  | cons event rest ih =>
      rw [replay, ih, jobCursor_applyEvent]
      cases marked : event.jobMark id with
      | none => rw [List.filterMap_cons_none marked]
      | some mark => rw [List.filterMap_cons_some marked, List.foldl_cons]

/-- The cursor of an item after a log is the fold of the item's marks. -/
theorem itemCursor_replay (key itemId : String) (state : MaterializedState) (n : Nat)
    (log : List Event) :
    (replay orders clocks state n log).itemCursor key itemId =
      (log.filterMap (Event.itemMark key itemId)).foldl ItemCursor.apply
        (state.itemCursor key itemId) := by
  induction log generalizing state n with
  | nil => rfl
  | cons event rest ih =>
      rw [replay, ih, itemCursor_applyEvent]
      cases marked : event.itemMark key itemId with
      | none => rw [List.filterMap_cons_none marked]
      | some mark => rw [List.filterMap_cons_some marked, List.foldl_cons]

end MaterializedState

end OddJobs
