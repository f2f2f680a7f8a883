import OddJobs.Engine.JobCreate

/-!
# Workers

Polling a queue, taking its items, and turning each of them into a job.  A
worker is started from its runbook and from what the materialized state knows of
its earlier life.
-/

namespace OddJobs

open Library

def itemIdOf (item : Value) : String := ((item.get "id").bind Value.asStr).getD "unknown"

namespace WorkerState

/-- Reserve a slot for an item while its take command runs. -/
def reserve (itemId : String) (state : WorkerState) : WorkerState :=
  { state with
    pendingTakes := state.pendingTakes + 1
    inflightItems := state.inflightItems.insert itemId () }

def track (jobId : JobId) (itemId : String) (state : WorkerState) : WorkerState :=
  { state with
    activeJobs := state.activeJobs.insert jobId ()
    itemJobMap := state.itemJobMap.insert jobId itemId }

def stop (state : WorkerState) : WorkerState :=
  { state with
    status := .stopped
    pendingTakes := 0
    inflightItems := ∅ }

def available (state : WorkerState) : Nat :=
  state.concurrency - (state.activeJobs.size + state.pendingTakes)

def items (state : WorkerState) : List String := state.itemJobMap.toList.map (·.2)

end WorkerState

namespace MaterializedState

/-- The active items of a queue that a worker has taken and that are not among
the tracked ones. -/
def strayItems (state : MaterializedState) (scopedQueue workerName : String)
    (tracked : List String) : List String :=
  let items := (state.queueItems[scopedQueue]?).getD []
  (items.filter fun item => item.status == .active && item.workerName == some workerName &&
    !tracked.contains item.id).map (·.id)

def jobOfItem (order : WalkOrder) (state : MaterializedState) (itemId : String) : Option JobId :=
  Table.findKey? order state.jobs fun job =>
    job.vars["item.id"]? == some itemId && !job.isTerminal

end MaterializedState

namespace Handler

variable (outside : Outside)

/-! ## Dispatch -/

def itemFields (item : Value) : List (String × String) :=
  (item.asObject.getD []).map fun field =>
    (field.1, (field.2.asStr).getD (outside.renderValue field.2))

def takeVars (item : Value) : HashMap String :=
  (itemFields outside item).foldl (fun vars field => vars.insert ("item." ++ field.1) field.2) ∅

/-- The input of the job of an item: its fields under `item.` and under the name
of the first variable that the job declares. -/
def jobInput (jobDef : JobDef) (cwd : PathBuf) (item : Value) : HashMap String :=
  (itemFields outside item).foldl (fun input field =>
    let input := input.insert ("item." ++ field.1) field.2
    match jobDef.vars.head? with
    | some first => input.insert (first ++ "." ++ field.1) field.2
    | none => input) ((∅ : HashMap String).insert "invoke.dir" cwd)

def dispatchQueueItem (workerName : String) (item : Value) : Handler (List Event) := do
  let state ← workerState workerName
  match state with
  | none => pure []
  | some state =>
      if state.status = .stopped then pure []
      else do
        let reading ← nextReading
        let runbook ← cachedRunbook outside state.runbookHash
        let jobDef ← require (.jobDefNotFound state.jobKind) (runbook.getJob state.jobKind)
        let created ← createAndStartJob outside {
          jobId := reading.uuid
          jobName := state.jobKind ++ "-" ++ itemIdOf item
          jobKind := state.jobKind
          vars := jobInput outside jobDef state.projectRoot item
          runbookHash := state.runbookHash
          runbookJson := none
          runbook
          ns := state.ns
          cronName := none }
        updateWorkerState workerName (·.track reading.uuid (itemIdOf item))
        let dispatched ← executeAll outside
          [.emit (.workerItemDispatched workerName (itemIdOf item) reading.uuid state.ns)]
        pure (created ++ dispatched)

/-- Fire the take commands of polled items, as long as there are slots.  Items
that are being taken or worked on are skipped. -/
def takeItems (workerName takeTemplate : String) (cwd : PathBuf) :
    Nat → List Value → Handler Unit
  | _, [] => pure ()
  | 0, _ :: _ => pure ()
  | slots + 1, item :: rest => do
      let state ← workerState workerName
      if (state.map (·.inflightItems.contains (itemIdOf item))).getD false then
        takeItems workerName takeTemplate cwd (slots + 1) rest
      else do
        updateWorkerState workerName (·.reserve (itemIdOf item))
        let _ ← execute outside (.takeQueueItem workerName
          (outside.interpolateShell takeTemplate (takeVars outside item)) cwd (itemIdOf item) item)
        takeItems workerName takeTemplate cwd slots rest

/-- Take and dispatch polled items of a persisted queue, as long as there are
slots.  Items that no longer wait are skipped. -/
def dispatchItems (workerName queueName ns : String) : Nat → List Value → Handler (List Event)
  | _, [] => pure []
  | 0, _ :: _ => pure []
  | slots + 1, item :: rest => do
      let found ← readState (·.queueItem (scopedName ns queueName) (itemIdOf item))
      if found.any (·.status == .pending) then do
        let taken ← executeAll outside
          [.emit (.queueTaken queueName (itemIdOf item) workerName ns)]
        let dispatched ← dispatchQueueItem outside workerName item
        let later ← dispatchItems workerName queueName ns slots rest
        pure (taken ++ dispatched ++ later)
      else dispatchItems workerName queueName ns (slots + 1) rest

def queueNotFound (queueName : String) : RuntimeError :=
  .workerNotFound ("queue '" ++ queueName ++ "' not found")

def handleWorkerPollComplete (workerName : String) (items : List Value) :
    Handler (List Event) := do
  let loaded ← refreshWorkerRunbook outside workerName
  let state ← workerState workerName
  match state with
  | none => pure loaded.toList
  | some state =>
      if state.status = .stopped then pure loaded.toList
      else if state.available = 0 ∨ items.isEmpty then do
        updateWorkerState workerName fun state => { state with status := .running }
        pure loaded.toList
      else do
        let runbook ← cachedRunbook outside state.runbookHash
        let queueDef ← require (queueNotFound state.queueName) (runbook.getQueue state.queueName)
        updateWorkerState workerName fun state => { state with status := .running }
        match state.queueType with
        | .external => do
            takeItems outside workerName (queueDef.take.getD "") state.projectRoot state.available
              items
            pure loaded.toList
        | .persisted => do
            let events ← dispatchItems outside workerName state.queueName state.ns state.available
              items
            pure (loaded.toList ++ events)

def handleWorkerTakeComplete (workerName itemId : String) (item : Value) (exitCode : Int) :
    Handler (List Event) := do
  updateWorkerState workerName fun state =>
    { state with pendingTakes := state.pendingTakes - 1 }
  if exitCode ≠ 0 then do
    updateWorkerState workerName fun state =>
      { state with inflightItems := state.inflightItems.erase itemId }
    pure []
  else do
    let loaded ← refreshWorkerRunbook outside workerName
    let events ← dispatchQueueItem outside workerName item
    pure (loaded.toList ++ events)

/-! ## Polling -/

def schedulePoll (workerName ns : String) (pollInterval : Option String) : Handler Unit :=
  match pollInterval with
  | none => pure ()
  | some poll =>
      match parseDuration poll with
      | .error error =>
          Program.throw (.invalidFormat ("invalid poll interval '" ++ poll ++ "': " ++ error))
      | .ok duration => do
          let _ ← execute outside (.setTimer (Timer.queuePoll workerName ns) duration)
          pure ()

def handleWorkerWake (workerName : String) : Handler (List Event) := do
  let loaded ← refreshWorkerRunbook outside workerName
  let state ← workerState workerName
  match state with
  | none => pure loaded.toList
  | some state =>
      if state.status = .stopped then pure loaded.toList
      else
        match state.queueType with
        | .external => do
            let runbook ← cachedRunbook outside state.runbookHash
            let queueDef ← require (queueNotFound state.queueName)
              (runbook.getQueue state.queueName)
            let events ← executeAll outside
              [.pollQueue workerName (queueDef.list.getD "") state.projectRoot]
            schedulePoll outside workerName state.ns state.pollInterval
            pure (loaded.toList ++ events)
        | .persisted => do
            let polled ← pollPersistedQueue outside workerName state.queueName state.ns
            pure (loaded.toList ++ polled)

def handleQueuePollTimer (rest : String) : Handler (List Event) :=
  handleWorkerWake outside (afterLastSlash rest)

/-! ## Starting and stopping -/

def startedState (state : MaterializedState) (workerName : String) (projectRoot : PathBuf)
    (runbookHash ns : String) (workerDef : WorkerDef) (queueDef : QueueDef) : WorkerState :=
  let activeIds := ((state.workers[scopedName ns workerName]?).map (·.activeJobIds)).getD []
  let itemOf := fun id => (state.jobs[id]?).bind fun job => job.vars["item.id"]?
  let itemJobMap : HashMap String := activeIds.foldl (fun items id =>
    match itemOf id with
    | some itemId => items.insert id itemId
    | none => items) ∅
  { projectRoot
    runbookHash
    queueName := workerDef.queue
    jobKind := workerDef.job
    concurrency := workerDef.concurrency
    activeJobs := activeIds.foldl (fun jobs id => jobs.insert id ()) ∅
    status := .running
    queueType := queueDef.queueType
    itemJobMap
    ns
    pollInterval := queueDef.poll
    pendingTakes := 0
    inflightItems :=
      match queueDef.queueType with
      | .external => itemJobMap.toList.foldl (fun items entry => items.insert entry.2 ()) ∅
      | .persisted => ∅ }

def reconcileActiveJobs (workerName : String) : Handler Unit := do
  let state ← workerState workerName
  let active := outside.order.walk ((state.map (·.activeJobs.keys)).getD [])
  let terminal ← readState fun state => active.filterMap fun id =>
    ((state.jobs[id]?).filter (·.isTerminal)).map fun job => (id, job.step)
  Program.forEach (fun entry : JobId × String => do
    let _ ← @Program.attempt _ _ _ RuntimeError
      (checkWorkerJobComplete outside entry.1 entry.2)
    pure ()) terminal

def trackItem (workerName ns itemId : String) (jobId : JobId) : Handler Unit := do
  updateWorkerState workerName (·.track jobId itemId)
  let _ ← executeAll outside [.emit (.workerItemDispatched workerName itemId jobId ns)]
  pure ()

def failLostItem (retry : Option RetryConfig) (queueName ns itemId : String) :
    Handler Unit := do
  let _ ← executeAll outside
    [.emit (.queueFailed queueName itemId "job lost during daemon recovery" ns)]
  let _ ← retryOrDead outside retry queueName itemId ns
  pure ()

def trackedItems (workerName : String) : Handler (List String) := do
  let state ← workerState workerName
  pure ((state.map (·.items)).getD [])

/-- Reconcile the active items of a persisted queue: jobs that are still at work
are tracked again, items without one fail. -/
def reconcileQueueItems (workerName ns : String) (runbook : Runbook) : Handler Unit := do
  let state ← workerState workerName
  let queueName := (state.map (·.queueName)).getD ""
  let scopedQueue := scopedName ns queueName
  let tracked ← trackedItems workerName
  let untracked ← readState fun state =>
    (state.strayItems scopedQueue workerName tracked).filterMap fun itemId =>
      (state.jobOfItem outside.order itemId).map fun jobId => (itemId, jobId)
  Program.forEach (fun entry : String × JobId =>
    trackItem outside workerName ns entry.1 entry.2) untracked
  let tracked ← trackedItems workerName
  let orphaned ← readState (·.strayItems scopedQueue workerName tracked)
  Program.forEach
    (failLostItem outside ((runbook.getQueue queueName).bind (·.retry)) queueName ns) orphaned

def handleWorkerStarted (workerName : String) (projectRoot : PathBuf) (runbookHash ns : String) :
    Handler (List Event) := do
  let runbook ← cachedRunbook outside runbookHash
  let workerDef ← require (.workerNotFound workerName) (runbook.getWorker workerName)
  let queueDef ← require (.workerNotFound ("queue '" ++ workerDef.queue ++
    "' not found for worker '" ++ workerName ++ "'")) (runbook.getQueue workerDef.queue)
  let state ← readState fun state =>
    startedState state workerName projectRoot runbookHash ns workerDef queueDef
  Program.modify fun runtime =>
    { runtime with workerStates := runtime.workerStates.insert workerName state }
  reconcileActiveJobs outside workerName
  match queueDef.queueType with
  | .external => do
      let events ← executeAll outside
        [.pollQueue workerName (queueDef.list.getD "") projectRoot]
      schedulePoll outside workerName ns queueDef.poll
      pure events
  | .persisted => do
      reconcileQueueItems outside workerName ns runbook
      pollPersistedQueue outside workerName workerDef.queue ns

def handleWorkerStopped (workerName : String) : Handler (List Event) := do
  let state ← workerState workerName
  updateWorkerState workerName (·.stop)
  let _ ← execute outside (.cancelTimer (Timer.queuePoll workerName ((state.map (·.ns)).getD "")))
  pure []

/-- Resize a running worker; it polls when it gets its first free slot. -/
def handleWorkerResized (workerName : String) (concurrency : Nat) : Handler (List Event) := do
  let state ← workerState workerName
  match state with
  | none => pure []
  | some state =>
      if state.status = .stopped then pure []
      else do
        updateWorkerState workerName fun state => { state with concurrency }
        let active := state.activeJobs.size + state.pendingTakes
        if state.concurrency ≤ active ∧ active < concurrency then
          handleWorkerWake outside workerName
        else pure []

/-! ## Waking -/

def wakeWorkers (ns : String) : List String → Handler (List Event)
  | [] => pure []
  | workerName :: rest => do
      let woken ← executeAll outside [.emit (.workerWake workerName ns)]
      let later ← wakeWorkers ns rest
      pure (woken ++ later)

def workerNames (test : WorkerState → Bool) : Handler (List String) :=
  Program.read fun runtime => (outside.order.walk runtime.workerStates.keys).filter fun name =>
    (runtime.workerStates[name]?).any test

def handleQueuePushed (queueName ns : String) : Handler (List Event) := do
  let names ← workerNames outside fun state =>
    state.queueName == queueName && state.status == .running
  wakeWorkers outside ns names

/-- `rest.rsplit_once(':')`. -/
def splitLast (separator : Char) (text : String) : Option (String × String) :=
  let backwards := text.toList.reverse
  match backwards.dropWhile (· ≠ separator) with
  | [] => none
  | _ :: front =>
      some (String.ofList front.reverse,
        String.ofList (backwards.takeWhile (· ≠ separator)).reverse)

def splitScopedName (key : String) : String × String :=
  match key.toList.dropWhile (· ≠ '/') with
  | [] => ("", key)
  | _ :: name => (String.ofList (key.toList.takeWhile (· ≠ '/')), String.ofList name)

/-- `strip_prefix`. -/
def withoutPrefix (start text : String) : Option String :=
  if start.toList.isPrefixOf text.toList then
    some (String.ofList (text.toList.drop start.toList.length))
  else none

/-- A queue retry timer has fired: the item waits again, and the workers on its
queue are woken. -/
def handleQueueRetryTimer (rest : String) : Handler (List Event) :=
  match splitLast ':' rest with
  | none => pure []
  | some (scopedQueue, itemId) => do
      let (ns, queueName) := splitScopedName scopedQueue
      let retried ← executeAll outside [.emit (.queueItemRetry queueName itemId ns)]
      let names ← workerNames outside fun state => state.queueName == queueName && state.ns == ns
      let bareNames := names.map fun name =>
        if ns = "" then name else (withoutPrefix (ns ++ "/") name).getD name
      let woken ← wakeWorkers outside ns bareNames
      pure (retried ++ woken)

end Handler

end OddJobs
