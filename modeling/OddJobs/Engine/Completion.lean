import OddJobs.Engine.Runtime

/-!
# Job completion and queue items

When a job ends, the worker that dispatched it gets its slot back, and an item
of a persisted queue is completed, scheduled for a retry, or dead.
-/

namespace OddJobs

open Library

/-- Parse a duration such as `30s`, `5m` or `1h`, in milliseconds. -/
def parseDuration (text : String) : Except String Nat :=
  let text := Text.trim text.toList
  if text.isEmpty then .error "empty duration string"
  else
    let digits := text.takeWhile Char.isDigit
    let number := Nat.ofDigitChars 10 digits 0
    if digits.isEmpty || U64_VALUES ≤ number then
      .error ("invalid number in duration: " ++ String.ofList text)
    else
      let seconds := fun multiplier => .ok (number * multiplier % U64_VALUES * 1000)
      match String.ofList (Text.trim (text.dropWhile Char.isDigit)) with
      | "ms" | "millis" | "millisecond" | "milliseconds" => .ok number
      | "" | "s" | "sec" | "secs" | "second" | "seconds" => seconds 1
      | "m" | "min" | "mins" | "minute" | "minutes" => seconds 60
      | "h" | "hr" | "hrs" | "hour" | "hours" => seconds 3600
      | "d" | "day" | "days" => seconds 86400
      | other => .error ("unknown duration suffix: " ++ other)

namespace WorkerState

/-- Free the slot of a job, and its item so that it can be queued again. -/
def release (jobId : JobId) (state : WorkerState) : WorkerState :=
  { state with
    activeJobs := state.activeJobs.erase jobId
    itemJobMap := state.itemJobMap.erase jobId
    inflightItems :=
      match state.itemJobMap[jobId]? with
      | some itemId => state.inflightItems.erase itemId
      | none => state.inflightItems }

def canPoll (state : WorkerState) : Bool :=
  state.status == .running && state.activeJobs.size < state.concurrency

end WorkerState

/-! ## The items of a persisted queue -/

namespace QueueItem

def fields (order : WalkOrder) (item : QueueItem) : List (String × Value) :=
  (order.walk item.data.keys).foldl (fun fields key =>
    Value.insertField fields key (.string ((item.data[key]?).getD "")))
    [("id", .string item.id)]

def polled (order : WalkOrder) (item : QueueItem) : Value := .object (item.fields order)

end QueueItem

namespace MaterializedState

def pendingItems (order : WalkOrder) (state : MaterializedState) (scopedQueue : String) :
    List Value :=
  let items := (state.queueItems[scopedQueue]?).getD []
  (items.filter (·.status == .pending)).map (·.polled order)

end MaterializedState

namespace Handler

variable (outside : Outside)

def pollPersistedQueue (workerName queueName ns : String) : Handler (List Event) := do
  let items ← readState (·.pendingItems outside.order (scopedName ns queueName))
  pure [.workerPollComplete workerName items]

/-- After a failure: schedule a retry while attempts are left, else the item is
dead. -/
def retryOrDead (retry : Option RetryConfig) (queueName itemId ns : String) :
    Handler (List Event) := do
  let scopedQueue := scopedName ns queueName
  let item ← readState (·.queueItem scopedQueue itemId)
  let failureCount : Nat := (item.map (·.failureCount)).getD 0
  let maxAttempts : Nat := (retry.map (·.attempts)).getD 0
  if 0 < maxAttempts ∧ failureCount < maxAttempts then
    let cooldown := (retry.map (·.cooldown)).getD "0s"
    let duration := ((parseDuration cooldown).toOption).getD 0
    let _ ← execute outside (.setTimer (Timer.queueRetry scopedQueue itemId) duration)
    pure []
  else executeAll outside [.emit (.queueItemDead queueName itemId ns)]

def settleQueueItem (runbookHash queueName itemId ns terminalStep : String) :
    Handler (List Event) :=
  if terminalStep = "done" then
    executeAll outside [.emit (.queueCompleted queueName itemId ns)]
  else do
    let failed ← executeAll outside
      [.emit (.queueFailed queueName itemId ("job reached '" ++ terminalStep ++ "'") ns)]
    let runbook ← cachedRunbook outside runbookHash
    let settled ← retryOrDead outside ((runbook.getQueue queueName).bind (·.retry)) queueName
      itemId ns
    pure (failed ++ settled)

/-- A worker with a free slot looks for more work. -/
def pollAgain (workerName : String) (state : WorkerState) (runbookHash : String) :
    Handler (List Event) := do
  let current ← workerState workerName
  if (current.map (·.canPoll)).getD false then
    match state.queueType with
    | .external => do
        let runbook ← cachedRunbook outside runbookHash
        match runbook.getQueue state.queueName with
        | none => pure []
        | some queueDef =>
            executeAll outside
              [.pollQueue workerName (queueDef.list.getD "") state.projectRoot]
    | .persisted => pollPersistedQueue outside workerName state.queueName state.ns
  else pure []

def findWorker (order : WalkOrder) (jobId : JobId) (workers : HashMap WorkerState) :
    Option (String × WorkerState) :=
  (Table.findKey? order workers (·.activeJobs.contains jobId)).bind fun workerName =>
    (workers[workerName]?).map fun state => (workerName, state)

/-- Check if a completed job belongs to a worker; settle its queue item and poll
again. -/
def checkWorkerJobComplete (jobId : JobId) (terminalStep : String) : Handler (List Event) := do
  let owner ← Program.read fun runtime => findWorker outside.order jobId runtime.workerStates
  match owner with
  | none => pure []
  | some (workerName, state) => do
      updateWorkerState workerName (·.release jobId)
      let loaded ← refreshWorkerRunbook outside workerName
      let current ← workerState workerName
      let runbookHash := (current.map (·.runbookHash)).getD state.runbookHash
      let settled ← match state.queueType, state.itemJobMap[jobId]? with
        | .persisted, some itemId =>
            settleQueueItem outside runbookHash state.queueName itemId state.ns terminalStep
        | _, _ => pure []
      let polled ← pollAgain outside workerName state runbookHash
      pure (loaded.toList ++ settled ++ polled)

end Handler

end OddJobs
