import OddJobs.Engine.Handlers

/-!
# The engine loop

The daemon processes the log one entry at a time.  What a handler returns is
appended to the log; when it fails, the job of the event is failed instead.
-/

namespace OddJobs

def Event.jobId : Event → Option JobId
  | commandRun jobId _ _ _ _ _ _ | shellExited jobId _ _ _ _ | stepStarted jobId _ _ _
  | stepWaiting jobId _ _ _ | stepCompleted jobId _ | stepFailed jobId _ _ => some jobId
  | jobCreated id _ _ _ _ _ _ _ _ _ | jobAdvanced id _ | jobUpdated id _ | jobResume id _ _ _
  | jobCancelling id | jobCancel id | jobDeleted id => some id
  | workerItemDispatched _ _ jobId _ => some jobId
  | cronOnce _ jobId _ _ _ agentName _ _ _ _ => if agentName.isSome then none else some jobId
  | cronFired _ jobId agentRunId _ => if agentRunId.isSome then none else some jobId
  | decisionCreated _ jobId _ owner _ _ _ _ _ =>
      match owner with
      | .job _ => some jobId
      | .agentRun _ => none
  | sessionCreated _ owner =>
      match owner with
      | .job id => some id
      | .agentRun _ => none
  | _ => none

/-- Failures and resumptions do not fail their job when they cannot be handled. -/
def Event.failsNoJob : Event → Bool
  | jobAdvanced _ step => step == "failed"
  | jobResume .. => true
  | _ => false

def Event.failure (event : Event) : List Event :=
  match event.jobId with
  | some id => if event.failsNoJob then [] else [.jobAdvanced id "failed"]
  | none => []

/-- The daemon, with the entries of the log that are not processed yet. -/
structure Daemon where
  runtime : Runtime
  log : List Event

namespace Daemon

variable (outside : Outside) (others : OtherHandlers)

def step (daemon : Daemon) : Daemon :=
  match daemon.log with
  | [] => daemon
  | .shutdown :: rest => { daemon with log := rest }
  | event :: rest =>
      match Handler.processEvent outside others event daemon.runtime with
      | (.ok results, runtime) => { runtime, log := rest ++ results }
      | (.error _, runtime) => { runtime, log := rest ++ event.failure }

def steps : Nat → Daemon → Daemon
  | 0, daemon => daemon
  | n + 1, daemon => steps n (daemon.step outside others)

end Daemon

/-- A runbook with a persisted queue and a worker whose jobs run in folders. -/
def Runbook.shop : Runbook where
  jobs := (∅ : HashMap JobDef).insert "build" {
    kind := "build"
    workspace := some .folder
    steps := [{ name := "plan", run := .shell "true" }] }
  queues := (∅ : HashMap QueueDef).insert "parts" { queueType := .persisted }
  workers := (∅ : HashMap WorkerDef).insert "joiner" { queue := "parts", job := "build" }

def Runtime.diskFull (runbook : Runbook) (state : MaterializedState) : Runtime :=
  let idle := Runtime.idle runbook state
  { idle with world := { idle.world with
      replies := fun _ => ⟨.ok "session", .ok (), .error "disk full", .ok ⟨true, ""⟩, .ok ()⟩ } }

def Daemon.shop (runtime : Runtime) : Daemon where
  runtime
  log := [.runbookLoaded "hash" 1 .null, .queuePushed "parts" "item" ∅ 0 "",
    .workerStarted "joiner" "/" "hash" "parts" 1 ""]

end OddJobs
