import OddJobs.Engine.Runtime

/-!
# Job step transition effects

The effects that move a job between steps.  State changes are typed events.
-/

namespace OddJobs

namespace Steps

def stepStartEffects (jobId : JobId) (step : String) : List Effect :=
  [.emit (.stepStarted jobId step none none)]

def stepTransitionEffects (job : Job) (nextStep : String) : List Effect :=
  [.emit (.jobAdvanced job.id nextStep)]

def failureTransitionEffects (job : Job) (onFail error : String) : List Effect :=
  [.emit (.stepFailed job.id job.step error), .emit (.jobAdvanced job.id onFail)]

def cancelTimerEffects (job : Job) : List Effect :=
  [.cancelTimer (Timer.liveness job.id), .cancelTimer (Timer.exitDeferred job.id)]

def sessionEffects (job : Job) : List Effect :=
  match job.sessionId with
  | some sessionId => [.killSession sessionId, .emit (.sessionDeleted sessionId)]
  | none => []

def failureEffects (job : Job) (error : String) : List Effect :=
  cancelTimerEffects job ++
    [.emit (.jobAdvanced job.id "failed"), .emit (.stepFailed job.id job.step error)] ++
    sessionEffects job

def cancellationTransitionEffects (job : Job) (onCancelStep : String) : List Effect :=
  [.emit (.stepFailed job.id job.step "cancelled"), .emit (.jobAdvanced job.id onCancelStep)]

def cancellationEffects (job : Job) : List Effect :=
  cancelTimerEffects job ++
    (if job.isTerminal then [] else [.emit (.jobAdvanced job.id "cancelled")]) ++
    [.emit (.stepFailed job.id job.step "cancelled")] ++
    sessionEffects job

def completionEffects (job : Job) : List Effect :=
  cancelTimerEffects job ++
    (if job.isTerminal then [] else [.emit (.jobAdvanced job.id "done")]) ++
    [.emit (.stepCompleted job.id job.step)] ++
    sessionEffects job

end Steps

end OddJobs
