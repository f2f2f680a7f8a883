import OddJobs.Engine.Liveness
import OddJobs.Engine.Traces

/-!
# Ids of jobs

A job is looked up by its id, or by the only id that starts with a text.  The second is
meant for the texts that users give; but an event that carries the id of a job that is gone
is looked up in the same way, and may find another job.
-/

namespace OddJobs

open Library

/-- The job that an event of the engine names.  Events that bring a job into being are not
among them, requests to cancel one carry what the user wrote, and what agents report is
looked up by the agent. -/
def Event.job? : Event → Option JobId
  | shellExited jobId _ _ _ _ | stepStarted jobId _ _ _ | stepWaiting jobId _ _ _
  | stepCompleted jobId _ | stepFailed jobId _ _ => some jobId
  | jobAdvanced id _ | jobUpdated id _ | jobResume id _ _ _ | jobCancelling id
  | jobDeleted id => some id
  | workerItemDispatched _ _ jobId _ | cronFired _ jobId _ _ => some jobId
  | sessionCreated _ (.job id) => some id
  | decisionCreated _ _ _ (.job id) _ _ _ _ _ => some id
  | timerStart timer => (Timer.jobClock? timer).bind JobClock.jobId?
  | _ => none

/-- What an event makes of the jobs if it names none of them: nothing. -/
theorem MaterializedState.applyEvent_missing (order : WalkOrder) (clock : Clock)
    {state : MaterializedState} {event : Event} {id : JobId} (named : event.job? = some id)
    (missing : state.jobs[id]? = none) : (state.applyEvent order clock event).jobs = state.jobs := by
  have stays : ∀ update : Job → Job, (state.updateJob id update).jobs = state.jobs :=
    fun update => congrArg (·.jobs) (state.updateJob_missing missing)
  cases event with
  | shellExited jobId step exitCode stdout stderr =>
      cases named
      exact stays _
  | stepStarted jobId step agentId agentName =>
      cases named
      change (state.applyStepStarted clock id agentId agentName).jobs = _
      rw [applyStepStarted, missing]
  | stepWaiting jobId step reason decisionId =>
      cases named
      exact stays _
  | stepCompleted jobId step =>
      cases named
      exact stays _
  | stepFailed jobId step error =>
      cases named
      exact stays _
  | jobAdvanced jobId step =>
      cases named
      refine Table.ext fun other => ?_
      change (state.applyJobAdvanced clock id step).jobs[other]? = _
      rw [lookup_applyJobAdvanced]
      split
      · rename_i own
        rw [← own, missing]
        rfl
      · rfl
  | jobUpdated jobId vars =>
      cases named
      exact stays _
  | jobCancelling jobId =>
      cases named
      exact stays _
  | jobDeleted jobId =>
      cases named
      refine Table.ext fun other => ?_
      change (state.jobs.erase id)[other]? = _
      rw [Table.lookup_erase]
      split
      · rename_i own
        rw [← own, missing]
      · rfl
  | sessionCreated sessionId owner =>
      cases owner with
      | job jobId =>
          cases named
          change (state.jobs.modify id _) = _
          exact stays _
      | agentRun runId => cases named
  | decisionCreated decisionId jobId agentId owner source context options createdAtMs ns =>
      cases owner with
      | job ownerId =>
          cases named
          change ((state.applyDecisionCreated decisionId jobId agentId (.job id) source context
            options createdAtMs ns).jobs) = _
          unfold applyDecisionCreated
          dsimp only
          split
          · exact stays _
          · exact stays _
      | agentRun runId => cases named
  | jobResume | workerItemDispatched | cronFired | timerStart => rfl
  | _ => cases named

/-! ## What spares the jobs -/

def Event.SparesJobs (event : Event) : Prop :=
  ∀ order clock (state : MaterializedState), (state.applyEvent order clock event).jobs = state.jobs

def SameJobs (before after : Runtime) : Prop := after.world.state.jobs = before.world.state.jobs

theorem tracing_sameJobs (order : WalkOrder) : Tracing order Event.SparesJobs
    fun before after => after.state.jobs = before.state.jobs where
  refl := fun _ => rfl
  trans := fun first second => second.trans first
  event := fun spares clock trace => spares order clock trace.state
  cleaning := fun _ _ => rfl

theorem course_sameJobs (outside : Outside) :
    Course (.permitting Event.SparesJobs) outside SameJobs :=
  (tracing_sameJobs outside.order).course

theorem Event.Settles.sparesJobs {step : String} {event : Event} (settles : event.Settles step) :
    event.SparesJobs := by
  cases event with
  | queueCompleted | queueFailed | queueItemDead => exact fun _ _ _ => rfl
  | _ => exact False.elim settles

theorem checkWorkerJobComplete_sameJobs (outside : Outside) (id : JobId) (step : String) :
    Program.Moves SameJobs (Handler.checkWorkerJobComplete outside id step) :=
  (tracing_sameJobs outside.order).blind.checkWorkerJobComplete_moves
    (fun _ settles => settles.sparesJobs) id

/-! ## Lookups that go astray -/

def JobClock.Passes (outside : Outside) (runtime : Runtime) (job : Job) : JobClock → Prop
  | step (.cooldown rest) => ∀ id trigger chainPos, splitCooldown rest = some (id, trigger, chainPos) →
      job.isTerminal = true ∨ runtime.agentOf outside job = none ∨
        (trigger ≠ "idle" ∧ trigger ≠ "exit")
  | step (.idleGrace _) => job.isTerminal = true ∨ runtime.agentOf outside job = none ∨
      job.stepStatus.isWaiting = true ∨ runtime.seesAtWork job = true
  | exitDeferred _ => job.isTerminal = true ∨ runtime.agentOf outside job = none
  | liveness _ => True

/-- An event does nothing to the job that is found in the place of the one that it names: a
shell has exited in another step, a timer exits, or the job has no session to be closed. -/
def Event.Passes (outside : Outside) (runtime : Runtime) (job : Job) : Event → Prop
  | shellExited _ step _ _ _ => job.step ≠ step
  | timerStart id => ∀ clock, Timer.jobClock? id = some clock → clock.Passes outside runtime job
  | jobDeleted _ => job.sessionId = none
  | jobResume _ _ _ _ => False
  | _ => True

namespace Handler

variable (outside : Outside) {id : JobId} {runtime : Runtime}

theorem handleCooldownTimer_passes {rest : String}
    (named : (splitCooldown rest).map (·.1) = some id)
    (passes : ∀ job, runtime.world.state.getJob id = some job →
      (JobClock.step (.cooldown rest)).Passes outside runtime job) :
    (handleCooldownTimer outside rest runtime).2.world = runtime.world := by
  obtain ⟨⟨jobId, trigger, chainPos⟩, split, rfl⟩ := Option.map_eq_some_iff.mp named
  unfold handleCooldownTimer
  rw [split]
  dsimp only
  rw [readState, Program.run_bind, Program.run_read]
  dsimp only
  cases found : runtime.world.state.getJob jobId with
  | none => rfl
  | some job =>
      rw [Option.filter_some]
      cases ended : job.isTerminal with
      | true => rfl
      | false =>
          have gone := (passes job found jobId trigger chainPos split).resolve_left
            (by rw [ended]; exact Bool.false_ne_true)
          exact retrigger_world outside chainPos gone

theorem clearGrace_missing (missing : runtime.world.state.jobs[id]? = none) :
    (clearGrace id runtime).2 = runtime := by
  change { runtime with world := { runtime.world with
    state := runtime.world.state.updateJob id _ } } = runtime
  rw [runtime.world.state.updateJob_missing missing]

theorem handleIdleGraceTimer_passes (missing : runtime.world.state.jobs[id]? = none)
    (passes : ∀ job, runtime.world.state.getJob id = some job →
      (JobClock.step (.idleGrace id)).Passes outside runtime job) :
    (handleIdleGraceTimer outside id runtime).2.world = runtime.world := by
  unfold handleIdleGraceTimer
  rw [readState, Program.run_bind, Program.run_read]
  dsimp only
  cases found : runtime.world.state.getJob id with
  | none => rfl
  | some job =>
      dsimp only
      split
      · exact congrArg Runtime.world (clearGrace_missing missing)
      · rename_i going
        rw [Bool.or_eq_true, not_or] at going
        obtain ⟨after, world, cache, ran⟩ := agentActive_run job runtime
        have missing' : after.world.state.jobs[id]? = none := world ▸ missing
        have clears : clearGrace id after = (.ok (), after) :=
          Prod.ext rfl (clearGrace_missing missing')
        rw [Program.bind_ok ran, Program.bind_ok clears]
        cases active : runtime.seesAtWork job with
        | true => exact world
        | false =>
            have gone : runtime.agentOf outside job = none := by
              rcases passes job found with ended | gone | waits | working
              · exact absurd ended going.1
              · exact gone
              · exact absurd waits going.2
              · rw [active] at working
                cases working
            have found' : after.world.state.getJob id = some job := world ▸ found
            have gone' : after.agentOf outside job = none := by
              unfold Runtime.agentOf at gone ⊢
              rw [Runtime.runbookAt_congr outside cache (congrArg (·.state.runbooks) world)]
              exact gone
            change (proceedIdle outside id after).2.world = _
            unfold proceedIdle
            rw [readState, Program.run_bind, Program.run_read]
            dsimp only
            rw [found']
            exact (forAgent_world outside gone' _).trans world

theorem getActiveJob_run (runtime : Runtime) : getActiveJob id runtime =
    (.ok ((runtime.world.state.getJob id).filter (!·.isTerminal)), runtime) := rfl

/-- Looking after the process of an agent changes no job. -/
theorem handleLivenessTimer_sameJobs (id : JobId) :
    Program.Moves SameJobs (handleLivenessTimer outside id) := by
  have course := course_sameJobs outside
  have closed := course.toClosed
  unfold handleLivenessTimer
  refine Program.Moves.bind closed ?_ fun job => ?_
  · exact (course.readState_moves _).bind closed fun _ => Program.moves_pure closed _
  cases job.bind fun job => job.sessionId.map (job, ·) with
  | none => exact Program.moves_pure closed _
  | some entry =>
      obtain ⟨job, sessionId⟩ := entry
      refine Program.Moves.bind closed ?_ fun running => ?_
      · refine course.nextReading_moves.bind closed fun checked => ?_
        split
        · refine Program.Moves.bind closed ?_ fun agentDef => ?_
          · refine (course.cachedRunbook_moves _).attempt.bind closed fun runbook => ?_
            cases runbook with
            | ok runbook => exact Program.moves_pure closed _
            | error error => exact Program.moves_pure closed _
          · exact course.nextReading_moves.bind closed fun _ => Program.moves_pure closed _
        · exact Program.moves_pure closed _
      · refine Program.Moves.bind closed (course.execute_moves ?_) fun _ =>
          Program.moves_pure closed _
        cases running with
        | true => trivial
        | false => trivial

theorem finalState_run (job : Job) (runtime : Runtime) :
    ∃ (final : Option AgentState) (after : Runtime), after.world = runtime.world ∧
      after.runbookCache = runtime.runbookCache ∧ finalState job runtime = (.ok final, after) := by
  unfold finalState
  cases job.stepAgentId with
  | none => exact ⟨none, runtime, rfl, rfl, rfl⟩
  | some agentId => exact ⟨_, runtime.afterReading, rfl, rfl, rfl⟩

theorem handleExitDeferredTimer_passes
    (passes : ∀ job, runtime.world.state.getJob id = some job →
      (JobClock.exitDeferred id).Passes outside runtime job) :
    (handleExitDeferredTimer outside id runtime).2.world = runtime.world := by
  unfold handleExitDeferredTimer
  rw [Program.bind_ok (getActiveJob_run runtime)]
  cases found : runtime.world.state.getJob id with
  | none => rfl
  | some job =>
      rw [Option.filter_some]
      cases ended : job.isTerminal with
      | true => rfl
      | false =>
          have gone := (passes job found).resolve_left (by rw [ended]; exact Bool.false_ne_true)
          obtain ⟨final, after, world, cache, ran⟩ := finalState_run job runtime
          have gone' : after.agentOf outside job = none := by
            unfold Runtime.agentOf at gone ⊢
            rw [Runtime.runbookAt_congr outside cache (congrArg (·.state.runbooks) world)]
            exact gone
          have rest : (finalState job >>= fun final => forAgent outside job fun agentDef =>
              handleMonitorState outside job agentDef (exitState final)) runtime =
              forAgent outside job (fun agentDef =>
                handleMonitorState outside job agentDef (exitState final)) after :=
            Program.bind_ok ran
          change ((finalState job >>= _) runtime).2.world = _
          rw [rest]
          exact (forAgent_world outside gone' _).trans world

theorem handleJobClock_passes {clock : JobClock} (named : clock.jobId? = some id)
    (missing : runtime.world.state.jobs[id]? = none)
    (passes : ∀ job, runtime.world.state.getJob id = some job → clock.Passes outside runtime job) :
    SameJobs runtime (handleJobClock outside clock runtime).2 := by
  cases clock with
  | step timer =>
      cases timer with
      | cooldown rest =>
          exact congrArg (·.state.jobs) (handleCooldownTimer_passes outside named passes)
      | idleGrace jobId =>
          cases named
          exact congrArg (·.state.jobs) (handleIdleGraceTimer_passes outside missing passes)
  | liveness jobId => exact handleLivenessTimer_sameJobs outside jobId runtime
  | exitDeferred jobId =>
      cases named
      exact congrArg (·.state.jobs) (handleExitDeferredTimer_passes outside passes)

/-- The cleanup after a job that is gone, and another one that has no session. -/
theorem handleJobDeleted_passes
    (passes : ∀ job, runtime.world.state.getJob id = some job → job.sessionId = none) :
    SameJobs runtime (handleJobDeleted outside id runtime).2 := by
  have course := course_sameJobs outside
  have closed := course.toClosed
  have tries : ∀ effect : Effect, effect.Within (.permitting Event.SparesJobs) →
      Program.Moves SameJobs (tryEffect outside effect) :=
    fun effect within => Program.Moves.bind closed (course.execute_moves within).attempt fun _ =>
      Program.moves_pure closed _
  unfold handleJobDeleted
  rw [Program.run_bind, readState, Program.run_read]
  dsimp only
  have cancels : Program.Moves SameJobs (cancelJobTimers id) := fun _ => rfl
  refine cancels.bind closed (fun _ => ?_) runtime
  cases found : runtime.world.state.getJob id with
  | none => exact Program.moves_pure closed _
  | some job =>
      dsimp only
      refine (Program.Moves.forEach closed fun agentId _ => course.deregisterAgent_moves agentId).bind
        closed fun _ => ?_
      refine (Program.Moves.forEach closed fun agentId _ => ?_).bind closed fun _ => ?_
      · have kill : (Effect.killAgent agentId).Within (.permitting Event.SparesJobs) := trivial
        exact tries _ kill
      have calm : Steps.sessionEffects job = [] := by
        rw [Steps.sessionEffects, passes job found]
      rw [calm]
      refine (Program.moves_pure closed _).bind closed fun _ => ?_
      refine (course.workspaceCleanupEffects_moves job).bindOf closed
        fun before cleanup after ran => ?_
      have removed : ∀ workspaceId, (Bounds.permitting Event.SparesJobs).event
          (.workspaceDeleted workspaceId) := fun _ _ _ _ => rfl
      have within := Course.workspaceCleanupEffects_within removed ran
      exact ((Program.Moves.forEach closed fun effect member => tries effect
        (within effect member)).bind closed fun _ => Program.moves_pure closed _) after

theorem requireJob_missing {runtime : Runtime} (missing : runtime.world.state.getJob id = none) :
    requireJob id runtime = (.error (.jobNotFound id), runtime) := by
  rw [requireJob, readState, Program.run_bind, Program.run_read]
  dsimp only
  rw [missing]
  rfl

/-- The name of the timer of a job. -/
theorem jobClock_named {timer : TimerId} {clock : JobClock}
    (routed : Timer.jobClock? timer = some clock) :
    ∃ start ∈ ["idle-grace:", "cooldown:", "liveness:", "exit-deferred:"], ∃ rest,
      timer = start ++ rest := by
  unfold Timer.jobClock? at routed
  dsimp only at routed
  split at routed
  · cases routed
  cases ofStep : Timer.stepTimer? timer with
  | some step =>
      unfold Timer.stepTimer? at ofStep
      dsimp only at ofStep
      split at ofStep
      · cases ofStep
      cases idle : withoutPrefix "idle-grace:" timer with
      | some jobId => exact ⟨_, by decide, jobId, Timer.withoutPrefix_eq_some idle⟩
      | none =>
          rw [idle] at ofStep
          obtain ⟨rest, cools, _⟩ := Option.map_eq_some_iff.mp ofStep
          exact ⟨_, by decide, rest, Timer.withoutPrefix_eq_some cools⟩
  | none =>
      rw [ofStep] at routed
      cases live : withoutPrefix "liveness:" timer with
      | some jobId => exact ⟨_, by decide, jobId, Timer.withoutPrefix_eq_some live⟩
      | none =>
          rw [live] at routed
          obtain ⟨rest, exits, _⟩ := Option.map_eq_some_iff.mp routed
          exact ⟨_, by decide, rest, Timer.withoutPrefix_eq_some exits⟩

/-- The timer of a job is handled as such. -/
theorem handleTimer_jobClock (others : OtherHandlers) {timer : TimerId} {clock : JobClock}
    (routed : Timer.jobClock? timer = some clock) :
    handleTimer outside (others.withJobs outside) timer = handleJobClock outside clock := by
  obtain ⟨start, kind, rest, rfl⟩ := jobClock_named routed
  have apart : ∀ queue ∈ ["queue-retry:", "queue-poll:"], Timer.Apart queue start := by
    intro queue member
    simp only [List.mem_cons, List.not_mem_nil, or_false] at kind member
    rcases kind with rfl | rfl | rfl | rfl <;> rcases member with rfl | rfl <;>
      exact ⟨by decide, by decide⟩
  unfold handleTimer
  rw [(apart "queue-retry:" (by decide)).withoutPrefix (by decide) rest]
  dsimp only
  rw [(apart "queue-poll:" (by decide)).withoutPrefix (by decide) rest]
  unfold OtherHandlers.withJobs OtherHandlers.withClocks
  dsimp only
  rw [routed]

end Handler

theorem MaterializedState.getJob_congr {left right : MaterializedState}
    (same : left.jobs = right.jobs) (id : String) : left.getJob id = right.getJob id := by
  unfold getJob
  rw [same]

namespace Handler

variable (outside : Outside) {id : JobId} {runtime : Runtime}

/-- An event that names no job that is there changes no job. -/
theorem processEvent_passes (others : OtherHandlers) {event : Event}
    (named : event.job? = some id) (missing : runtime.world.state.jobs[id]? = none)
    (passes : ∀ job, runtime.world.state.getJob id = some job → event.Passes outside runtime job) :
    SameJobs runtime (processEvent outside (others.withJobs outside) event runtime).2 := by
  rw [processEvent_run]
  have same : SameJobs runtime (runtime.applying outside.order event) :=
    MaterializedState.applyEvent_missing outside.order (runtime.world.clocks 0) named missing
  have missing' : (runtime.applying outside.order event).world.state.jobs[id]? = none := by
    rw [same]
    exact missing
  have found : ∀ job, (runtime.applying outside.order event).world.state.getJob id = some job →
      event.Passes outside runtime job := by
    intro job found
    rw [MaterializedState.getJob_congr same] at found
    exact passes job found
  refine Eq.trans ?_ same
  change SameJobs (runtime.applying outside.order event) _
  cases event with
  | shellExited jobId step exitCode stdout stderr =>
      cases named
      change SameJobs _ (handleShellExited outside id step exitCode _).2
      unfold handleShellExited
      cases lookup : (runtime.applying outside.order
          (.shellExited id step exitCode stdout stderr)).world.state.getJob id with
      | none =>
          rw [Program.bind_error (requireJob_missing lookup)]
          rfl
      | some job =>
          have required : requireJob id (runtime.applying outside.order
              (.shellExited id step exitCode stdout stderr)) = (.ok job, _) :=
            requireJob_eq_ok.mpr ⟨rfl, lookup⟩
          have elsewhere : job.step ≠ step := found job lookup
          rw [Program.bind_ok required, if_pos elsewhere]
          rfl
  | timerStart timer =>
      obtain ⟨clock, routed, ofJob⟩ := Option.bind_eq_some_iff.mp named
      change SameJobs _ (handleTimer outside (others.withJobs outside) timer _).2
      rw [handleTimer_jobClock outside others routed]
      exact handleJobClock_passes outside ofJob missing' fun job lookup =>
        found job lookup clock routed
  | jobAdvanced jobId step =>
      change SameJobs _ ((if isTerminalStep step then checkWorkerJobComplete outside jobId step
        else pure []) _ : Except _ _ × _).2
      split
      · exact checkWorkerJobComplete_sameJobs outside jobId step _
      · rfl
  | jobResume jobId message vars kill =>
      cases named
      change SameJobs _ (handleJobResume outside id message vars kill _).2
      unfold handleJobResume
      cases lookup : (runtime.applying outside.order
          (.jobResume id message vars kill)).world.state.getJob id with
      | none =>
          rw [Program.bind_error (requireJob_missing lookup)]
          rfl
      | some job => exact (found job lookup).elim
  | jobDeleted jobId =>
      cases named
      exact handleJobDeleted_passes outside found
  | jobUpdated | jobCancelling | stepStarted | stepWaiting | stepCompleted | stepFailed
  | workerItemDispatched | cronFired | sessionCreated | decisionCreated => rfl
  | _ => cases named

end Handler

/-! ## Requests to cancel jobs -/

namespace MaterializedState

def getJobKey (state : MaterializedState) (id : String) : Option JobId :=
  if state.jobs.contains id then some id
  else
    match state.jobs.toList.filter fun entry => id.toList.isPrefixOf entry.1.toList with
    | [entry] => some entry.1
    | _ => none

def BeginsOnly (state : MaterializedState) (id : String) (key : JobId) : Prop :=
  ∀ other, state.jobs.contains other = true ∧ id.toList <+: other.toList ↔ other = key

/-- The text leads to the job of this id and to no other: the job is there, under the text
itself or as the only one whose id begins with it; or it is gone, and the text is neither the
id of another job nor the beginning of just one. -/
def Leads (state : MaterializedState) (id : String) (key : JobId) : Prop :=
  if state.jobs.contains key then
    id = key ∨ state.jobs.contains id = false ∧ state.BeginsOnly id key
  else state.jobs.contains id = false ∧ ∀ other, ¬state.BeginsOnly id other

theorem contains_false {state : MaterializedState} {id : JobId}
    (missing : state.jobs.contains id = false) : state.jobs[id]? = none := by
  rw [Table.contains_eq_isSome, Option.isSome_eq_false_iff, Option.isNone_iff_eq_none] at missing
  exact missing

theorem mem_starting {state : MaterializedState} {id : String} {entry : JobId × Job} :
    entry ∈ (state.jobs.toList.filter fun entry => id.toList.isPrefixOf entry.1.toList) ↔
      state.jobs[entry.1]? = some entry.2 ∧ id.toList <+: entry.1.toList := by
  rw [List.mem_filter, List.isPrefixOf_iff_prefix, Std.ExtTreeMap.mem_toList_iff_getElem?_eq_some]

/-- The only entry whose id begins with a text is the one that is filtered out. -/
theorem starting_eq {state : MaterializedState} {id : String} {key : JobId} {job : Job}
    (stored : state.jobs[key]? = some job) (only : state.BeginsOnly id key) :
    (state.jobs.toList.filter fun entry => id.toList.isPrefixOf entry.1.toList) = [(key, job)] := by
  have distinct : (state.jobs.toList.filter fun entry =>
      id.toList.isPrefixOf entry.1.toList).Nodup :=
    ((Std.ExtTreeMap.distinct_keys_toList (t := state.jobs)).imp fun differs same =>
      differs (by rw [same]; exact Std.ReflCmp.compare_self)).filter _
  refine List.perm_singleton.mp ((List.perm_ext_iff_of_nodup distinct (List.pairwise_singleton _ _)).mpr
    fun entry => ?_)
  rw [mem_starting, List.mem_singleton]
  constructor
  · rintro ⟨present, begins⟩
    have own : entry.1 = key := by
      refine (only entry.1).mp ⟨?_, begins⟩
      rw [Table.contains_eq_isSome, present]
      rfl
    rw [own, stored] at present
    exact Prod.ext own (Option.some.inj present).symm
  · rintro rfl
    exact ⟨stored, ((only key).mpr rfl).2⟩

/-- Where only one entry is filtered out, its id is the only one that begins with the text. -/
theorem beginsOnly_of_starting {state : MaterializedState} {id : String} {entry : JobId × Job}
    (filtered : (state.jobs.toList.filter fun entry =>
      id.toList.isPrefixOf entry.1.toList) = [entry]) : state.BeginsOnly id entry.1 := by
  intro other
  constructor
  · rintro ⟨present, begins⟩
    rw [Table.contains_eq_isSome, Option.isSome_iff_exists] at present
    obtain ⟨job, stored⟩ := present
    have member := (@mem_starting state id (other, job)).mpr ⟨stored, begins⟩
    rw [filtered] at member
    exact congrArg Prod.fst (List.mem_singleton.mp member)
  · rintro rfl
    have member : entry ∈ (state.jobs.toList.filter fun entry =>
        id.toList.isPrefixOf entry.1.toList) := by
      rw [filtered]
      exact List.mem_singleton_self entry
    obtain ⟨stored, begins⟩ := mem_starting.mp member
    refine ⟨?_, begins⟩
    rw [Table.contains_eq_isSome, stored]
    rfl

theorem getJob_leads {state : MaterializedState} {id : String} {key : JobId}
    (leads : state.Leads id key) : state.getJob id = state.jobs[key]? := by
  unfold Leads at leads
  split at leads
  · rename_i present
    rw [Table.contains_eq_isSome, Option.isSome_iff_exists] at present
    obtain ⟨job, stored⟩ := present
    rcases leads with rfl | ⟨missing, only⟩
    · rw [getJob_found stored, stored]
    · unfold getJob
      rw [contains_false missing, starting_eq stored only, stored]
  · rename_i absent
    obtain ⟨missing, never⟩ := leads
    rw [contains_false (Bool.eq_false_iff.mpr absent)]
    unfold getJob
    rw [contains_false missing]
    dsimp only
    split
    · rename_i entry filtered
      exact absurd (beginsOnly_of_starting filtered) (never _)
    · rfl

/-- The job that is found is the one of the id that is found. -/
theorem getJob_eq (state : MaterializedState) (id : String) :
    state.getJob id = (state.getJobKey id).bind (state.jobs[·]?) := by
  unfold getJob getJobKey
  rw [Table.contains_eq_isSome]
  cases stored : state.jobs[id]? with
  | some job => exact stored.symm
  | none =>
      dsimp only [Option.isSome_none]
      rw [if_neg Bool.false_ne_true]
      have stored_of : ∀ entry : JobId × Job, entry ∈ (state.jobs.toList.filter fun entry =>
          id.toList.isPrefixOf entry.1.toList) → state.jobs[entry.1]? = some entry.2 :=
        fun entry member => (mem_starting.mp member).1
      generalize (state.jobs.toList.filter fun entry =>
        id.toList.isPrefixOf entry.1.toList) = entries at stored_of ⊢
      cases entries with
      | nil => rfl
      | cons entry rest =>
          cases rest with
          | nil => exact (stored_of entry List.mem_cons_self).symm
          | cons second others => rfl

end MaterializedState

namespace Handler

variable (outside : Outside)

def cancelOf (id : String) (key : JobId) : Handler (List Event) := do
  let job ← readState (·.jobs[key]?)
  let job ← require (.jobNotFound id) job
  cancelJob outside job

theorem handleJobCancel_leads {id : String} {key : JobId} {runtime : Runtime}
    (leads : runtime.world.state.Leads id key) :
    handleJobCancel outside id runtime = cancelOf outside id key runtime := by
  unfold handleJobCancel requireJob cancelOf readState
  rw [Program.run_bind, Program.run_bind, Program.run_read, Program.run_bind, Program.run_read]
  dsimp only
  rw [MaterializedState.getJob_leads leads, Program.run_bind]

end Handler

/-! ## Runs -/

/-- How the listener answers the request to cancel the job of an id. -/
inductive CancelAnswer where
  | cancelled
  | alreadyTerminal
  | notFound
  deriving DecidableEq, Repr

def MaterializedState.answerCancel (state : MaterializedState) (id : String) : CancelAnswer :=
  match (state.getJob id).map (!·.isTerminal) with
  | some true => .cancelled
  | some false => .alreadyTerminal
  | none => .notFound

/-- The engine, and the requests that were reported as cancelled and are still to be
processed, with the job that the listener found for each. -/
structure IdRun where
  runtime : Runtime
  cancels : List (String × JobId)

inductive IdStep where
  /-- The listener answers a request for one id, and reports it as cancelled or not. -/
  | request (id : String)
  /-- The engine processes the oldest of the requests. -/
  | cancel
  | process (event : Event)
  /-- Anything else that happens beside. -/
  | other (change : Runtime → Runtime)

namespace IdRun

variable (outside : Outside) (others : OtherHandlers)

def next (run : IdRun) : IdStep → IdRun
  | .request id =>
      match run.runtime.world.state.answerCancel id with
      | .cancelled => { run with
          cancels := run.cancels ++
            ((run.runtime.world.state.getJobKey id).map fun key => (id, key)).toList }
      | _ => run
  | .cancel =>
      match run.cancels with
      | [] => run
      | (id, _) :: rest =>
          { runtime := (Handler.processEvent outside (others.withJobs outside) (.jobCancel id)
              run.runtime).2
            cancels := rest }
  | .process event => { run with
      runtime := (Handler.processEvent outside (others.withJobs outside) event run.runtime).2 }
  | .other change => { run with runtime := change run.runtime }

/-- The step is exact: a request acts on the job that the listener found, and an event that
names no job that is there changes none. -/
def Exact (run : IdRun) : IdStep → Prop
  | .cancel => ∀ id key rest, run.cancels = (id, key) :: rest →
      Handler.processEvent outside (others.withJobs outside) (.jobCancel id) run.runtime =
        Handler.cancelOf outside id key (run.runtime.applying outside.order (.jobCancel id))
  | .process event => ∀ id, event.job? = some id → run.runtime.world.state.jobs[id]? = none →
      SameJobs run.runtime
        (Handler.processEvent outside (others.withJobs outside) event run.runtime).2
  | _ => True

/-- No lookup of the step goes astray: the text of a request still leads to the job that was
found; and where an event names no job that is there, its id is not the beginning of just one
other id, or it passes over the job of that id. -/
def Meets (run : IdRun) : IdStep → Prop
  | .cancel => ∀ id key rest, run.cancels = (id, key) :: rest →
      run.runtime.world.state.Leads id key
  | .process event => ∀ id, event.job? = some id → run.runtime.world.state.jobs[id]? = none →
      ∀ key job, run.runtime.world.state.BeginsOnly id key →
        run.runtime.world.state.jobs[key]? = some job → event.Passes outside run.runtime job
  | _ => True

def All (holds : IdRun → IdStep → Prop) : IdRun → List IdStep → Prop
  | _, [] => True
  | run, step :: steps => holds run step ∧ All holds (run.next outside others step) steps

variable {outside others} {run : IdRun}

/-- What a lookup finds that is not stored under its text. -/
theorem found_astray {state : MaterializedState} {id : String} {job : Job}
    (missing : state.jobs[id]? = none) (found : state.getJob id = some job) :
    ∃ key, state.BeginsOnly id key ∧ state.jobs[key]? = some job := by
  obtain ⟨key, named, stored⟩ := Option.bind_eq_some_iff.mp ((state.getJob_eq id).symm.trans found)
  refine ⟨key, ?_, stored⟩
  unfold MaterializedState.getJobKey at named
  rw [Table.contains_eq_isSome, missing] at named
  dsimp only [Option.isSome_none] at named
  rw [if_neg Bool.false_ne_true] at named
  split at named
  · rename_i entry filtered
    cases named
    exact MaterializedState.beginsOnly_of_starting filtered
  · cases named

theorem exact_of_meets {step : IdStep} (meets : run.Meets outside step) :
    run.Exact outside others step := by
  cases step with
  | request id => trivial
  | other change => trivial
  | cancel =>
      intro id key rest pending
      rw [Handler.processEvent_run]
      have leads : (run.runtime.applying outside.order (.jobCancel id)).world.state.Leads id key :=
        meets id key rest pending
      exact Handler.handleJobCancel_leads outside leads
  | process event =>
      intro id named missing
      refine Handler.processEvent_passes outside others named missing fun job found => ?_
      obtain ⟨key, only, stored⟩ := found_astray missing found
      exact meets id named missing key job only stored

/-- In every run in which no lookup goes astray, every step is exact. -/
theorem job_ids_exact (outside : Outside) (others : OtherHandlers) (run : IdRun)
    (steps : List IdStep) (meet : All outside others (fun run => run.Meets outside) run steps) :
    All outside others (fun run => run.Exact outside others) run steps := by
  induction steps generalizing run with
  | nil => trivial
  | cons step steps ih => exact ⟨exact_of_meets meet.1, ih _ meet.2⟩

/-! ## The exit of a shell that has no job -/

def built : Runbook where
  jobs := (∅ : HashMap JobDef).insert "build"
    { kind := "build"
      steps := [{ name := "compile", run := .shell "make" }] }

def building : IdRun where
  runtime := Runtime.idle built (({} : MaterializedState).replay (fun _ => .byKey)
    (fun _ => ⟨0, 0⟩) 0 [.runbookLoaded "hash" 1 .null,
      .jobCreated "job" "build" "build" "hash" "/" ∅ "compile" 0 "" none])
  cancels := []

/-- A command that has been run for an agent run exits: its event has the empty id, with which
every id begins.  The only job is completed. -/
theorem shell_without_job : ¬∀ (outside : Outside) (others : OtherHandlers) (run : IdRun)
    (steps : List IdStep), All outside others (fun run => run.Exact outside others) run steps := by
  intro exact_
  have same := (exact_ (.plain built) .silent building
    [.process (.shellExited "" "compile" 0 none none)]).1 "" rfl (by decide +kernel)
  have steps := congrArg (fun jobs : HashMap Job => (jobs["job"]?).map (·.step)) same
  exact absurd steps (by decide +kernel)

theorem building_jobs (key : JobId) :
    building.runtime.world.state.jobs.contains key = true ↔ key = "job" := by
  have keys : building.runtime.world.state.jobs.keys = ["job"] := by decide +kernel
  rw [← Std.ExtTreeMap.mem_iff_contains, ← Std.ExtTreeMap.mem_keys, keys, List.mem_singleton]

/-- The job is cancelled by the beginning of its id. -/
theorem building_cancelled : All (.plain built) .silent
    (fun run => run.Exact (.plain built) .silent) building
    [.request "jo", .cancel] := by
  refine job_ids_exact (.plain built) .silent building _ ⟨trivial, ?_, trivial⟩
  intro id key rest pending
  have one : (building.next (.plain built) .silent (.request "jo")).cancels = [("jo", "job")] := by
    decide +kernel
  rw [one] at pending
  cases pending
  change building.runtime.world.state.Leads "jo" "job"
  unfold MaterializedState.Leads
  rw [if_pos ((building_jobs "job").mpr rfl)]
  refine .inr ⟨by decide +kernel, fun other => ?_⟩
  rw [building_jobs]
  constructor
  · exact fun both => both.1
  · rintro rfl
    exact ⟨rfl, by decide⟩

end IdRun

end OddJobs
