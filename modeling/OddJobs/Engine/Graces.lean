import OddJobs.Engine.Timers
import OddJobs.Storage.Frames

/-!
# Grace periods

An agent that becomes idle is given a grace period.  How long its session log was is noted
on its owner, and a timer is set; while the note is there, further reports are taken for
duplicates.
-/

namespace OddJobs

open Library

def Timer.ownerIdleGrace : OwnerId → TimerId
  | .job id => idleGrace id
  | .agentRun id => idleGraceAgentRun id

/-- What is noted on an owner, if it is there: the size of the session log, or nothing. -/
def MaterializedState.grace (state : MaterializedState) : OwnerId → Option (Option Nat)
  | .job id => (state.jobs[id]?).map (·.idleGraceLogSize)
  | .agentRun id => (state.agentRuns[id]?).map (·.idleGraceLogSize)

namespace Handler

variable (outside : Outside)

/-! ## Handlers -/

def noteGrace (owner : OwnerId) (logSize : Option Nat) : Handler Unit :=
  match owner with
  | .job id => updateJobState id fun job => { job with idleGraceLogSize := logSize }
  | .agentRun id => updateRunState id fun run => { run with idleGraceLogSize := logSize }

/-- Record the size of the session log, and set the grace timer. -/
def beginGrace (agentId : AgentId) (owner : OwnerId) : Handler (List Event) := do
  let reading ← nextReading
  noteGrace owner (some (reading.sessionLogSize agentId))
  let _ ← execute outside (.setTimer (Timer.ownerIdleGrace owner) reading.idleGraceMs)
  pure []

/-- Handle agent:idle from the notification hook: nothing is done at once, but a grace
timer is set, unless one is pending already. -/
def handleAgentIdleHook (agentId : AgentId) : Handler (List Event) := do
  let context ← getOwnerContext agentId
  match context with
  | .job job jobId =>
      if job.actionTracker.agentSignal.isSome || job.stepStatus.isWaiting then pure []
      else if job.idleGraceLogSize.isSome then pure []
      else beginGrace outside agentId (.job jobId)
  | .agentRun run runId =>
      if run.actionTracker.agentSignal.isSome || run.status == .waiting ||
          run.status == .escalated then pure []
      else if run.idleGraceLogSize.isSome then pure []
      else beginGrace outside agentId (.agentRun runId)
  | .skip => pure []
  | .unknown => pure []

/-- Whether a standalone agent has written to its log since, or is at work. -/
def runActive (run : AgentRun) : Handler Bool :=
  match run.agentId with
  | none => pure false
  | some agentId => do
      let logged ← nextReading
      let observed ← nextReading
      pure (decide (run.idleGraceLogSize.getD 0 < logged.sessionLogSize agentId) ||
        observed.agentState agentId == some .working)

def proceedRunIdle (runId : AgentRunId) : Handler (List Event) := do
  let run ← readState (·.agentRuns[runId]?)
  match run with
  | none => pure []
  | some run => do
      let runbook ← cachedRunbook outside run.runbookHash
      let agentDef ← require (.agentNotFound run.agentName) (runbook.getAgent run.agentName)
      handleStandaloneMonitorState outside run agentDef .waitingForInput

def handleAgentRunIdleGraceTimer (runId : AgentRunId) : Handler (List Event) := do
  let run ← readState (·.agentRuns[runId]?)
  match run with
  | none => pure []
  | some run =>
      if run.status.isTerminal || run.status == .escalated || run.status == .waiting then do
        noteGrace (.agentRun runId) none
        pure []
      else do
        let active ← runActive run
        noteGrace (.agentRun runId) none
        if active then pure [] else proceedRunIdle outside runId

def handleGraceTimer : OwnerId → Handler (List Event)
  | .job id => handleIdleGraceTimer outside id
  | .agentRun id => handleAgentRunIdleGraceTimer outside id

end Handler

/-! ## What leaves the graces alone -/

/-- What is noted on the owners is as it was, and their grace timers are set as they were. -/
structure SameGraces (before after : Runtime) : Prop where
  notes : ∀ owner, after.world.state.grace owner = before.world.state.grace owner
  timers : ∀ owner, after.world.timers.contains (Timer.ownerIdleGrace owner) =
    before.world.timers.contains (Timer.ownerIdleGrace owner)

theorem closed_sameGraces : Closed SameGraces where
  refl := fun _ => ⟨fun _ => rfl, fun _ => rfl⟩
  trans := fun first second =>
    ⟨fun owner => (second.notes owner).trans (first.notes owner),
      fun owner => (second.timers owner).trans (first.timers owner)⟩

theorem Timer.spared_grace : Spared "idle-grace:" where
  long := by decide
  apart := by
    intro start member
    simp only [KINDS, List.mem_cons, List.not_mem_nil, or_false] at member
    rcases member with rfl | rfl | rfl | rfl | rfl | rfl | rfl <;> exact ⟨by decide, by decide⟩

theorem Timer.ofKind_ownerIdleGrace (owner : OwnerId) :
    OfKind "idle-grace:" (ownerIdleGrace owner) := by
  cases owner with
  | job id => exact ofKind_append _ _
  | agentRun id =>
      have split : ownerIdleGrace (.agentRun id) = "idle-grace:" ++ ("ar:" ++ id) := by
        rw [← String.append_assoc]
        rfl
      rw [split]
      exact ofKind_append _ _

/-- An event that brings or removes no owner changes none of the notes. -/
theorem MaterializedState.grace_applyEvent (order : WalkOrder) (clock : Clock)
    (state : MaterializedState) {event : Event} (stays : event.bringsOwner = false)
    (owner : OwnerId) : (state.applyEvent order clock event).grace owner = state.grace owner := by
  cases owner with
  | agentRun id =>
      have still : event.movesRun = false := by
        cases event with
        | agentRunCreated | agentRunDeleted => cases stays
        | _ => rfl
      exact (applyEvent_sameGrace order clock state still).map_eq (fun _ _ same => same) id
  | job id =>
      change ((state.applyEvent order clock event).jobs[id]?).map _ = (state.jobs[id]?).map _
      cases moves : event.movesJob with
      | false =>
          exact (applyEvent_sameHistory order clock state moves).map_eq
            (fun _ _ same => same.grace) id
      | true =>
          cases event with
          | jobAdvanced other step =>
              change ((state.applyJobAdvanced clock other step).jobs[id]?).map _ = _
              rw [lookup_applyJobAdvanced]
              split
              · rw [Option.map_map]
                refine Option.map_congr fun job _ => ?_
                dsimp only [Function.comp_apply]
                split
                · rfl
                · rw [Job.applyAdvanced_eq]
              · rfl
          | jobCreated | jobDeleted => cases stays
          | _ => cases moves

abbrev graceless : Bounds := .sparing (fun event => event.bringsOwner = false) "idle-grace:"

/-- What changes neither the jobs nor the agent runs, nor the timers. -/
theorem SameGraces.of_owners {before after : Runtime}
    (jobs : after.world.state.jobs = before.world.state.jobs)
    (runs : after.world.state.agentRuns = before.world.state.agentRuns)
    (timers : after.world.timers = before.world.timers) : SameGraces before after where
  notes := by
    intro owner
    cases owner with
    | job id =>
        change (after.world.state.jobs[id]?).map _ = _
        rw [jobs]
        rfl
    | agentRun id =>
        change (after.world.state.agentRuns[id]?).map _ = _
        rw [runs]
        rfl
  timers := by
    intro owner
    rw [timers]

theorem blind_sameGraces (outside : Outside) : Blind graceless outside SameGraces where
  toClosed := closed_sameGraces
  aside := by
    intro before after aside
    refine ⟨fun owner => ?_, fun owner => ?_⟩
    · rw [aside.state]
    · rw [aside.timers]
  event := fun stays runtime =>
    ⟨fun owner => runtime.world.state.grace_applyEvent outside.order _ stays owner, fun _ => rfl⟩
  cleaning := fun _ _ => .of_owners rfl rfl rfl
  timers := by
    intro runtime timers same
    refine ⟨fun _ => rfl, fun owner => ?_⟩
    have own := same _ (not_not.mpr (Timer.ofKind_ownerIdleGrace owner))
    change timers.contains _ = _
    rw [Table.contains_eq_isSome, own, ← Table.contains_eq_isSome]
  settles := fun _ _ never => never.elim
  memory := fun _ _ _ => .of_owners rfl rfl rfl
  retries := fun _ _ =>
    ((((Timer.spared_grace.apart "queue-retry:" (by decide)).append _).append _).append
      _).not_ofKind Timer.spared_grace.long
  settling := by
    intro id step _ event settles
    cases event with
    | queueCompleted | queueFailed | queueItemDead => rfl
    | _ => exact False.elim settles

theorem course_sameGraces (outside : Outside) : Course graceless outside SameGraces :=
  (blind_sameGraces outside).course

/-! ## Notes -/

/-- A job that is changed in what is not noted. -/
theorem SameGraces.updateJob (runtime : Runtime) (id : JobId) {update : Job → Job}
    (same : ∀ job, (update job).idleGraceLogSize = job.idleGraceLogSize) :
    SameGraces runtime { runtime with world := { runtime.world with
      state := runtime.world.state.updateJob id update } } where
  notes := by
    intro owner
    cases owner with
    | agentRun other => rfl
    | job other =>
        change ((runtime.world.state.updateJob id update).jobs[other]?).map _ =
          (runtime.world.state.jobs[other]?).map _
        rw [MaterializedState.lookup_updateJob]
        split
        · rw [Option.map_map]
          exact Option.map_congr fun job _ => same job
        · rfl
  timers := fun _ => rfl

theorem SameGraces.updateRun (id : AgentRunId) {update : AgentRun → AgentRun}
    (same : ∀ run, (update run).idleGraceLogSize = run.idleGraceLogSize) :
    Program.Moves SameGraces (Handler.updateRunState id update) := by
  refine fun runtime => ⟨fun owner => ?_, fun _ => rfl⟩
  cases owner with
  | job other => rfl
  | agentRun other =>
      change ((runtime.world.state.agentRuns.modify id update)[other]?).map _ =
        (runtime.world.state.agentRuns[other]?).map _
      rw [Table.lookup_modify]
      split
      · rw [Option.map_map]
        exact Option.map_congr fun run _ => same run
      · rfl

theorem acting_sameGraces (outside : Outside) : Acting graceless outside SameGraces :=
  acting_sparing Timer.spared_grace (fun _ stays => stays) (course_sameGraces outside)
    fun runtime id _ => .updateJob runtime id fun _ => rfl

theorem alone_sameGraces (outside : Outside) : ActingAlone graceless outside SameGraces :=
  alone_sparing Timer.spared_grace (fun _ stays => stays) (course_sameGraces outside)
    fun id _ => .updateRun id fun _ => rfl

namespace Handler

/-- Something is noted on one owner, if it is there. -/
theorem noteGrace_grace (owner : OwnerId) (logSize : Option Nat) (runtime : Runtime)
    (other : OwnerId) :
    (noteGrace owner logSize runtime).2.world.state.grace other =
      if owner = other then (runtime.world.state.grace owner).map fun _ => logSize
      else runtime.world.state.grace other := by
  cases owner with
  | job id =>
      cases other with
      | agentRun otherId => rfl
      | job otherId =>
          change ((runtime.world.state.updateJob id _).jobs[otherId]?).map _ =
            if _ then ((runtime.world.state.jobs[id]?).map _).map _ else _
          rw [MaterializedState.lookup_updateJob]
          rcases Decidable.em (id = otherId) with rfl | apart
          · rw [if_pos rfl, if_pos rfl, Option.map_map, Option.map_map]
            rfl
          · rw [if_neg apart, if_neg fun same => apart (OwnerId.job.inj same)]
            rfl
  | agentRun id =>
      cases other with
      | job otherId => rfl
      | agentRun otherId =>
          change ((runtime.world.state.agentRuns.modify id _)[otherId]?).map _ =
            if _ then ((runtime.world.state.agentRuns[id]?).map _).map _ else _
          rw [Table.lookup_modify]
          rcases Decidable.em (id = otherId) with rfl | apart
          · rw [if_pos rfl, if_pos rfl, Option.map_map, Option.map_map]
            rfl
          · rw [if_neg apart, if_neg fun same => apart (OwnerId.agentRun.inj same)]
            rfl

theorem noteGrace_timers (owner : OwnerId) (logSize : Option Nat) (runtime : Runtime) :
    (noteGrace owner logSize runtime).2.world.timers = runtime.world.timers := by
  cases owner with
  | job id => rfl
  | agentRun id => rfl

end Handler

/-! ## What the handlers make of the graces -/

/-- What the steps do to the graces: something is noted on one owner, and the timers are
carried on. -/
structure Notes (owner : OwnerId) (logSize : Option Nat) (timers : HashMap Nat → HashMap Nat)
    (before after : Runtime) : Prop where
  notes : ∀ other, after.world.state.grace other =
    if owner = other then (before.world.state.grace owner).map fun _ => logSize
    else before.world.state.grace other
  timers : ∀ other, after.world.timers.contains (Timer.ownerIdleGrace other) =
    (timers before.world.timers).contains (Timer.ownerIdleGrace other)

theorem Notes.follow {owner : OwnerId} {logSize : Option Nat} {timers : HashMap Nat → HashMap Nat}
    {before between after : Runtime} (notes : Notes owner logSize timers before between)
    (same : SameGraces between after) : Notes owner logSize timers before after where
  notes := fun other => (same.notes other).trans (notes.notes other)
  timers := fun other => (same.timers other).trans (notes.timers other)

def OwnerCtx.Found (agentId : AgentId) (runtime : Runtime) : OwnerCtx → Prop
  | .job found jobId => runtime.agentOwners[agentId]? = some (.job jobId) ∧
      runtime.world.state.getJob jobId = some found
  | .agentRun run runId => runtime.agentOwners[agentId]? = some (.agentRun runId) ∧
      runtime.world.state.agentRuns[runId]? = some run
  | .skip | .unknown => True

namespace Handler

variable (outside : Outside)

theorem beginGrace_notes (agentId : AgentId) (owner : OwnerId) (runtime : Runtime) :
    ∃ logSize firesAt, Notes owner (some logSize) (·.insert (Timer.ownerIdleGrace owner) firesAt)
      runtime (beginGrace outside agentId owner runtime).2 := by
  unfold beginGrace
  have reads : nextReading runtime = (.ok (runtime.readings 0), runtime.afterReading) := rfl
  rw [Program.bind_ok reads]
  cases owner with
  | job id => exact ⟨_, _, noteGrace_grace (.job id) _ runtime, fun _ => rfl⟩
  | agentRun id => exact ⟨_, _, noteGrace_grace (.agentRun id) _ runtime, fun _ => rfl⟩

/-- The owner of an agent is looked up. -/
theorem getOwnerContext_found (agentId : AgentId) (runtime : Runtime) :
    ∃ context, getOwnerContext agentId runtime = (.ok context, runtime) ∧
      context.Found agentId runtime := by
  unfold getOwnerContext
  rw [Program.run_bind, Program.run_read]
  dsimp only
  cases owned : runtime.agentOwners[agentId]? with
  | none => exact ⟨.unknown, rfl, trivial⟩
  | some owner =>
      cases owner with
      | job id =>
          dsimp only
          rw [readState, Program.run_bind, Program.run_read]
          dsimp only
          cases found : runtime.world.state.getJob id with
          | none => exact ⟨.unknown, rfl, trivial⟩
          | some job =>
              dsimp only
              split
              · exact ⟨.skip, rfl, trivial⟩
              · split
                · exact ⟨.skip, rfl, trivial⟩
                · exact ⟨.job job id, rfl, owned, found⟩
      | agentRun id =>
          dsimp only
          rw [readState, Program.run_bind, Program.run_read]
          dsimp only
          cases found : runtime.world.state.agentRuns[id]? with
          | none => exact ⟨.unknown, rfl, trivial⟩
          | some run =>
              dsimp only
              split
              · exact ⟨.skip, rfl, trivial⟩
              · split
                · exact ⟨.skip, rfl, trivial⟩
                · exact ⟨.agentRun run id, rfl, owned, found⟩

/-- A report is let pass, or the owner of the agent is given a grace period, where none has
begun. -/
theorem handleAgentIdleHook_notes (agentId : AgentId) (runtime : Runtime) :
    (handleAgentIdleHook outside agentId runtime).2 = runtime ∨
      ∃ owner logSize firesAt, runtime.agentOwners[agentId]? = some owner ∧
        (∀ noted, runtime.world.state.grace owner = some noted → noted = none) ∧
        Notes owner (some logSize) (·.insert (Timer.ownerIdleGrace owner) firesAt)
          runtime (handleAgentIdleHook outside agentId runtime).2 := by
  obtain ⟨context, looked, known⟩ := getOwnerContext_found agentId runtime
  unfold handleAgentIdleHook
  rw [Program.bind_ok looked]
  cases context with
  | skip => exact .inl rfl
  | unknown => exact .inl rfl
  | job job id =>
      obtain ⟨owned, found⟩ := known
      dsimp only
      split
      · exact .inl rfl
      split
      · exact .inl rfl
      · rename_i unnoted
        obtain ⟨logSize, firesAt, notes⟩ := beginGrace_notes outside agentId (.job id) runtime
        refine .inr ⟨.job id, logSize, firesAt, owned, fun noted own => ?_, notes⟩
        obtain ⟨stored, present, rfl⟩ := Option.map_eq_some_iff.mp own
        cases (MaterializedState.getJob_found present).symm.trans found
        exact Option.not_isSome_iff_eq_none.mp unnoted
  | agentRun run id =>
      obtain ⟨owned, found⟩ := known
      dsimp only
      split
      · exact .inl rfl
      split
      · exact .inl rfl
      · rename_i unnoted
        obtain ⟨logSize, firesAt, notes⟩ := beginGrace_notes outside agentId (.agentRun id) runtime
        refine .inr ⟨.agentRun id, logSize, firesAt, owned, fun noted own => ?_, notes⟩
        obtain ⟨stored, present, rfl⟩ := Option.map_eq_some_iff.mp own
        cases present.symm.trans found
        exact Option.not_isSome_iff_eq_none.mp unnoted

/-- An agent at work ends the grace period of its job. -/
theorem handleWorking_notes (job : Job) (runtime : Runtime) :
    Notes (.job job.id) none (·.erase (Timer.idleGrace job.id)) runtime
      (handleWorking outside job runtime).2 := by
  have course := course_sameGraces outside
  have closed := course.toClosed
  obtain ⟨middle, cancels, state, timers⟩ : ∃ middle : Runtime,
      execute outside (.cancelTimer (Timer.idleGrace job.id)) runtime = (.ok none, middle) ∧
        middle.world.state = runtime.world.state ∧
        middle.world.timers = runtime.world.timers.erase (Timer.idleGrace job.id) :=
    ⟨_, rfl, rfl, rfl⟩
  have clears : updateJobState job.id (fun job => { job with idleGraceLogSize := none }) middle =
      (.ok (), (noteGrace (.job job.id) none middle).2) := rfl
  unfold handleWorking
  rw [Program.bind_ok cancels, Program.bind_ok clears]
  refine @Notes.follow _ _ _ _ (noteGrace (.job job.id) none middle).2 _ ?_ ?_
  · refine ⟨fun other => ?_, fun other => ?_⟩
    · rw [noteGrace_grace, state]
    · rw [noteGrace_timers, timers]
  · generalize (noteGrace (.job job.id) none middle).2 = cleared
    split
    · refine Program.Moves.bind closed course.readClock_moves (fun clock => ?_) cleared
      split
      · exact Program.moves_pure closed _
      · refine Program.Moves.bind closed (fun runtime => .updateJob runtime job.id fun _ => rfl)
          fun _ => ?_
        exact (blind_sameGraces outside).emit_moves rfl
    · exact closed.refl cleared

theorem handleStandaloneWorking_notes (run : AgentRun) (runtime : Runtime) :
    Notes (.agentRun run.id) none (·.erase (Timer.idleGraceAgentRun run.id)) runtime
      (handleStandaloneWorking outside run runtime).2 := by
  have course := course_sameGraces outside
  have closed := course.toClosed
  obtain ⟨middle, cancels, state, timers⟩ : ∃ middle : Runtime,
      execute outside (.cancelTimer (Timer.idleGraceAgentRun run.id)) runtime = (.ok none, middle) ∧
        middle.world.state = runtime.world.state ∧
        middle.world.timers = runtime.world.timers.erase (Timer.idleGraceAgentRun run.id) :=
    ⟨_, rfl, rfl, rfl⟩
  have clears : updateRunState run.id (fun run => { run with idleGraceLogSize := none }) middle =
      (.ok (), (noteGrace (.agentRun run.id) none middle).2) := rfl
  unfold handleStandaloneWorking
  rw [Program.bind_ok cancels, Program.bind_ok clears]
  refine @Notes.follow _ _ _ _ (noteGrace (.agentRun run.id) none middle).2 _ ?_ ?_
  · refine ⟨fun other => ?_, fun other => ?_⟩
    · rw [noteGrace_grace, state]
    · rw [noteGrace_timers, timers]
  · generalize (noteGrace (.agentRun run.id) none middle).2 = cleared
    split
    · refine Program.Moves.bind closed course.readClock_moves (fun clock => ?_) cleared
      split
      · exact Program.moves_pure closed _
      · refine Program.Moves.bind closed (.updateRun run.id fun _ => rfl) fun _ => ?_
        exact (blind_sameGraces outside).emit_moves rfl
    · exact closed.refl cleared

theorem executeActionWithAttempts_sameGraces (job : Job) (context : ActionContext) :
    Program.Moves SameGraces (executeActionWithAttempts outside job context) := by
  intro runtime
  obtain ⟨attempts, counted⟩ := countAttempt_run job.id context.trigger context.chainPos runtime
  rw [executeActionWithAttempts, Program.bind_ok counted]
  have counts : SameGraces runtime { runtime with world := { runtime.world with
      state := runtime.world.state.updateJob job.id
        (·.incrementActionAttempt context.trigger context.chainPos) } } :=
    .updateJob runtime job.id fun _ => rfl
  exact closed_sameGraces.trans counts
    ((acting_sameGraces outside).afterCount_moves job context attempts _)

theorem executeStandaloneActionWithAttempts_sameGraces (run : AgentRun) (context : ActionContext) :
    Program.Moves SameGraces (executeStandaloneActionWithAttempts outside run context) := by
  have closed := closed_sameGraces
  unfold executeStandaloneActionWithAttempts countRunAttempt
  refine Program.Moves.bind closed ?_ fun attempts => ?_
  · refine Program.Moves.bind closed (.updateRun run.id fun _ => rfl) fun _ => ?_
    exact ((course_sameGraces outside).readState_moves _).bind closed fun _ =>
      Program.moves_pure closed _
  · split
    · exact (alone_sameGraces outside).executeStandaloneAction_moves run _
    · exact (alone_sameGraces outside).actStandaloneAfter_moves run context _

/-- The edges that a job takes out of its steps. -/
theorem advanceJob_sameGraces (job : Job) :
    Program.Moves SameGraces (advanceJob outside job) := by
  intro runtime
  have acting := acting_sameGraces outside
  have completes := (acting.routes job (.complete job.step)).2
  exact acting.advanceJob_moves (acting.covers job.id)
    (fun _ found _ => .inl (acting.covers found.id)) runtime (fun _ => completes)
    completes.completed fun _ _ => acting.routes job _

theorem failJob_sameGraces (job : Job) (error : String) :
    Program.Moves SameGraces (failJob outside job error) := by
  intro runtime
  have acting := acting_sameGraces outside
  exact acting.failJob_moves (acting.covers job.id)
    (fun _ found _ => .inl (acting.covers found.id)) runtime error fun _ _ => acting.routes job _

theorem cancelJob_sameGraces (job : Job) : Program.Moves SameGraces (cancelJob outside job) := by
  intro runtime
  have acting := acting_sameGraces outside
  exact acting.cancelJob_moves (acting.covers job.id)
    (fun _ found _ => .inl (acting.covers found.id)) runtime rfl fun _ _ => acting.routes job _

theorem assistantContext_sameGraces (job : Job) :
    Program.Moves SameGraces (assistantContext job) := by
  have closed := closed_sameGraces
  unfold assistantContext
  cases job.stepAgentId with
  | none => exact Program.moves_pure closed _
  | some agentId =>
      have reads : Program.Moves SameGraces nextReading := fun _ => .of_owners rfl rfl rfl
      exact reads.bind closed fun _ => Program.moves_pure closed _

theorem runAssistantContext_sameGraces (run : AgentRun) :
    Program.Moves SameGraces (runAssistantContext run) := by
  have closed := closed_sameGraces
  unfold runAssistantContext
  cases run.agentId with
  | none => exact Program.moves_pure closed _
  | some agentId =>
      have reads : Program.Moves SameGraces nextReading := fun _ => .of_owners rfl rfl rfl
      exact reads.bind closed fun _ => Program.moves_pure closed _

/-- What is done about an agent that is not at work. -/
theorem handleMonitorState_sameGraces (job : Job) (agentDef : AgentDef) {state : MonitorState}
    (rests : state ≠ .working) :
    Program.Moves SameGraces (handleMonitorState outside job agentDef state) := by
  have assists := assistantContext_sameGraces job
  have acts := executeActionWithAttempts_sameGraces outside job
  cases state with
  | working => exact absurd rfl rests
  | prompting promptType questionData assistant => exact acts _
  | waitingForInput | failed | exited | gone =>
      exact assists.bind closed_sameGraces fun assistant => acts _

theorem handleStandaloneMonitorState_sameGraces (run : AgentRun) (agentDef : AgentDef)
    {state : MonitorState} (rests : state ≠ .working) :
    Program.Moves SameGraces (handleStandaloneMonitorState outside run agentDef state) := by
  have assists := runAssistantContext_sameGraces run
  have acts := executeStandaloneActionWithAttempts_sameGraces outside run
  cases state with
  | working => exact absurd rfl rests
  | prompting promptType questionData assistant => exact acts _
  | waitingForInput | failed | exited | gone =>
      exact assists.bind closed_sameGraces fun assistant => acts _

theorem proceedIdle_sameGraces (jobId : JobId) :
    Program.Moves SameGraces (proceedIdle outside jobId) := by
  have course := course_sameGraces outside
  have closed := course.toClosed
  unfold proceedIdle
  refine (course.readState_moves _).bind closed fun job => ?_
  cases job with
  | none => exact Program.moves_pure closed _
  | some job =>
      refine (course.cachedRunbook_moves _).bind closed fun runbook => ?_
      cases getAgentDef runbook job with
      | none => exact Program.moves_pure closed _
      | some agentDef =>
          have idle : MonitorState.waitingForInput ≠ .working := MonitorState.noConfusion
          exact handleMonitorState_sameGraces outside job agentDef idle

theorem proceedRunIdle_sameGraces (runId : AgentRunId) :
    Program.Moves SameGraces (proceedRunIdle outside runId) := by
  have course := course_sameGraces outside
  have closed := course.toClosed
  unfold proceedRunIdle
  refine (course.readState_moves _).bind closed fun run => ?_
  cases run with
  | none => exact Program.moves_pure closed _
  | some run =>
      refine (course.cachedRunbook_moves _).bind closed fun runbook => ?_
      refine (course.require_moves _ _).bind closed fun agentDef => ?_
      have idle : MonitorState.waitingForInput ≠ .working := MonitorState.noConfusion
      exact handleStandaloneMonitorState_sameGraces outside run agentDef idle

/-- Nothing is noted on an owner that is not there. -/
theorem notes_missing {owner : OwnerId} {runtime : Runtime} (logSize : Option Nat)
    (missing : runtime.world.state.grace owner = none) :
    Notes owner logSize id runtime runtime where
  notes := by
    intro other
    split
    · rename_i own
      rw [← own, missing]
      rfl
    · rfl
  timers := fun _ => rfl

theorem notes_noteGrace (owner : OwnerId) (logSize : Option Nat) {before between : Runtime}
    (world : between.world = before.world) :
    Notes owner logSize id before (noteGrace owner logSize between).2 where
  notes := by
    intro other
    rw [noteGrace_grace, world]
  timers := by
    intro other
    rw [noteGrace_timers, world]
    rfl

theorem runActive_run (run : AgentRun) (runtime : Runtime) :
    ∃ (active : Bool) (after : Runtime), after.world = runtime.world ∧
      runActive run runtime = (.ok active, after) := by
  unfold runActive
  cases run.agentId with
  | none => exact ⟨false, runtime, rfl, rfl⟩
  | some agentId => exact ⟨_, runtime.afterReading.afterReading, rfl, rfl⟩

/-- What a fired timer has left noted is cleared, whatever follows. -/
theorem handleGraceTimer_notes (owner : OwnerId) (runtime : Runtime) :
    Notes owner none id runtime (handleGraceTimer outside owner runtime).2 := by
  cases owner with
  | job jobId =>
      change Notes _ none id runtime (handleIdleGraceTimer outside jobId runtime).2
      unfold handleIdleGraceTimer
      rw [readState, Program.run_bind, Program.run_read]
      dsimp only
      cases found : runtime.world.state.getJob jobId with
      | none =>
          refine notes_missing none ?_
          cases present : runtime.world.state.jobs[jobId]? with
          | none => exact congrArg (Option.map _) present
          | some job => cases (MaterializedState.getJob_found present).symm.trans found
      | some job =>
          dsimp only
          split
          · exact notes_noteGrace (.job jobId) none rfl
          · obtain ⟨after, world, _, ran⟩ := agentActive_run job runtime
            have clears : clearGrace jobId after = (.ok (), (noteGrace (.job jobId) none after).2) :=
              rfl
            rw [Program.bind_ok ran, Program.bind_ok clears]
            refine (notes_noteGrace (.job jobId) none world).follow ?_
            split
            · exact closed_sameGraces.refl _
            · exact proceedIdle_sameGraces outside jobId _
  | agentRun runId =>
      change Notes _ none id runtime (handleAgentRunIdleGraceTimer outside runId runtime).2
      unfold handleAgentRunIdleGraceTimer
      rw [readState, Program.run_bind, Program.run_read]
      dsimp only
      cases found : runtime.world.state.agentRuns[runId]? with
      | none => exact notes_missing none (congrArg (Option.map _) found)
      | some run =>
          dsimp only
          split
          · exact notes_noteGrace (.agentRun runId) none rfl
          · obtain ⟨active, after, world, ran⟩ := runActive_run run runtime
            have clears : noteGrace (.agentRun runId) none after =
                (.ok (), (noteGrace (.agentRun runId) none after).2) := rfl
            rw [Program.bind_ok ran, Program.bind_ok clears]
            refine (notes_noteGrace (.agentRun runId) none world).follow ?_
            split
            · exact closed_sameGraces.refl _
            · exact proceedRunIdle_sameGraces outside runId _

/-- The cleanup after a job leaves the graces alone, but for the timers of the job. -/
theorem handleJobDeleted_graces (jobId : JobId) (runtime : Runtime) :
    SameGraces { runtime with world := { runtime.world with
        timers := Timer.without jobId runtime.world.timers } }
      (handleJobDeleted outside jobId runtime).2 := by
  have course := course_sameGraces outside
  have closed := course.toClosed
  have tries : ∀ effects : List Effect, (∀ effect ∈ effects, effect.Within graceless) →
      Program.Moves SameGraces (Program.forEach (tryEffect outside) effects) :=
    fun effects within => Program.Moves.forEach closed fun effect member =>
      (alone_sameGraces outside).tryEffect_moves (within effect member)
  have cancels : cancelJobTimers jobId runtime = (.ok (), { runtime with world := { runtime.world with
      timers := Timer.without jobId runtime.world.timers } }) := rfl
  unfold handleJobDeleted
  rw [Program.run_bind, readState, Program.run_read]
  dsimp only
  rw [Program.bind_ok cancels]
  cases runtime.world.state.getJob jobId with
  | none => exact closed.refl _
  | some job =>
      have covers := @sparing_covers _ _ Timer.spared_grace (fun _ stays => stays) job.id
      have cleanups : Program.Moves SameGraces (do
          let cleanup ← workspaceCleanupEffects outside job
          Program.forEach (tryEffect outside) cleanup
          pure [] : Handler (List Event)) := by
        refine (course.workspaceCleanupEffects_moves job).bindOf closed
          fun before cleanup after ran => ?_
        have within := Course.workspaceCleanupEffects_within covers.removed ran
        exact ((tries cleanup within).bind closed fun _ => Program.moves_pure closed _) after
      refine ((Program.Moves.forEach closed fun agentId _ => course.deregisterAgent_moves agentId).bind
        closed fun _ => ?_) _
      refine (Program.Moves.forEach closed fun agentId _ => ?_).bind closed fun _ => ?_
      · have kill : (Effect.killAgent agentId).Within graceless := trivial
        exact (alone_sameGraces outside).tryEffect_moves kill
      · exact (tries _ (Course.sessionEffects_within covers.serves)).bind closed fun _ => cleanups

end Handler

end OddJobs
