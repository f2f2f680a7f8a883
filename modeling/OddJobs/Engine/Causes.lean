import OddJobs.Engine.Handlers
import OddJobs.Library.Moves
import OddJobs.Storage.Frames

/-!
# Causes of failure and cancellation

A job ends by two events: it is advanced to a terminal step, and the step that it was in
is failed with the cause.  The record of the step is finished by the first of them.
-/

namespace OddJobs

open Library

def Job.blame (job : Job) : String × Option String × List StepRecord :=
  (job.step, job.error, job.stepHistory)

namespace MaterializedState

def standing (state : MaterializedState) (id : JobId) :
    Option (String × Option String × List StepRecord) :=
  (state.jobs[id]?).map Job.blame

theorem standing_sessionDeleted (order : WalkOrder) (clock : Clock) (sessionId : SessionId)
    (state : MaterializedState) (id : JobId) :
    (state.applyEvent order clock (.sessionDeleted sessionId)).standing id = state.standing id := by
  change ((state.jobs.map fun _ job =>
    if job.sessionId = some sessionId then { job with sessionId := none } else job)[id]?).map _ = _
  rw [Table.lookup_map, Option.map_map]
  refine Option.map_congr fun job _ => ?_
  rw [Function.comp_apply]
  split
  · rfl
  · rfl

end MaterializedState

namespace Steps

def endingEffects (job : Job) (step error : String) : List Effect :=
  cancelTimerEffects job ++
    [.emit (.jobAdvanced job.id step), .emit (.stepFailed job.id job.step error)] ++
    sessionEffects job

theorem cancellationEffects_eq {job : Job} (runs : job.isTerminal = false) :
    cancellationEffects job = endingEffects job "cancelled" "cancelled" := by
  unfold cancellationEffects endingEffects
  rw [runs]
  rfl

/-- After effects that were carried out come the others. -/
theorem executeAll_append_state (order : WalkOrder) {early : List Effect} (late : List Effect)
    {world middle : World} {events : List Event}
    (ran : Executor.executeAll order early world = (.ok events, middle)) :
    (Executor.executeAll order (early ++ late) world).2 =
      (Executor.executeAll order late middle).2 := by
  induction early generalizing world events with
  | nil =>
      cases ran
      rfl
  | cons effect rest ih =>
      rw [Executor.executeAll] at ran
      obtain ⟨event, between, first, after⟩ := Program.bind_eq_ok.mp ran
      obtain ⟨others, last, second, done⟩ := Program.bind_eq_ok.mp after
      cases done
      rw [List.cons_append, Executor.executeAll, Program.run_bind, first]
      exact (Program.bind_pure_state _ _ between).trans (ih second)

def Stands (id : JobId) (before after : World) : Prop :=
  after.state.standing id = before.state.standing id

theorem stands_closed (id : JobId) : Closed (Stands id) where
  refl := fun _ => rfl
  trans := fun first second => second.trans first

/-- The session of a job is killed without regard to where jobs stand. -/
theorem sessionEffects_stands (order : WalkOrder) (job : Job) (id : JobId) :
    Program.Moves (Stands id) (Executor.executeAll order (sessionEffects job)) := by
  have closed := stands_closed id
  unfold sessionEffects
  cases job.sessionId with
  | none => exact Program.moves_pure closed _
  | some sessionId =>
      have killed : Program.Moves (Stands id)
          (Executor.execute order (.killSession sessionId)) := by
        refine Program.Moves.bind closed (fun _ => rfl) fun reply => ?_
        refine Program.Moves.bind closed (fun _ => rfl) fun _ => ?_
        split
        · exact Program.moves_throw closed _
        · exact Program.moves_pure closed _
      have deleted : Program.Moves (Stands id)
          (Executor.execute order (.emit (.sessionDeleted sessionId))) := fun world =>
        MaterializedState.standing_sessionDeleted order (world.clocks 0) sessionId world.state id
      refine killed.bind closed fun _ => ?_
      refine Program.Moves.bind closed (deleted.bind closed fun _ => ?_) fun _ => ?_
      · exact Program.moves_pure closed _
      · exact Program.moves_pure closed _

/-- The two events are applied, whatever becomes of the session. -/
theorem standing_endingEffects (order : WalkOrder) (job : Job) (step error : String)
    (world : World) (id : JobId) :
    ((Executor.executeAll order (endingEffects job step error) world).2.state).standing id =
      ((world.state.applyEvent order (world.clocks 0) (.jobAdvanced job.id step)).applyEvent order
        (world.clocks 1) (.stepFailed job.id job.step error)).standing id := by
  unfold endingEffects
  rw [executeAll_append_state order (sessionEffects job) rfl]
  exact sessionEffects_stands order job id _

end Steps

/-! ## What is recorded -/

def StepRecord.closed (epochMs : Nat) (outcome : StepOutcome) (record : StepRecord) : StepRecord :=
  { record with
    finishedAtMs := some epochMs
    outcome }

def EndsBadly (step : String) : Prop := step = "failed" ∨ step = "cancelled"

theorem EndsBadly.terminal {step : String} (ends : EndsBadly step) : isTerminalStep step = true := by
  rcases ends with rfl | rfl
  · rfl
  · rfl

/-- A job is advanced to a terminal step: its record gets the error that the job
has, and the error that follows comes too late for it. -/
theorem Job.blame_ended (job : Job) {step : String} (ends : EndsBadly step) (error : String)
    (epochMs later : Nat) :
    ((job.applyAdvanced epochMs step).applyStepFailed later error).blame =
      (step, some error, updateOpenRecord
        (StepRecord.closed epochMs (.failed (job.error.getD ""))) job.stepHistory) := by
  have outcome : job.advanceOutcome step = .failed (job.error.getD "") := if_pos ends
  have history : (job.applyAdvanced epochMs step).stepHistory = updateOpenRecord
      (StepRecord.closed epochMs (.failed (job.error.getD ""))) job.stepHistory := by
    rw [Job.applyAdvanced_eq, outcome]
    dsimp only
    rw [if_pos ends.terminal, List.append_nil]
    rfl
  have twice := updateOpenRecord_twice (StepRecord.closed epochMs (.failed (job.error.getD "")))
    (StepRecord.closed later (.failed error)) job.stepHistory fun _ opened => by cases opened
  have finished : ((job.applyAdvanced epochMs step).applyStepFailed later error).stepHistory =
      updateOpenRecord (StepRecord.closed later (.failed error))
        (job.applyAdvanced epochMs step).stepHistory := rfl
  have entered : ((job.applyAdvanced epochMs step).applyStepFailed later error).step = step := by
    rw [Job.applyAdvanced_eq]
    rfl
  unfold Job.blame
  rw [finished, history, twice, entered]
  rfl

/-- The same of the state. -/
theorem MaterializedState.standing_ended (order : WalkOrder) (clock later : Clock)
    {state : MaterializedState} {job : Job} (present : state.jobs[job.id]? = some job)
    (runs : job.isTerminal = false) {step : String} (ends : EndsBadly step) (error : String) :
    ((state.applyEvent order clock (.jobAdvanced job.id step)).applyEvent order later
        (.stepFailed job.id job.step error)).standing job.id =
      some (step, some error, updateOpenRecord
        (StepRecord.closed clock.epochMs (.failed (job.error.getD ""))) job.stepHistory) := by
  have moves : job.advanceSkipped step = false := by
    have differs : job.step ≠ step := by
      intro same
      have terminal := ends.terminal
      rw [← same] at terminal
      exact absurd (runs.symm.trans terminal) Bool.false_ne_true
    rw [Job.advanceSkipped, beq_false_of_ne differs, Bool.false_and]
  have advanced : (state.applyEvent order clock (.jobAdvanced job.id step)).jobs[job.id]? =
      some (job.applyAdvanced clock.epochMs step) := by
    refine (MaterializedState.lookup_applyJobAdvanced clock job.id job.id step state).trans ?_
    rw [if_pos rfl, present, Option.map_some, moves]
    rfl
  have failed := MaterializedState.lookup_updateJob
    (state.applyEvent order clock (.jobAdvanced job.id step)) job.id job.id
    (Job.applyStepFailed later.epochMs error)
  rw [if_pos rfl, advanced] at failed
  exact (congrArg (Option.map Job.blame) failed).trans
    (congrArg some (job.blame_ended ends error clock.epochMs later.epochMs))

/-- The record of the step that the job was in is finished with the failure. -/
def ClosedAs (error : String) (before after : List StepRecord) : Prop :=
  ∃ earlier record closed, before = earlier ++ [record] ∧ after = earlier ++ [closed] ∧
    closed.name = record.name ∧ closed.finishedAtMs.isSome = true ∧ closed.outcome = .failed error

/-- An open record is closed with the outcome; a closed one keeps its own. -/
theorem closedAs_iff {earlier : List StepRecord} {record : StepRecord} (epochMs : Nat)
    (text error : String) :
    ClosedAs error (earlier ++ [record]) (updateOpenRecord
        (StepRecord.closed epochMs (.failed text)) (earlier ++ [record])) ↔
      (record.finishedAtMs = none ∧ text = error) ∨
        (record.finishedAtMs ≠ none ∧ record.outcome = .failed error) := by
  rw [updateOpenRecord_concat]
  cases finished : record.finishedAtMs with
  | none =>
      constructor
      · rintro ⟨_, _, closed, _, after, _, _, outcome⟩
        obtain ⟨_, same⟩ := List.append_inj' after rfl
        cases same
        exact .inl ⟨rfl, StepOutcome.failed.inj outcome⟩
      · rintro (⟨_, rfl⟩ | ⟨never, _⟩)
        · exact ⟨_, _, _, rfl, rfl, rfl, rfl, rfl⟩
        · exact absurd rfl never
  | some epochMs =>
      constructor
      · rintro ⟨_, _, closed, _, after, _, _, outcome⟩
        obtain ⟨_, same⟩ := List.append_inj' after rfl
        cases same
        exact .inr ⟨Option.some_ne_none _, outcome⟩
      · rintro (⟨never, _⟩ | ⟨_, outcome⟩)
        · cases never
        · refine ⟨_, _, record, rfl, rfl, rfl, ?_, outcome⟩
          rw [finished]
          rfl

section

variable (order : WalkOrder) (job : Job) (world : World)

/-- Once `failure_effects` were executed, the job has failed with the error, and so has
its step. -/
def FailureRecorded (error : String) : Prop :=
  ∃ after, (Executor.executeAll order (Steps.failureEffects job error) world).2.state.jobs[job.id]? =
      some after ∧ after.step = "failed" ∧ after.error = some error ∧
    ClosedAs error job.stepHistory after.stepHistory

/-- Once `cancellation_effects` were executed, the job is cancelled, and so is its step. -/
def CancellationRecorded : Prop :=
  ∃ after, (Executor.executeAll order (Steps.cancellationEffects job) world).2.state.jobs[job.id]? =
      some after ∧ after.step = "cancelled" ∧
    ClosedAs "cancelled" job.stepHistory after.stepHistory

end

variable {order : WalkOrder} {job : Job} {world : World}

/-- Where a running job stands when its end has been carried out. -/
theorem standing_carriedOut (present : world.state.jobs[job.id]? = some job)
    (runs : job.isTerminal = false) {step : String} (ends : EndsBadly step) (error : String) :
    ∃ after epochMs, (Executor.executeAll order (Steps.endingEffects job step error)
        world).2.state.jobs[job.id]? = some after ∧ after.step = step ∧ after.error = some error ∧
      after.stepHistory = updateOpenRecord
        (StepRecord.closed epochMs (.failed (job.error.getD ""))) job.stepHistory := by
  have stands := Steps.standing_endingEffects order job step error world job.id
  rw [MaterializedState.standing_ended order _ _ present runs ends] at stands
  obtain ⟨after, found, standing⟩ := Option.map_eq_some_iff.mp stands
  obtain ⟨entered, rest⟩ := Prod.mk.inj standing
  obtain ⟨caused, history⟩ := Prod.mk.inj rest
  exact ⟨after, (world.clocks 0).epochMs, found, entered, caused, history⟩

/-- An open record that is finished with the text does not say anything else. -/
theorem not_closedAs {earlier : List StepRecord} {record : StepRecord}
    (opened : record.finishedAtMs = none) {text error : String} (differs : text ≠ error)
    (epochMs : Nat) : ¬ClosedAs error (earlier ++ [record]) (updateOpenRecord
      (StepRecord.closed epochMs (.failed text)) (earlier ++ [record])) := by
  rw [closedAs_iff]
  rintro (⟨_, same⟩ | ⟨never, _⟩)
  · exact differs same
  · exact absurd opened never

/-- A job at its first step, with the error of an earlier attempt or none. -/
def Job.planned (error : Option String) : Job :=
  { Job.newWithEpochMs ⟨"j", "build", "build", ∅, "hash", "/", "plan", "", none⟩ 0 0 with error }

def World.planned (error : Option String) : World :=
  (Runtime.idle {} { jobs := (∅ : HashMap Job).insert "j" (.planned error) }).world

theorem World.planned_present (error : Option String) :
    (World.planned error).state.jobs[(Job.planned error).id]? = some (.planned error) := by
  change ((∅ : HashMap Job).insert "j" (.planned error))["j"]? = _
  rw [Table.lookup_insert, if_pos rfl]

/-- The first failure of a job, and its cancellation, leave no cause in its record. -/
theorem failure_without_cause :
    ¬FailureRecorded .byKey (.planned none) (.planned none) "disk full" ∧
      ¬CancellationRecorded .byKey (.planned none) (.planned none) := by
  have present := World.planned_present none
  constructor
  · rintro ⟨after, found, _, _, closed⟩
    obtain ⟨other, epochMs, found', _, _, history⟩ :=
      @standing_carriedOut .byKey _ _ present rfl "failed" (.inl rfl) "disk full"
    cases found.symm.trans found'
    rw [history] at closed
    exact @not_closedAs [] _ rfl "" "disk full" (by decide) epochMs closed
  · rintro ⟨after, found, _, closed⟩
    obtain ⟨other, epochMs, found', _, _, history⟩ :=
      @standing_carriedOut .byKey _ _ present rfl "cancelled" (.inr rfl) "cancelled"
    rw [Steps.cancellationEffects_eq rfl] at found
    cases found.symm.trans found'
    rw [history] at closed
    exact @not_closedAs [] _ rfl "" "cancelled" (by decide) epochMs closed

/-- The cause of a failure reaches the record of the step exactly when the job had that
error before, or the record was already finished with it; the same for a cancellation. -/
theorem cause_recorded_iff (present : world.state.jobs[job.id]? = some job)
    (runs : job.isTerminal = false) {earlier : List StepRecord} {record : StepRecord}
    (recorded : job.stepHistory = earlier ++ [record]) (error : String) :
    (FailureRecorded order job world error ↔
      (record.finishedAtMs = none ∧ job.error.getD "" = error) ∨
        (record.finishedAtMs ≠ none ∧ record.outcome = .failed error)) ∧
    (record.finishedAtMs = none →
      (CancellationRecorded order job world ↔ job.error.getD "" = "cancelled")) := by
  constructor
  · obtain ⟨after, epochMs, found, entered, caused, history⟩ :=
      @standing_carriedOut order job world present runs "failed" (.inl rfl) error
    rw [← closedAs_iff epochMs, ← recorded, ← history]
    constructor
    · rintro ⟨other, found', _, _, closed⟩
      cases found.symm.trans found'
      exact closed
    · exact fun closed => ⟨after, found, entered, caused, closed⟩
  · intro opened
    obtain ⟨after, epochMs, found, entered, caused, history⟩ :=
      @standing_carriedOut order job world present runs "cancelled" (.inr rfl) "cancelled"
    have closes := @closedAs_iff earlier record epochMs (job.error.getD "") "cancelled"
    rw [← recorded, ← history] at closes
    have exactly : ClosedAs "cancelled" job.stepHistory after.stepHistory ↔
        job.error.getD "" = "cancelled" := by
      rw [closes]
      constructor
      · rintro (⟨_, same⟩ | ⟨never, _⟩)
        · exact same
        · exact absurd opened never
      · exact fun same => .inl ⟨opened, same⟩
    rw [← exactly]
    unfold CancellationRecorded
    rw [Steps.cancellationEffects_eq runs]
    constructor
    · rintro ⟨other, found', _, closed⟩
      cases found.symm.trans found'
      exact closed
    · exact fun closed => ⟨after, found, entered, closed⟩

/-- A job that fails again with the error that it had. -/
theorem failure_repeated :
    FailureRecorded .byKey (.planned (some "disk full")) (.planned (some "disk full"))
      "disk full" :=
  (@cause_recorded_iff .byKey _ _ (World.planned_present (some "disk full")) rfl [] _ rfl
    "disk full").1.mpr (.inl ⟨rfl, rfl⟩)

end OddJobs
