import OddJobs.Engine.TimerRuns
import OddJobs.Engine.Traces

/-!
# Visits of steps

A move of a job to a step counts as a visit, unless it is taken for a repeated one.  The
breaker lets a step start while it was not visited too often, so that a start that follows a
move is paid for by a visit.
-/

namespace OddJobs

open Library

def MaterializedState.visits (state : MaterializedState) (id : JobId) (step : String) : Nat :=
  ((state.jobs[id]?).map (·.getStepVisits step)).getD 0

/-- The event with which the job starts a step; an agent that is spawned is told of later. -/
def Event.Begins (id : JobId) (step : String) : Event → Bool
  | stepStarted jobId started none none => jobId == id && started == step
  | _ => false

def Trace.starts (trace : Trace) (id : JobId) (step : String) : Nat :=
  trace.applied.countP (Event.Begins id step)

def Trace.Ended (trace : Trace) (id : JobId) : Prop :=
  ∃ job, trace.state.jobs[id]? = some job ∧ job.isTerminal = true

/-! ## What leaves the visits alone -/

/-- The job is at its step or has ended, and no visit was counted. -/
structure Job.Remains (before after : Job) : Prop where
  visits : after.stepVisits = before.stepVisits
  step : after.step = before.step ∨ after.isTerminal = true

theorem Job.Remains.refl (job : Job) : job.Remains job := ⟨rfl, .inl rfl⟩

theorem Job.Remains.trans {first second third : Job} (early : first.Remains second)
    (late : second.Remains third) : first.Remains third where
  visits := late.visits.trans early.visits
  step := by
    rcases late.step with same | ended
    · rcases early.step with same' | ended'
      · exact .inl (same.trans same')
      · refine .inr ?_
        unfold Job.isTerminal at ended' ⊢
        rw [same]
        exact ended'
    · exact .inr ended

/-- A job that has ended remains so. -/
theorem Job.Remains.ended {before after : Job} (remains : before.Remains after)
    (ended : before.isTerminal = true) : after.isTerminal = true := by
  rcases remains.step with same | ended'
  · unfold Job.isTerminal at ended ⊢
    rw [same]
    exact ended
  · exact ended'

theorem Job.Remains.getStepVisits_eq {before after : Job} (remains : before.Remains after)
    (step : String) : after.getStepVisits step = before.getStepVisits step := by
  unfold Job.getStepVisits
  rw [remains.visits]

theorem Job.SameHistory.remains {before after : Job} (same : before.SameHistory after) :
    before.Remains after := ⟨same.visits, .inl same.step⟩

/-- Moving to the end is no visit. -/
theorem Job.remains_applyAdvanced {step : String} (ends : isTerminalStep step = true)
    (epochMs : Nat) (job : Job) : job.Remains (job.applyAdvanced epochMs step) := by
  rw [Job.applyAdvanced_eq]
  exact ⟨if_pos ends, .inr ends⟩

/-- An event that neither moves the job to another step nor starts a step of it. -/
def Event.Stays (id : JobId) : Event → Prop
  | jobCreated jobId .. | jobDeleted jobId | stepStarted jobId _ none none => jobId ≠ id
  | jobAdvanced jobId step => jobId = id → isTerminalStep step = true
  | _ => True

/-- The job remains where it is, or ends, and none of its steps is started. -/
structure Trace.Undisturbed (id : JobId) (before after : Trace) : Prop where
  starts : ∀ step, after.starts id step = before.starts id step
  remains : ∀ job, before.state.jobs[id]? = some job →
    ∃ next, after.state.jobs[id]? = some next ∧ job.Remains next
  keyed : before.state.Keyed → after.state.Keyed

theorem Trace.Undisturbed.visits_le {id : JobId} {before after : Trace}
    (quiet : Trace.Undisturbed id before after) (step : String) :
    before.state.visits id step ≤ after.state.visits id step := by
  unfold MaterializedState.visits
  cases found : before.state.jobs[id]? with
  | none => exact Nat.zero_le _
  | some job =>
      obtain ⟨next, present, remains⟩ := quiet.remains job found
      rw [present]
      exact (remains.getStepVisits_eq step).ge

theorem Event.Stays.begins {id : JobId} {event : Event} (stays : event.Stays id) (step : String) :
    event.Begins id step = false := by
  unfold Event.Begins
  split
  · rename_i jobId started
    exact Bool.and_eq_false_imp.mpr fun same => absurd (beq_iff_eq.mp same) stays
  · rfl

theorem Trace.starts_apply (order : WalkOrder) (clock : Clock) (event : Event) (trace : Trace)
    (id : JobId) (step : String) : (trace.apply order clock event).starts id step =
      trace.starts id step + if event.Begins id step then 1 else 0 := by
  unfold Trace.starts Trace.apply
  dsimp only
  rw [List.countP_append, List.countP_singleton]

theorem Event.Stays.undisturbed {id : JobId} {event : Event} (stays : event.Stays id)
    (order : WalkOrder) (clock : Clock) (trace : Trace) :
    Trace.Undisturbed id trace (trace.apply order clock event) where
  starts := by
    intro step
    rw [Trace.starts_apply, stays.begins step]
    rfl
  keyed := fun keyed => keyed.applyEvent order clock event
  remains := by
    intro job found
    cases moves : event.movesJob with
    | false =>
        obtain ⟨next, present, same⟩ :=
          (MaterializedState.applyEvent_sameHistory order clock trace.state moves).lookup found
        exact ⟨next, present, same.remains⟩
    | true =>
        cases event with
        | jobCreated jobId kind name hash cwd vars initialStep createdAt ns cronName =>
            refine ⟨job, ?_, .refl job⟩
            change (trace.state.jobs.insert jobId _)[id]? = some job
            rw [Table.lookup_insert, if_neg stays]
            exact found
        | jobDeleted jobId =>
            refine ⟨job, ?_, .refl job⟩
            change (trace.state.jobs.erase jobId)[id]? = some job
            rw [Table.lookup_erase, if_neg stays]
            exact found
        | jobAdvanced jobId step =>
            have advanced := trace.state.lookup_applyJobAdvanced clock jobId id step
            rcases Decidable.em (jobId = id) with rfl | other
            · rw [if_pos rfl, found, Option.map_some] at advanced
              refine ⟨_, advanced, ?_⟩
              split
              · exact .refl job
              · exact job.remains_applyAdvanced (stays rfl) _
            · rw [if_neg other, found] at advanced
              exact ⟨job, advanced, .refl job⟩
        | _ => cases moves

theorem tracing_undisturbed (order : WalkOrder) (id : JobId) :
    Tracing order (Event.Stays id) (Trace.Undisturbed id) where
  refl := fun trace => ⟨fun _ => rfl, fun job found => ⟨job, found, .refl job⟩, fun keyed => keyed⟩
  trans := by
    intro first second third early late
    refine ⟨fun step => (late.starts step).trans (early.starts step), fun job found => ?_,
      fun keyed => late.keyed (early.keyed keyed)⟩
    obtain ⟨between, present, remains⟩ := early.remains job found
    obtain ⟨next, present', remains'⟩ := late.remains between present
    exact ⟨next, present', remains.trans remains'⟩
  event := fun stays clock trace => stays.undisturbed order clock trace
  cleaning := fun _ _ =>
    ⟨fun _ => rfl, fun job found => ⟨job, found, .refl job⟩, fun keyed => keyed⟩

/-- What a job does but for moving to a step and starting it. -/
theorem stays_serves (id jobId : JobId) : (Bounds.permitting (Event.Stays id)).Serves jobId where
  spawned := fun _ _ _ => trivial
  failed := fun _ _ => trivial
  fails := fun _ => rfl
  session := fun _ => trivial
  sessionless := fun _ => trivial
  removed := fun _ => trivial
  liveness := trivial
  exitDeferred := trivial

theorem stays_settles (id jobId : JobId) (step : String) :
    (Bounds.permitting (Event.Stays id)).ends jobId step := by
  intro event settles
  cases event with
  | queueCompleted | queueFailed | queueItemDead => trivial
  | _ => exact settles.elim

theorem stays_completes (id : JobId) (job : Job) :
    (Bounds.permitting (Event.Stays id)).Completes job :=
  ⟨fun _ _ => rfl, trivial, stays_settles id job.id "done"⟩

theorem stays_cancels (id : JobId) (job : Job) :
    (Bounds.permitting (Event.Stays id)).Cancels job :=
  ⟨fun _ _ => rfl, stays_settles id job.id "cancelled"⟩

/-! ## What a visit pays for -/

/-- No step of the job was started, and no visit is forgotten. -/
structure Trace.Spares (id : JobId) (before after : Trace) : Prop where
  starts : ∀ step, after.starts id step = before.starts id step
  visits : ∀ step, before.state.visits id step ≤ after.state.visits id step
  keyed : before.state.Keyed → after.state.Keyed

/-- The job has come to a step, and none of its steps was started. -/
structure Trace.Arrives (id : JobId) (step : String) (before after : Trace) : Prop
    extends Trace.Spares id before after where
  arrived : ∃ job, after.state.jobs[id]? = some job ∧ (job.step = step ∨ job.isTerminal = true)

/-- The job has moved to a step, and the visit is counted. -/
structure Trace.Enters (id : JobId) (step : String) (before after : Trace) : Prop
    extends Trace.Arrives id step before after where
  counted : isTerminalStep step = false →
    before.state.visits id step + 1 ≤ after.state.visits id step

/-- At most a step of the job is started, so many times. -/
structure Trace.Begun (id : JobId) (step : String) (times : Nat) (before after : Trace) : Prop where
  starts : ∀ other,
    after.starts id other ≤ before.starts id other + if other = step then times else 0
  remains : ∀ job, before.state.jobs[id]? = some job →
    ∃ next, after.state.jobs[id]? = some next ∧ job.Remains next
  keyed : before.state.Keyed → after.state.Keyed

/-- How often the breaker lets a step start that was visited so often. -/
def Trace.starting (visits : Nat) : Nat := if MAX_STEP_VISITS < visits then 0 else 1

/-- At most a step of the job is started, and only if the breaker lets it. -/
def Trace.Starts (id : JobId) (step : String) (before after : Trace) : Prop :=
  Begun id step (starting (before.state.visits id step)) before after

/-- All starts but some are paid for by visits, up to the limit of the breaker.  A step that
is named as an end of the job is started at most once, and then the job has ended. -/
structure Trace.Paid (id : JobId) (advance : Nat) (before after : Trace) : Prop where
  paid : ∀ step, isTerminalStep step = false →
    after.starts id step + min (before.state.visits id step) MAX_STEP_VISITS ≤
      before.starts id step + advance + min (after.state.visits id step) MAX_STEP_VISITS
  last : ∀ step, isTerminalStep step = true → after.starts id step ≤ before.starts id step ∨
    after.starts id step ≤ before.starts id step + 1 ∧ after.Ended id
  keyed : before.state.Keyed → after.state.Keyed

namespace Trace

variable {id : JobId} {step : String} {before between after : Trace}

theorem Undisturbed.begun (quiet : Undisturbed id before after) (times : Nat) :
    Begun id step times before after where
  starts := fun other => (quiet.starts other).le.trans (Nat.le_add_right _ _)
  remains := quiet.remains
  keyed := quiet.keyed

theorem starting_le {fewer more : Nat} (le : fewer ≤ more) : starting more ≤ starting fewer := by
  unfold starting
  split
  · exact Nat.zero_le _
  · rename_i few
    rw [if_neg fun many => few (many.trans_le le)]

theorem Begun.mono {times more : Nat} (le : times ≤ more)
    (begun : Begun id step times before after) : Begun id step more before after where
  starts := by
    intro other
    refine (begun.starts other).trans (Nat.add_le_add_left ?_ _)
    split
    · exact le
    · exact le_rfl
  remains := begun.remains
  keyed := begun.keyed

theorem Undisturbed.before_begun {times : Nat} (quiet : Undisturbed id before between)
    (begun : Begun id step times between after) : Begun id step times before after where
  starts := fun other => quiet.starts other ▸ begun.starts other
  remains := by
    intro job found
    obtain ⟨next, present, remains⟩ := quiet.remains job found
    obtain ⟨last, present', remains'⟩ := begun.remains next present
    exact ⟨last, present', remains.trans remains'⟩
  keyed := fun keyed => begun.keyed (quiet.keyed keyed)

theorem Undisturbed.before_starts (quiet : Undisturbed id before between)
    (starts : Starts id step between after) : Starts id step before after :=
  quiet.before_begun (Begun.mono (starting_le (quiet.visits_le step)) starts)

theorem Begun.undisturbed {times : Nat} (begun : Begun id step times before between)
    (quiet : Undisturbed id between after) : Begun id step times before after where
  starts := fun other => (quiet.starts other).le.trans (begun.starts other)
  remains := by
    intro job found
    obtain ⟨next, present, remains⟩ := begun.remains job found
    obtain ⟨last, present', remains'⟩ := quiet.remains next present
    exact ⟨last, present', remains.trans remains'⟩
  keyed := fun keyed => quiet.keyed (begun.keyed keyed)

theorem Begun.visits_le {times : Nat} (begun : Begun id step times before after) (other : String) :
    before.state.visits id other ≤ after.state.visits id other := by
  unfold MaterializedState.visits
  cases found : before.state.jobs[id]? with
  | none => exact Nat.zero_le _
  | some job =>
      obtain ⟨next, present, remains⟩ := begun.remains job found
      rw [present]
      exact (remains.getStepVisits_eq other).ge

/-- A job that starts the end at which it is has ended. -/
theorem Arrives.ended {times : Nat} (arrives : Arrives id step before between)
    (begun : Begun id step times between after) (ends : isTerminalStep step = true) :
    after.Ended id := by
  obtain ⟨job, found, stands⟩ := arrives.arrived
  have terminal : job.isTerminal = true := by
    rcases stands with rfl | terminal
    · exact ends
    · exact terminal
  obtain ⟨next, present, remains⟩ := begun.remains job found
  exact ⟨next, present, remains.ended terminal⟩

theorem Arrives.last {times : Nat} (arrives : Arrives id step before between)
    (begun : Begun id step times between after) (once : times ≤ 1) {other : String}
    (ends : isTerminalStep other = true) : after.starts id other ≤ before.starts id other ∨
      after.starts id other ≤ before.starts id other + 1 ∧ after.Ended id := by
  have starts := begun.starts other
  rw [arrives.starts other] at starts
  split at starts
  · rename_i same
    subst same
    exact .inr ⟨starts.trans (Nat.add_le_add_left once _), arrives.ended begun ends⟩
  · exact .inl starts

/-- A first start is not paid for. -/
theorem Arrives.paid (arrives : Arrives id step before between)
    (begun : Begun id step 1 between after) : Paid id 1 before after where
  paid := by
    intro other _
    have starts := begun.starts other
    have visits := (arrives.visits other).trans (begun.visits_le other)
    rw [arrives.starts other] at starts
    split at starts
    · omega
    · omega
  last := fun other ends => arrives.last begun le_rfl ends
  keyed := fun keyed => begun.keyed (arrives.keyed keyed)

/-- The visit pays for the start, which the breaker permits. -/
theorem Enters.paid (enters : Enters id step before between)
    (begun : Starts id step between after) : Paid id 0 before after where
  paid := by
    intro other continues
    have starts := begun.starts other
    have visits := enters.visits other
    have later := Begun.visits_le begun other
    rw [enters.starts other] at starts
    split at starts
    · rename_i same
      subst same
      have counted := enters.counted continues
      unfold starting at starts
      split at starts
      · omega
      · omega
    · omega
  last := fun other ends => enters.last begun (starting_le (Nat.zero_le _)) ends
  keyed := fun keyed => begun.keyed (enters.keyed keyed)

theorem Undisturbed.spares (quiet : Undisturbed id before after) : Spares id before after :=
  ⟨quiet.starts, quiet.visits_le, quiet.keyed⟩

theorem Spares.paid (spares : Spares id before after) (advance : Nat) :
    Paid id advance before after where
  paid := by
    intro other _
    have visits := spares.visits other
    rw [spares.starts other]
    omega
  last := fun other _ => .inl (spares.starts other).le
  keyed := spares.keyed

theorem Paid.mono {advance more : Nat} (le : advance ≤ more)
    (paid : Paid id advance before after) : Paid id more before after where
  paid := fun other continues => (paid.paid other continues).trans
    (Nat.add_le_add_right (Nat.add_le_add_left le _) _)
  last := paid.last
  keyed := paid.keyed

theorem Spares.before_paid {advance : Nat} (spares : Spares id before between)
    (paid : Paid id advance between after) : Paid id advance before after where
  paid := by
    intro other continues
    have visits := spares.visits other
    have pays := paid.paid other continues
    rw [spares.starts other] at pays
    omega
  last := fun other ends => spares.starts other ▸ paid.last other ends
  keyed := fun keyed => paid.keyed (spares.keyed keyed)

theorem Spares.before_arrives (spares : Spares id before between)
    (arrives : Arrives id step between after) : Arrives id step before after where
  starts := fun other => (arrives.starts other).trans (spares.starts other)
  visits := fun other => (spares.visits other).trans (arrives.visits other)
  keyed := fun keyed => arrives.keyed (spares.keyed keyed)
  arrived := arrives.arrived

theorem Arrives.undisturbed (arrives : Arrives id step before between)
    (quiet : Undisturbed id between after) : Arrives id step before after where
  starts := fun other => (quiet.starts other).trans (arrives.starts other)
  visits := fun other => (arrives.visits other).trans (quiet.visits_le other)
  keyed := fun keyed => quiet.keyed (arrives.keyed keyed)
  arrived := by
    obtain ⟨job, found, stands⟩ := arrives.arrived
    obtain ⟨next, present, remains⟩ := quiet.remains job found
    refine ⟨next, present, ?_⟩
    rcases stands with rfl | ended
    · exact remains.step
    · exact .inr (remains.ended ended)

/-- A job that has not ended owes no start of an end. -/
theorem Paid.trans {advance more : Nat} (first : Paid id advance before between)
    (going : ¬between.Ended id) (second : Paid id more between after) :
    Paid id (advance + more) before after where
  paid := by
    intro other continues
    have early := first.paid other continues
    have late := second.paid other continues
    omega
  last := by
    intro other ends
    rcases first.last other ends with kept | ⟨_, ended⟩
    · rcases second.last other ends with kept' | ⟨one, ended⟩
      · exact .inl (kept'.trans kept)
      · exact .inr ⟨one.trans (Nat.add_le_add_right kept 1), ended⟩
    · exact absurd ended going
  keyed := fun keyed => second.keyed (first.keyed keyed)

/-- With one start in advance no step is started more often than the breaker permits. -/
theorem Paid.starts_le (paid : Paid id 1 before after) (step : String) :
    after.starts id step ≤ before.starts id step + (MAX_STEP_VISITS + 1) := by
  cases ends : isTerminalStep step with
  | false =>
      have pays := paid.paid step ends
      omega
  | true =>
      rcases paid.last step ends with kept | ⟨one, _⟩
      · omega
      · omega

end Trace

/-! ## Moving to a step -/

theorem MaterializedState.visits_eq {state : MaterializedState} {id : JobId} {job : Job}
    (found : state.jobs[id]? = some job) (step : String) :
    state.visits id step = job.getStepVisits step := by
  unfold MaterializedState.visits
  rw [found]
  rfl

/-- No visit is forgotten. -/
theorem Job.getStepVisits_applyAdvanced (epochMs : Nat) (step other : String) (job : Job) :
    (job.applyAdvanced epochMs step).getStepVisits other =
      job.getStepVisits other + if isTerminalStep step = false ∧ step = other then 1 else 0 := by
  rw [Job.applyAdvanced_eq]
  unfold Job.getStepVisits
  dsimp only
  cases ends : isTerminalStep step with
  | true => rfl
  | false =>
      rw [if_neg Bool.false_ne_true, Table.lookup_insert]
      rcases Decidable.em (step = other) with rfl | differs
      · rw [if_pos rfl, if_pos ⟨rfl, rfl⟩]
        rfl
      · rw [if_neg differs, if_neg fun both => differs both.2]
        rfl

/-- A move that is not taken for a repeated one is a visit. -/
theorem Trace.enters_advanced {id : JobId} {step : String} {trace : Trace} {job : Job}
    (found : trace.state.jobs[id]? = some job)
    (moves : isTerminalStep step = false → job.advanceSkipped step = false)
    (order : WalkOrder) (clock : Clock) :
    Trace.Enters id step trace (trace.apply order clock (.jobAdvanced id step)) := by
  have advanced := trace.state.lookup_applyJobAdvanced clock id id step
  rw [if_pos rfl, found, Option.map_some] at advanced
  have keyed : trace.state.Keyed → (trace.state.applyJobAdvanced clock id step).Keyed :=
    fun keyed => keyed.applyEvent order clock (.jobAdvanced id step)
  have starts : ∀ other, (trace.apply order clock (.jobAdvanced id step)).starts id other =
      trace.starts id other := fun other => trace.starts_apply order clock _ id other
  cases skipped : job.advanceSkipped step with
  | true =>
      rw [if_pos skipped] at advanced
      have visits : ∀ other, (trace.state.applyJobAdvanced clock id step).visits id other =
          trace.state.visits id other := fun other => by
        rw [MaterializedState.visits_eq advanced, MaterializedState.visits_eq found]
      have arrived : job.step = step := beq_iff_eq.mp (Bool.and_eq_true_iff.mp skipped).1
      refine ⟨⟨⟨starts, fun other => (visits other).ge, keyed⟩, job, advanced, .inl arrived⟩, ?_⟩
      intro continues
      rw [moves continues] at skipped
      cases skipped
  | false =>
      rw [if_neg (Bool.eq_false_iff.mp skipped)] at advanced
      have visits : ∀ other, (trace.state.applyJobAdvanced clock id step).visits id other =
          trace.state.visits id other +
            if isTerminalStep step = false ∧ step = other then 1 else 0 := fun other => by
        rw [MaterializedState.visits_eq advanced, MaterializedState.visits_eq found,
          Job.getStepVisits_applyAdvanced]
      have arrived : (job.applyAdvanced clock.epochMs step).step = step := by
        rw [Job.applyAdvanced_eq]
      refine ⟨⟨⟨starts, fun other => (visits other).ge.trans' (Nat.le_add_right _ _), keyed⟩,
        _, advanced, .inl arrived⟩, ?_⟩
      intro continues
      have counts := visits step
      rw [if_pos ⟨continues, rfl⟩] at counts
      exact counts.ge

/-! ## Starting a step -/

section Starting

variable (outside : Outside) (id : JobId)

theorem course_undisturbed :
    Course (.permitting (Event.Stays id)) outside (Traced (Trace.Undisturbed id)) :=
  (tracing_undisturbed outside.order id).course

/-- The event with which a step starts. -/
theorem Trace.begun_started (order : WalkOrder) (clock : Clock) (trace : Trace) (step : String) :
    Trace.Begun id step 1 trace (trace.apply order clock (.stepStarted id step none none)) where
  starts := by
    intro other
    rw [Trace.starts_apply]
    refine Nat.add_le_add_left ?_ _
    change (if (id == id && step == other) = true then 1 else 0) ≤ _
    rw [beq_self_eq_true, Bool.true_and]
    rcases Decidable.em (other = step) with rfl | differs
    · rw [if_pos rfl, beq_self_eq_true]
      exact le_rfl
    · rw [if_neg differs, beq_eq_false_iff_ne.mpr (Ne.symm differs)]
      exact le_rfl
  remains := by
    intro job found
    obtain ⟨next, present, same⟩ :=
      (MaterializedState.applyEvent_sameHistory order clock trace.state
        (show (Event.stepStarted id step none none).movesJob = false from rfl)).lookup found
    exact ⟨next, present, same.remains⟩
  keyed := fun keyed => keyed.applyEvent order clock _

variable {id} in
/-- What comes after a part that does not disturb the job. -/
theorem then_begun {α β : Type} {step : String} {times : Nat} {program : Handler α}
    {next : α → Handler β} (quiet : Program.Moves (Traced (Trace.Undisturbed id)) program)
    (begins : ∀ value, Program.Moves (Traced (Trace.Begun id step times)) (next value)) :
    Program.Moves (Traced (Trace.Begun id step times)) (program >>= next) :=
  quiet.follow (fun moved => moved.begun _) (fun moved later => moved.before_begun later)
    fun _ value after _ => begins value after

variable {id} in
/-- The job that is found knows of all visits that are counted. -/
theorem visits_le_getStepVisits {state : MaterializedState} {job : Job}
    (found : state.getJob id = some job) (step : String) :
    state.visits id step ≤ job.getStepVisits step := by
  cases present : state.jobs[id]? with
  | none =>
      unfold MaterializedState.visits
      rw [present]
      exact Nat.zero_le _
  | some other =>
      rw [MaterializedState.getJob_found present] at found
      cases found
      exact (MaterializedState.visits_eq present step).le

/-- The event that starts a step is applied, and then its command or its agent runs. -/
theorem run_begun (job : Job) (stepDef : StepDef) (step : String) (input : HashMap String)
    (workspacePath : PathBuf) : Program.Moves (Traced (Trace.Begun id step 1))
      (do
        let started ← Handler.executeAll outside (Steps.stepStartEffects id step)
        let ran ← Handler.runStep outside job id stepDef step input workspacePath
        pure (started ++ ran) : Handler (List Event)) := by
  have course := course_undisturbed outside id
  have runs := course.runStep_moves (stays_serves id id) job stepDef step input workspacePath
  intro runtime
  let begun := runtime.emitting outside.order (.stepStarted id step none none)
  have started : Handler.executeAll outside (Steps.stepStartEffects id step) runtime =
      (.ok [.stepStarted id step none none], begun) := rfl
  rw [Program.bind_ok started, Program.bind_pure_state]
  have starts := Trace.begun_started id outside.order (runtime.world.clocks 0) runtime.trace step
  exact starts.undisturbed (runs begun)

/-- A step is started once, unless it was visited too often. -/
theorem startStep_begun (step : String) (input : HashMap String) (workspacePath : PathBuf) :
    Program.Moves (Traced (Trace.Starts id step))
      (Handler.startStep outside id step input workspacePath) := by
  have course := course_undisturbed outside id
  have closed := course.toClosed
  unfold Handler.startStep
  refine (course.requireJob_moves id).follow (fun quiet => quiet.begun _)
    (fun quiet starts => quiet.before_starts starts) fun now job _ required => ?_
  obtain ⟨rfl, found⟩ := Handler.requireJob_eq_ok.mp required
  refine Trace.Begun.mono (Trace.starting_le (visits_le_getStepVisits found step)) ?_
  refine (?_ : Program.Moves
    (Traced (Trace.Begun id step (Trace.starting (job.getStepVisits step)))) _) now
  refine then_begun (course.cachedRunbook_moves _) fun runbook => ?_
  refine then_begun (course.require_moves _ _) fun jobDef => ?_
  dsimp only
  split
  · have serves := stays_serves id job.id
    refine then_begun (course.executeAll_moves (Course.failureEffects_within serves _)) fun _ => ?_
    refine then_begun (course.emitNotify_moves _ _) fun _ => ?_
    exact fun runtime => (closed.refl runtime).begun _
  · rename_i few
    have once : Trace.starting (job.getStepVisits step) = 1 := if_neg few
    rw [once]
    refine then_begun (course.require_moves _ _) fun stepDef => ?_
    exact run_begun outside id job stepDef step input workspacePath

end Starting

end OddJobs
