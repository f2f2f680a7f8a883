import OddJobs.Engine.CronTicks

/-!
# Schedules of crons

Crons are started and stopped, their timers fire, and the ticks are handled.  Between these
the engine does other work.  A cron that runs waits for its timer, or its timer has fired and
the tick is still to come, as long as no tick stops halfway.
-/

namespace OddJobs

open Library

/-- The cron runs in a namespace, on an interval that can be parsed. -/
def Runtime.RunsCron (runtime : Runtime) (cronName ns : String) : Prop :=
  ∃ interval, (runtime.cronStates[cronName]?).map CronState.schedule =
    some (.running, interval, ns) ∧ Parses interval

theorem Runtime.runsCron_congr {before after : Runtime}
    (same : ∀ cronName : String, (after.cronStates[cronName]?).map CronState.schedule =
      (before.cronStates[cronName]?).map CronState.schedule) (cronName ns : String) :
    after.RunsCron cronName ns ↔ before.RunsCron cronName ns := by
  unfold Runtime.RunsCron
  rw [same cronName]

/-- Work of the engine that leaves the schedules alone. -/
structure OtherWork where
  carry : Runtime → Runtime
  same : ∀ runtime, SameCrons runtime (carry runtime)

/-- The engine, and the timers that have fired and whose ticks are still to come. -/
structure CronRun where
  runtime : Runtime
  waiting : List TimerId

inductive CronStep where
  | start (cronName : String) (projectRoot : PathBuf) (runbookHash interval runTarget ns : String)
  | stop (cronName ns : String)
  /-- The scheduler hands out the timers whose instant has come. -/
  | fire (now : Nat)
  | tick (rest : String)
  | work (other : OtherWork)

def firedTimers (order : WalkOrder) (now : Nat) (timers : HashMap Nat) : List TimerId :=
  (order.walk timers.keys).filter fun timer => (timers[timer]?).any (· ≤ now)

namespace CronRun

variable (outside : Outside)

def fresh (runtime : Runtime) (waiting : List TimerId) : CronRun :=
  ⟨{ runtime with cronStates := ∅ }, waiting⟩

def next (run : CronRun) : CronStep → CronRun
  | .start cronName projectRoot runbookHash interval runTarget ns =>
      { run with runtime := (Handler.handleCronStarted outside cronName projectRoot runbookHash
          interval runTarget ns run.runtime).2 }
  | .stop cronName ns =>
      { run with runtime := (Handler.handleCronStopped outside cronName ns run.runtime).2 }
  | .fire now =>
      { runtime := { run.runtime with world := { run.runtime.world with
          timers := run.runtime.world.timers.filter fun _ firesAt => !decide (firesAt ≤ now) } }
        waiting := run.waiting ++ firedTimers outside.order now run.runtime.world.timers }
  | .tick rest =>
      { runtime := (Handler.handleCronTimerFired outside rest run.runtime).2
        waiting := run.waiting.erase ("cron:" ++ rest) }
  | .work other => { run with runtime := other.carry run.runtime }

/-- The timer is set, or it has fired and its tick is still to come. -/
def Awaits (run : CronRun) (timer : TimerId) : Prop :=
  run.runtime.world.timers.contains timer = true ∨ timer ∈ run.waiting

def Scheduled (run : CronRun) : Prop :=
  ∀ cronName ns, run.runtime.RunsCron cronName ns → run.Awaits (Timer.cron cronName ns)

/-- What a tick sets, if it sets anything: the timer of the cron that it names. -/
def Sets (outside : Outside) (runtime : Runtime) (rest : String) (timer : TimerId) : Prop :=
  ∃ state, runtime.cronStates[afterLastSlash rest]? = some state ∧ state.status = .running ∧
    Parses state.interval ∧ Timer.cron (afterLastSlash rest) state.ns = timer ∧
    state.CanTick outside (afterLastSlash rest) runtime

/-- The step takes no cron its next tick: a stop cancels only the timer of its own cron, and
a tick goes through to the end, unless its timer has been set again in the meantime. -/
def Meets (run : CronRun) : CronStep → Prop
  | .stop cronName ns => ∀ other otherNs, run.runtime.RunsCron other otherNs →
      Timer.cron other otherNs = Timer.cron cronName ns →
        other = cronName ∨ Timer.cron cronName ns ∈ run.waiting
  | .tick rest => ∀ other otherNs, run.runtime.RunsCron other otherNs →
      Timer.cron other otherNs = "cron:" ++ rest →
        run.runtime.world.timers.contains ("cron:" ++ rest) = true ∨
        "cron:" ++ rest ∈ run.waiting.erase ("cron:" ++ rest) ∨
        Sets outside run.runtime rest ("cron:" ++ rest)
  | _ => True

def Always (holds : CronRun → Prop) : CronRun → List CronStep → Prop
  | run, [] => holds run
  | run, step :: steps => holds run ∧ Always holds (run.next outside step) steps

def AllMeet : CronRun → List CronStep → Prop
  | _, [] => True
  | run, step :: steps => run.Meets outside step ∧ AllMeet (run.next outside step) steps

variable {outside} {run : CronRun}

theorem scheduled_fresh (runtime : Runtime) (waiting : List TimerId) :
    (fresh runtime waiting).Scheduled := by
  rintro cronName ns ⟨interval, runs, _⟩
  change ((∅ : HashMap CronState)[cronName]?).map _ = _ at runs
  rw [Table.lookup_empty] at runs
  cases runs

theorem Scheduled.of_same {after : Runtime} (scheduled : run.Scheduled)
    (same : SameCrons run.runtime after) : (⟨after, run.waiting⟩ : CronRun).Scheduled := by
  intro cronName ns runs
  rw [Runtime.runsCron_congr same.crons] at runs
  rcases scheduled cronName ns runs with pending | waits
  · refine .inl ?_
    rw [Table.contains_eq_isSome] at pending ⊢
    rw [same.timers _ (Timer.ofCron_cron cronName ns)]
    exact pending
  · exact .inr waits

theorem cronConcurrency_sameCrons (cronName runbookHash : String) :
    Program.Moves SameCrons (Handler.cronConcurrency outside cronName runbookHash) := by
  have course := course_sameCrons outside
  unfold Handler.cronConcurrency
  refine Program.Moves.bind course.toClosed (course.cachedRunbook_moves _).attempt fun runbook => ?_
  cases runbook with
  | ok runbook => exact Program.moves_pure course.toClosed _
  | error error => exact Program.moves_pure course.toClosed _

/-- A start records the cron, and sets its timer. -/
theorem handleCronStarted_starts {runtime : Runtime} {interval : String} {duration : Nat}
    (parsed : parseDuration interval = .ok duration) (cronName : String) (projectRoot : PathBuf)
    (runbookHash runTarget ns : String) :
    ∃ (middle : Runtime) (state : CronState) (firesAt : Nat), SameCrons runtime middle ∧
      state.schedule = (.running, interval, ns) ∧
      (Handler.handleCronStarted outside cronName projectRoot runbookHash interval runTarget ns
        runtime).2.cronStates = middle.cronStates.insert cronName state ∧
      (Handler.handleCronStarted outside cronName projectRoot runbookHash interval runTarget ns
        runtime).2.world.timers = middle.world.timers.insert (Timer.cron cronName ns) firesAt := by
  obtain ⟨concurrency, middle, counted⟩ :=
    @cronConcurrency_returns outside cronName runbookHash runtime
  have same := @cronConcurrency_sameCrons outside cronName runbookHash runtime
  rw [counted] at same
  unfold Handler.handleCronStarted
  rw [parsed]
  dsimp only
  rw [Program.bind_ok counted]
  exact ⟨middle, _, _, same, rfl, rfl, rfl⟩

/-- A cron that is started has its timer set, and the timers of the others stay. -/
theorem Scheduled.started (scheduled : run.Scheduled) (cronName : String) (projectRoot : PathBuf)
    (runbookHash interval runTarget ns : String) :
    (run.next outside (.start cronName projectRoot runbookHash interval runTarget ns)).Scheduled := by
  cases parsed : parseDuration interval with
  | error error =>
      have stays : run.next outside (.start cronName projectRoot runbookHash interval runTarget ns) =
          run := by
        rw [next, Handler.handleCronStarted, parsed]
        rfl
      rw [stays]
      exact scheduled
  | ok duration =>
      obtain ⟨middle, state, firesAt, same, schedule, crons, timers⟩ :=
        @handleCronStarted_starts outside run.runtime interval duration parsed cronName projectRoot
          runbookHash runTarget ns
      intro other otherNs runs
      obtain ⟨otherInterval, view, parses⟩ := runs
      rw [next] at view
      dsimp only at view
      rw [crons, Table.lookup_insert] at view
      unfold Awaits
      rw [next]
      dsimp only
      rw [timers, Table.contains_insert_iff]
      split at view
      · rename_i own
        rw [Option.map_some, schedule] at view
        cases view
        exact .inl (.inl (congrArg (Timer.cron · ns) own))
      · rcases scheduled.of_same same other otherNs ⟨otherInterval, view, parses⟩ with
          pending | waits
        · exact .inl (.inr pending)
        · exact .inr waits

/-- A timer that fires is waiting for its tick. -/
theorem Scheduled.fired (scheduled : run.Scheduled) (now : Nat) :
    (run.next outside (.fire now)).Scheduled := by
  intro cronName ns runs
  unfold Awaits
  rw [next]
  dsimp only
  rw [Table.contains_eq_isSome, Table.lookup_filter]
  rcases scheduled cronName ns runs with pending | waits
  · have present := pending
    rw [Table.contains_eq_isSome, Option.isSome_iff_exists] at present
    obtain ⟨firesAt, found⟩ := present
    rcases Nat.lt_or_ge now firesAt with later | due
    · refine .inl ?_
      rw [found, Option.filter_some, decide_eq_false (Nat.not_le.mpr later)]
      rfl
    · refine .inr (List.mem_append_right _ ?_)
      refine List.mem_filter.mpr ⟨?_, ?_⟩
      · rw [outside.order.mem_walk, Std.ExtTreeMap.mem_keys, Std.ExtTreeMap.mem_iff_contains]
        exact pending
      · rw [found, Option.any_some]
        exact decide_eq_true due
  · exact .inr (List.mem_append_left _ waits)

/-- A stop takes the timer of another cron exactly if the two timers have one name. -/
theorem Scheduled.stopped_iff (scheduled : run.Scheduled) (cronName ns : String) :
    (run.next outside (.stop cronName ns)).Scheduled ↔ run.Meets outside (.stop cronName ns) := by
  have runs_iff : ∀ other otherNs, (run.next outside (.stop cronName ns)).runtime.RunsCron other
      otherNs ↔ other ≠ cronName ∧ run.runtime.RunsCron other otherNs := by
    intro other otherNs
    unfold Runtime.RunsCron
    change (∃ interval, ((run.runtime.cronStates.modify cronName _)[other]?).map _ = _ ∧ _) ↔ _
    rw [Table.lookup_modify]
    split
    · rename_i own
      constructor
      · rintro ⟨interval, view, _⟩
        rw [Option.map_map] at view
        obtain ⟨state, _, never⟩ := Option.map_eq_some_iff.mp view
        cases (Prod.mk.inj never).1
      · exact fun runs => absurd own.symm runs.1
    · rename_i apart
      exact (and_iff_right (Ne.symm apart)).symm
  have awaits_iff : ∀ timer, (run.next outside (.stop cronName ns)).Awaits timer ↔
      (timer ≠ Timer.cron cronName ns ∧ run.runtime.world.timers.contains timer = true) ∨
        timer ∈ run.waiting := by
    intro timer
    change (run.runtime.world.timers.erase (Timer.cron cronName ns)).contains timer = true ∨ _ ↔ _
    rw [Table.contains_erase_iff, ne_comm]
    rfl
  constructor
  · intro kept other otherNs runs same
    rcases Decidable.em (other = cronName) with own | differs
    · exact .inl own
    · have awaits := kept other otherNs ((runs_iff other otherNs).mpr ⟨differs, runs⟩)
      rw [awaits_iff, same] at awaits
      rcases awaits with ⟨never, _⟩ | waits
      · exact absurd rfl never
      · exact .inr waits
  · intro meets other otherNs runs
    obtain ⟨differs, ran⟩ := (runs_iff other otherNs).mp runs
    rw [awaits_iff]
    rcases Decidable.em (Timer.cron other otherNs = Timer.cron cronName ns) with same | apart
    · have waits := (meets other otherNs ran same).resolve_left differs
      rw [same]
      exact .inr waits
    · rcases scheduled other otherNs ran with pending | waits
      · exact .inl ⟨apart, pending⟩
      · exact .inr waits

/-- After a tick the crons run as before, and one more timer may be set. -/
theorem handleCronTimerFired_ticks (runtime : Runtime) (rest : String) :
    let after := (Handler.handleCronTimerFired outside rest runtime).2
    (∀ cronName ns, after.RunsCron cronName ns ↔ runtime.RunsCron cronName ns) ∧
      ∀ timer, Timer.OfCron timer → (after.world.timers.contains timer = true ↔
        Sets outside runtime rest timer ∨ runtime.world.timers.contains timer = true) := by
  intro after
  have unset : SameCrons runtime after → (∀ timer, ¬Sets outside runtime rest timer) →
      (∀ cronName ns, after.RunsCron cronName ns ↔ runtime.RunsCron cronName ns) ∧
        ∀ timer, Timer.OfCron timer → (after.world.timers.contains timer = true ↔
          Sets outside runtime rest timer ∨ runtime.world.timers.contains timer = true) := by
    intro same never
    refine ⟨Runtime.runsCron_congr same.crons, fun timer ofCron => ?_⟩
    rw [Table.contains_eq_isSome, same.timers timer ofCron, ← Table.contains_eq_isSome]
    exact (or_iff_right (never timer)).symm
  rcases Classical.em (∃ state, runtime.cronStates[afterLastSlash rest]? = some state ∧
      state.status = .running) with ⟨state, found, running⟩ | idle
  · have outcome := @handleCronTimerFired_outcome outside state rest runtime found running
    rcases Classical.em (Parses state.interval ∧
        state.CanTick outside (afterLastSlash rest) runtime) with able | unable
    · obtain ⟨crons, timers⟩ := outcome.sets able
      refine ⟨Runtime.runsCron_congr crons, fun timer ofCron => ?_⟩
      rw [timers timer ofCron, Bool.or_eq_true, beq_iff_eq]
      refine or_congr_left ⟨?_, ?_⟩
      · intro own
        exact ⟨state, found, running, able.1, own.symm, able.2⟩
      · rintro ⟨other, same, _, _, own, _⟩
        rw [found] at same
        cases same
        exact own.symm
    · refine unset (outcome.stops unable) ?_
      rintro timer ⟨other, same, _, parses, _, can⟩
      rw [found] at same
      cases same
      exact unable ⟨parses, can⟩
  · have skips := @handleCronTimerFired_skips outside rest runtime
      fun state found running => idle ⟨state, found, running⟩
    refine unset ?_ ?_
    · change SameCrons runtime (Handler.handleCronTimerFired outside rest runtime).2
      rw [skips]
      exact closed_sameCrons.refl runtime
    · rintro timer ⟨state, found, running, _⟩
      exact idle ⟨state, found, running⟩

/-- A tick leaves its cron without a timer exactly if it stops before the timer is set. -/
theorem Scheduled.ticked_iff (scheduled : run.Scheduled) (rest : String) :
    (run.next outside (.tick rest)).Scheduled ↔ run.Meets outside (.tick rest) := by
  obtain ⟨crons, timers⟩ := @handleCronTimerFired_ticks outside run.runtime rest
  have awaits_iff : ∀ cronName ns, (run.next outside (.tick rest)).Awaits (Timer.cron cronName ns) ↔
      (Sets outside run.runtime rest (Timer.cron cronName ns) ∨
        run.runtime.world.timers.contains (Timer.cron cronName ns) = true) ∨
        Timer.cron cronName ns ∈ run.waiting.erase ("cron:" ++ rest) :=
    fun cronName ns => or_congr_left (timers _ (Timer.ofCron_cron cronName ns))
  constructor
  · intro kept other otherNs runs same
    have awaits := kept other otherNs ((crons other otherNs).mpr runs)
    rw [awaits_iff, same] at awaits
    rcases awaits with (sets | pending) | waits
    · exact .inr (.inr sets)
    · exact .inl pending
    · exact .inr (.inl waits)
  · intro meets other otherNs runs
    have ran := (crons other otherNs).mp runs
    rw [awaits_iff]
    rcases Decidable.em (Timer.cron other otherNs = "cron:" ++ rest) with same | apart
    · rw [same]
      rcases meets other otherNs ran same with pending | waits | sets
      · exact .inl (.inr pending)
      · exact .inr waits
      · exact .inl (.inl sets)
    · rcases scheduled other otherNs ran with pending | waits
      · exact .inl (.inr pending)
      · exact .inr ((List.mem_erase_of_ne apart).mpr waits)

theorem Scheduled.next_iff (scheduled : run.Scheduled) (step : CronStep) :
    (run.next outside step).Scheduled ↔ run.Meets outside step := by
  cases step with
  | start cronName projectRoot runbookHash interval runTarget ns =>
      exact iff_of_true (scheduled.started cronName projectRoot runbookHash interval runTarget ns)
        trivial
  | stop cronName ns => exact scheduled.stopped_iff cronName ns
  | fire now => exact iff_of_true (scheduled.fired now) trivial
  | tick rest => exact scheduled.ticked_iff rest
  | work other => exact iff_of_true (scheduled.of_same (other.same run.runtime)) trivial

theorem Scheduled.always_iff (scheduled : run.Scheduled) (steps : List CronStep) :
    run.Always outside Scheduled steps ↔ run.AllMeet outside steps := by
  induction steps generalizing run with
  | nil => exact iff_of_true scheduled trivial
  | cons step steps ih =>
      constructor
      · rintro ⟨_, later⟩
        have kept : (run.next outside step).Scheduled := by
          cases steps with
          | nil => exact later
          | cons other others => exact later.1
        exact ⟨(scheduled.next_iff step).mp kept, (ih kept).mp later⟩
      · rintro ⟨meets, later⟩
        have kept := (scheduled.next_iff step).mpr meets
        exact ⟨scheduled, (ih kept).mpr later⟩

/-- In every run, every cron that runs has its next tick scheduled all along exactly if every
step of the run leaves every cron its next tick. -/
theorem crons_scheduled_iff (outside : Outside) (runtime : Runtime) (waiting : List TimerId)
    (steps : List CronStep) :
    (fresh runtime waiting).Always outside Scheduled steps ↔
      (fresh runtime waiting).AllMeet outside steps :=
  (scheduled_fresh runtime waiting).always_iff steps

/-! ## A runbook that cannot be read for a moment -/

def unreadable : Runtime :=
  { Runtime.idle {} {} with
    readings := fun n =>
      { (Runtime.idle {} {}).readings n with runbook := .error "expected `\x7d` at line 3" } }

def nightly : List CronStep :=
  [.start "nightly" "/" "hash" "5m" "job:build" "", .fire 300000, .tick "nightly"]

/-- The first tick comes while the runbook is being edited, and there is no second one. -/
theorem nightly_ends :
    ¬∀ (outside : Outside) (runtime : Runtime) (waiting : List TimerId) (steps : List CronStep),
      (fresh runtime waiting).Always outside Scheduled steps := by
  intro always
  obtain ⟨_, _, _, last⟩ := always (.plain {}) unreadable [] nightly
  have runs : (((((fresh unreadable []).next (.plain {})
      (.start "nightly" "/" "hash" "5m" "job:build" "")).next (.plain {}) (.fire 300000)).next
        (.plain {}) (.tick "nightly")).runtime.cronStates["nightly"]?).map CronState.schedule =
      some (.running, "5m", "") := by
    decide +kernel
  have parses : Parses "5m" := ⟨300000, by rfl⟩
  rcases last "nightly" "" ⟨"5m", runs, parses⟩ with pending | waits
  · exact absurd pending (by decide +kernel)
  · exact absurd waits (by decide +kernel)

end CronRun

end OddJobs
