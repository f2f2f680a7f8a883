import OddJobs.Engine.ActionMoves
import OddJobs.Engine.Creation
import OddJobs.Engine.Crons
import OddJobs.Engine.Traces

/-!
# Ticks of crons

A cron that is started fires when its timer does, and each tick sets the timer of the next
one.  A tick that stops halfway sets none, so that the schedule ends there while the cron is
still said to run.
-/

namespace OddJobs

open Library

/-! ## What leaves the schedules alone -/

theorem Timer.spared_cron : Spared "cron:" where
  long := by decide
  apart := by
    intro start member
    simp only [KINDS, List.mem_cons, List.not_mem_nil, or_false] at member
    rcases member with rfl | rfl | rfl | rfl | rfl | rfl | rfl <;> exact ⟨by decide, by decide⟩

abbrev Timer.OfCron (timer : TimerId) : Prop := OfKind "cron:" timer

theorem Timer.ofCron_cron (cronName ns : String) : Timer.OfCron (Timer.cron cronName ns) :=
  ofKind_append _ _

def CronState.schedule (state : CronState) : CronStatus × String × String :=
  (state.status, state.interval, state.ns)

/-- The crons have the same schedules, and their timers are as they were. -/
structure SameCrons (before after : Runtime) : Prop where
  crons : ∀ cronName : String, (after.cronStates[cronName]?).map CronState.schedule =
    (before.cronStates[cronName]?).map CronState.schedule
  timers : ∀ timer, Timer.OfCron timer → after.world.timers[timer]? = before.world.timers[timer]?

theorem closed_sameCrons : Closed SameCrons where
  refl := fun _ => ⟨fun _ => rfl, fun _ _ => rfl⟩
  trans := fun first second =>
    ⟨fun cronName => (second.crons cronName).trans (first.crons cronName),
      fun timer ofCron => (second.timers timer ofCron).trans (first.timers timer ofCron)⟩

abbrev cronless : Bounds := .sparing (fun _ => True) "cron:"

theorem blind_sameCrons (outside : Outside) : Blind cronless outside SameCrons where
  toClosed := closed_sameCrons
  aside := by
    intro before after aside
    refine ⟨fun cronName => ?_, fun timer _ => ?_⟩
    · rw [aside.crons]
    · rw [aside.timers]
  event := fun _ _ => ⟨fun _ => rfl, fun _ _ => rfl⟩
  cleaning := fun _ _ => ⟨fun _ => rfl, fun _ _ => rfl⟩
  timers := fun _ _ same => ⟨fun _ => rfl, fun timer ofCron => same timer (not_not.mpr ofCron)⟩
  settles := fun _ _ never => never.elim
  memory := fun _ _ _ => ⟨fun _ => rfl, fun _ _ => rfl⟩
  retries := fun _ _ =>
    ((((Timer.spared_cron.apart "queue-retry:" (by decide)).append _).append _).append
      _).not_ofKind Timer.spared_cron.long
  settling := fun _ _ _ _ _ => trivial

theorem course_sameCrons (outside : Outside) : Course cronless outside SameCrons :=
  (blind_sameCrons outside).course

theorem alone_sameCrons (outside : Outside) : ActingAlone cronless outside SameCrons :=
  alone_sparing Timer.spared_cron (fun _ _ => trivial) (course_sameCrons outside)
    fun _ _ _ => ⟨fun _ => rfl, fun _ _ => rfl⟩

theorem SetsUp.cronless {id : JobId} {effects : List Effect} (setsUp : SetsUp id effects) :
    ∀ effect ∈ effects, effect.Within cronless := by
  intro effect member
  cases setsUp with
  | nothing => cases member
  | folder workspaceId path =>
      rw [List.mem_singleton.mp member]
      exact ⟨trivial, trivial, fun _ => trivial⟩
  | worktree workspaceId path root branch ref =>
      rw [List.mem_singleton.mp member]
      exact ⟨trivial, trivial, fun _ => trivial⟩

section Parts

variable (outside : Outside)

theorem createAndStartJob_sameCrons (params : CreateJobParams) :
    Program.Moves SameCrons (Handler.createAndStartJob outside params) := by
  have course := course_sameCrons outside
  have closed := course.toClosed
  unfold Handler.createAndStartJob
  refine (course.readState_moves _).bind closed fun existing => ?_
  split
  · exact Program.moves_pure closed _
  have prepares : Program.Moves SameCrons (Handler.prepareJob outside params) :=
    (prepareJob_aside outside params).weaken fun _ _ aside => course.aside aside
  refine prepares.bindOf closed fun runtime prepared ready prepared_ok => ?_
  obtain ⟨_, setsUp⟩ := prepareJob_ok prepared_ok
  have records : Program.Moves SameCrons (Handler.recordJob outside params prepared) := by
    unfold Handler.recordJob
    refine Program.Moves.bind closed ?_ fun clock => ?_
    · exact fun _ => ⟨fun _ => rfl, fun _ _ => rfl⟩
    refine Program.Moves.bind closed (fun runtime => (blind_sameCrons outside).memory runtime _ _)
      fun _ => course.executeAll_moves fun effect member => ?_
    rcases List.mem_append.mp member with loads | creates
    · obtain ⟨json, _, rfl⟩ := List.mem_map.mp loads
      trivial
    · rw [List.mem_singleton.mp creates]
      trivial
  have launches : Program.Moves SameCrons (Handler.launchJob outside params prepared) := by
    have covers := @sparing_covers _ _ Timer.spared_cron fun _ _ => trivial
    refine course.launchJob_moves (covers _) ?_ ?_ ?_
    · exact fun id _ _ job _ => .inl (covers job.id)
    · exact fun job _ _ _ _ => sparing_route (fun _ _ => trivial) job _
    · exact setsUp.cronless
  exact (records.bind closed fun recorded => (course.notifyStart_moves params prepared).bind closed
    fun notified => launches.bind closed fun launched => Program.moves_pure closed _) ready

theorem startAgentRun_sameCrons (cronName agentName : String) (agentDef : AgentDef)
    (state : CronState) (runbookHash : String) : Program.Moves SameCrons
      (Handler.startAgentRun outside cronName agentName agentDef state runbookHash) := by
  have course := course_sameCrons outside
  have closed := course.toClosed
  unfold Handler.startAgentRun
  refine course.nextReading_moves.bind closed fun reading => ?_
  refine Program.Moves.bind closed (fun _ => ⟨fun _ => rfl, fun _ _ => rfl⟩) fun clock => ?_
  refine ((blind_sameCrons outside).emit_moves trivial).bind closed fun created => ?_
  exact ((alone_sameCrons outside).spawnStandaloneAgent_moves _ _ _ _ _).bind closed fun _ =>
    Program.moves_pure closed _

/-- The cron follows the new runbook, on the same schedule. -/
theorem refreshCronRunbook_sameCrons (cronName : String) :
    Program.Moves SameCrons (Handler.refreshCronRunbook outside cronName) := by
  have course := course_sameCrons outside
  have closed := course.toClosed
  unfold Handler.refreshCronRunbook
  refine (Program.moves_read closed _).bind closed fun state => ?_
  cases state with
  | none => exact Program.moves_pure closed _
  | some state =>
      refine course.nextReading_moves.bind closed fun reading => ?_
      cases reading.runbook with
      | error error => exact Program.moves_throw closed _
      | ok found =>
          cases found with
          | none => exact Program.moves_throw closed _
          | some runbook =>
              dsimp only
              split
              · exact Program.moves_pure closed _
              · refine Program.Moves.bind closed (fun runtime => ⟨fun other => ?_, fun _ _ => rfl⟩)
                  fun _ => ?_
                · change ((runtime.cronStates.modify cronName _)[other]?).map _ = _
                  rw [Table.lookup_modify]
                  split
                  · rw [Option.map_map]
                    exact Option.map_congr fun _ _ => rfl
                  · rfl
                · exact Program.Moves.bind closed
                    (fun runtime => (blind_sameCrons outside).memory runtime _ _)
                    fun _ => Program.moves_pure closed _

theorem cronRunbook_sameCrons (cronName : String) (state : CronState) :
    Program.Moves SameCrons (Handler.cronRunbook outside cronName state) := by
  have course := course_sameCrons outside
  have closed := course.toClosed
  unfold Handler.cronRunbook
  refine (refreshCronRunbook_sameCrons outside cronName).bind closed fun loaded => ?_
  refine Program.Moves.bind closed (course.executeAll_moves ?_) fun _ => ?_
  · intro effect member
    obtain ⟨event, _, rfl⟩ := List.mem_map.mp member
    trivial
  · refine (Program.moves_read closed _).bind closed fun current => ?_
    exact (course.cachedRunbook_moves _).bind closed fun _ => Program.moves_pure closed _

end Parts

/-! ## What a tick does -/

/-- The job or the agent of a tick can be created, unless as many of them run as may. -/
def CronState.CanFire (outside : Outside) (cronName : String) (state : CronState)
    (runbookHash : String) (concurrency : Nat) (runbook : Runbook) (runtime : Runtime) : Prop :=
  match state.runTarget with
  | .job jobName =>
      concurrency ≤ runtime.world.state.countActiveCronJobs cronName state.ns ∨
        Program.Returns (Handler.createAndStartJob outside (Handler.cronJobParams outside cronName
          jobName state runbookHash runbook (runtime.readings 0).uuid)) runtime.afterReading
          fun _ => True
  | .agent agentName => ∃ agentDef, runbook.getAgent agentName = some agentDef ∧
      (agentDef.maxConcurrency.any
          (· ≤ runtime.world.state.countRunningAgents agentName state.ns) = true ∨
        Program.Returns (Handler.startAgentRun outside cronName agentName agentDef state
          runbookHash) runtime fun _ => True)

/-- A file defines the cron, and its content is new or is known. -/
def CronState.FindsRunbook (outside : Outside) (state : CronState) (runtime : Runtime) : Prop :=
  ∃ runbook, (runtime.readings 0).runbook = .ok (some runbook) ∧
    (state.runbookHash = outside.contentHash (outside.encodeRunbook runbook) →
      (runtime.runbookAt outside state.runbookHash).isSome = true)

/-- The runbook is found, and then the job or the agent can be created. -/
def CronState.CanTick (outside : Outside) (cronName : String) (state : CronState)
    (runtime : Runtime) : Prop :=
  state.FindsRunbook outside runtime ∧ ∀ runbookHash concurrency runbook ready,
    Handler.cronRunbook outside cronName state runtime =
        (.ok (runbookHash, concurrency, runbook), ready) →
      state.CanFire outside cronName runbookHash concurrency runbook ready

/-- The timer of the cron has been set, and no schedule is changed otherwise. -/
def Ticked (cronName ns : String) (before after : Runtime) : Prop :=
  (∀ other : String, (after.cronStates[other]?).map CronState.schedule =
    (before.cronStates[other]?).map CronState.schedule) ∧
  ∀ timer, Timer.OfCron timer → after.world.timers.contains timer =
    (timer == Timer.cron cronName ns || before.world.timers.contains timer)

/-- The timer is set if it can be, and otherwise no schedule is changed. -/
structure Outcome (can : Prop) (cronName ns : String) (before after : Runtime) : Prop where
  sets : can → Ticked cronName ns before after
  stops : ¬can → SameCrons before after

def Parses (interval : String) : Prop := ∃ duration, parseDuration interval = .ok duration

section Ticks

variable {outside : Outside} {cronName : String} {state : CronState} {start now : Runtime}
variable (same : SameCrons start now)

theorem Outcome.congr {can able : Prop} {ns : String} {before after : Runtime}
    (outcome : Outcome can cronName ns before after) (iff : able ↔ can) :
    Outcome able cronName ns before after where
  sets := fun holds => outcome.sets (iff.mp holds)
  stops := fun fails => outcome.stops fun holds => fails (iff.mpr holds)

theorem Outcome.stopped {can : Prop} {ns : String} {before after : Runtime} (unable : ¬can)
    (same : SameCrons before after) : Outcome can cronName ns before after where
  sets := fun holds => absurd holds unable
  stops := fun _ => same

include same

theorem Ticked.timing (duration : Nat) :
    Ticked cronName state.ns start (now.timing (Timer.cron cronName state.ns) duration) := by
  refine ⟨same.crons, fun timer ofCron => ?_⟩
  change (now.world.timers.insert (Timer.cron cronName state.ns) _).contains timer = _
  rw [Table.contains_eq_isSome, Table.lookup_insert, Table.contains_eq_isSome,
    ← same.timers timer ofCron]
  split
  · rename_i own
    rw [own, beq_self_eq_true]
    rfl
  · rename_i other
    rw [beq_eq_false_iff_ne.mpr (Ne.symm other)]
    rfl

theorem scheduleCron_outcome {α : Type} (value : α) :
    Outcome (Parses state.interval) cronName state.ns start
      ((do
        Handler.scheduleCron outside cronName state.interval state.ns
        pure value : Handler α) now).2 := by
  rw [Handler.scheduleCron]
  cases parsed : parseDuration state.interval with
  | error error =>
      refine .stopped ?_ same
      rintro ⟨duration, other⟩
      rw [parsed] at other
      cases other
  | ok duration =>
      refine ⟨fun _ => .timing same duration, fun unparsed => ?_⟩
      exact absurd ⟨duration, parsed⟩ unparsed

theorem tickJob_outcome {jobName : String} (target : state.runTarget = .job jobName)
    (runbookHash : String) (concurrency : Nat) (runbook : Runbook) :
    Outcome (Parses state.interval ∧
        state.CanFire outside cronName runbookHash concurrency runbook now) cronName state.ns start
      (Handler.tickJob outside cronName jobName state runbookHash concurrency runbook now).2 := by
  unfold CronState.CanFire
  rw [target, Handler.tickJob, Handler.readState, Program.run_bind, Program.run_read]
  dsimp only
  split
  · rename_i full
    exact (scheduleCron_outcome same []).congr (and_iff_left (.inl full))
  · rename_i spare
    have read : Handler.nextReading now = (.ok (now.readings 0), now.afterReading) := rfl
    rw [Program.bind_ok read, Program.run_bind]
    have moved := createAndStartJob_sameCrons outside (Handler.cronJobParams outside cronName
      jobName state runbookHash runbook (now.readings 0).uuid) now.afterReading
    have reads : SameCrons start now.afterReading := ⟨same.crons, same.timers⟩
    have creates := closed_sameCrons.trans reads moved
    cases ran : Handler.createAndStartJob outside (Handler.cronJobParams outside cronName
        jobName state runbookHash runbook (now.readings 0).uuid) now.afterReading with
    | mk result created =>
        rw [ran] at creates
        cases result with
        | error error =>
            refine .stopped ?_ creates
            rintro ⟨_, full | ⟨events, after, returned, _⟩⟩
            · exact spare full
            · rw [ran] at returned
              cases returned
        | ok events =>
            have fires : SameCrons start (created.emitting outside.order
                (.cronFired cronName (now.readings 0).uuid none state.ns)) :=
              ⟨creates.crons, creates.timers⟩
            have scheduled := @scheduleCron_outcome outside cronName state _ _ fires _
              (events ++ [Event.cronFired cronName (now.readings 0).uuid none state.ns])
            exact scheduled.congr (and_iff_left (.inr ⟨events, created, ran, trivial⟩))

theorem tickAgent_outcome {agentName : String} (target : state.runTarget = .agent agentName)
    (runbookHash : String) (concurrency : Nat) (runbook : Runbook) :
    Outcome (Parses state.interval ∧
        state.CanFire outside cronName runbookHash concurrency runbook now) cronName state.ns start
      (Handler.tickAgent outside cronName agentName state runbookHash runbook now).2 := by
  unfold CronState.CanFire
  rw [target, Handler.tickAgent]
  cases defined : runbook.getAgent agentName with
  | none =>
      refine .stopped ?_ same
      rintro ⟨_, agentDef, other, _⟩
      rw [defined] at other
      cases other
  | some agentDef =>
      have required : Handler.require (.agentNotFound agentName) (some agentDef) now =
          (.ok agentDef, now) := rfl
      rw [Program.bind_ok required, Handler.readState, Program.run_bind, Program.run_read]
      dsimp only
      split
      · rename_i full
        refine (scheduleCron_outcome same []).congr (and_iff_left ?_)
        exact ⟨agentDef, defined, .inl full⟩
      · rename_i spare
        have moved := startAgentRun_sameCrons outside cronName agentName agentDef state runbookHash
          now
        have creates := closed_sameCrons.trans same moved
        rw [Program.run_bind]
        cases ran : Handler.startAgentRun outside cronName agentName agentDef state runbookHash
            now with
        | mk result created =>
            rw [ran] at creates
            cases result with
            | error error =>
                refine .stopped ?_ creates
                rintro ⟨_, other, same, full | ⟨events, after, returned, _⟩⟩
                · rw [defined] at same
                  cases same
                  exact spare full
                · rw [defined] at same
                  cases same
                  rw [ran] at returned
                  cases returned
            | ok started =>
                obtain ⟨agentRunId, events⟩ := started
                have fires : SameCrons start (created.emitting outside.order
                    (.cronFired cronName "" (some agentRunId) state.ns)) :=
                  ⟨creates.crons, creates.timers⟩
                have scheduled := @scheduleCron_outcome outside cronName state _ _ fires _
                  (events ++ [Event.cronFired cronName "" (some agentRunId) state.ns])
                refine scheduled.congr (and_iff_left ?_)
                exact ⟨agentDef, defined, .inr ⟨_, created, ran, trivial⟩⟩

omit same

/-- A look at a known runbook returns, and no other does. -/
theorem cachedRunbook_returns_iff {hash : String} {runtime : Runtime} :
    Program.Returns (Handler.cachedRunbook outside hash) runtime (fun _ => True) ↔
      (runtime.runbookAt outside hash).isSome = true := by
  cases known : runtime.runbookAt outside hash with
  | none =>
      obtain ⟨error, failed⟩ := Handler.cachedRunbook_unknown outside known
      refine iff_of_false ?_ Bool.false_ne_true
      rintro ⟨runbook, after, returned, _⟩
      rw [failed] at returned
      cases returned
  | some runbook =>
      obtain ⟨_, ran, _, _⟩ := Handler.cachedRunbook_known outside known
      exact iff_of_true ⟨runbook, _, ran, trivial⟩ rfl

/-- What a tick makes of the runbook that it reads. -/
theorem refreshCronRunbook_run {runtime : Runtime}
    (found : runtime.cronStates[cronName]? = some state) :
    (∀ runbook, (runtime.readings 0).runbook = .ok (some runbook) →
      let hash := outside.contentHash (outside.encodeRunbook runbook)
      (state.runbookHash = hash ∧ Handler.refreshCronRunbook outside cronName runtime =
          (.ok none, runtime.afterReading)) ∨
        ∃ event after, Handler.refreshCronRunbook outside cronName runtime =
            (.ok (some event), after) ∧ state.runbookHash ≠ hash ∧
          (after.cronStates[cronName]?).map (·.runbookHash) = some hash ∧
          after.runbookCache[hash]? = some runbook) ∧
    ((∀ runbook, (runtime.readings 0).runbook ≠ .ok (some runbook)) →
      Program.Fails (Handler.refreshCronRunbook outside cronName) runtime) := by
  unfold Program.Fails
  rw [Handler.refreshCronRunbook, Program.run_bind, Program.run_read]
  dsimp only
  rw [found]
  dsimp only
  have read : Handler.nextReading runtime = (.ok (runtime.readings 0), runtime.afterReading) := rfl
  rw [Program.bind_ok read]
  constructor
  · intro runbook readable
    rw [readable]
    dsimp only
    split
    · rename_i same
      exact .inl ⟨same, rfl⟩
    · rename_i changed
      refine .inr ⟨_, _, rfl, changed, ?_, ?_⟩
      · change ((runtime.cronStates.modify cronName _)[cronName]?).map _ = _
        rw [Table.lookup_modify, if_pos rfl, found]
        rfl
      · exact (Table.lookup_insert _ _ _ _).trans (if_pos rfl)
  · intro unreadable
    cases readable : (runtime.readings 0).runbook with
    | error error => exact ⟨_, _, rfl⟩
    | ok file =>
        cases file with
        | none => exact ⟨_, _, rfl⟩
        | some runbook => exact absurd readable (unreadable runbook)

theorem cronRunbook_returns_iff {runtime : Runtime}
    (found : runtime.cronStates[cronName]? = some state) :
    Program.Returns (Handler.cronRunbook outside cronName state) runtime (fun _ => True) ↔
      state.FindsRunbook outside runtime := by
  obtain ⟨reads, fails⟩ := @refreshCronRunbook_run outside cronName state runtime found
  have looks : ∀ (hash : String) (ready : Runtime),
      (ready.cronStates[cronName]?).map (·.runbookHash) = some hash →
      (Program.Returns (do
        let current ← Program.read fun runtime : Runtime => runtime.cronStates[cronName]?
        let runbookHash := (current.map (·.runbookHash)).getD state.runbookHash
        let concurrency := (current.map (·.concurrency)).getD state.concurrency
        let runbook ← Handler.cachedRunbook outside runbookHash
        pure (runbookHash, concurrency, runbook) : Handler (String × Nat × Runbook)) ready
          (fun _ => True) ↔ (ready.runbookAt outside hash).isSome = true) := by
    intro hash ready current
    rw [← cachedRunbook_returns_iff]
    unfold Program.Returns
    rw [Program.run_bind, Program.run_read]
    dsimp only
    rw [current, Option.getD_some, Program.run_bind]
    cases Handler.cachedRunbook outside hash ready with
    | mk result after =>
        cases result with
        | error error =>
            constructor
            · rintro ⟨_, _, never, _⟩
              cases never
            · rintro ⟨_, _, never, _⟩
              cases never
        | ok runbook => exact iff_of_true ⟨_, _, rfl, trivial⟩ ⟨_, _, rfl, trivial⟩
  rcases Classical.em (∃ runbook, (runtime.readings 0).runbook = .ok (some runbook)) with
    ⟨runbook, readable⟩ | unreadable
  · have only : ∀ P : Runbook → Prop, (∃ runbook, (runtime.readings 0).runbook = .ok (some runbook) ∧
        P runbook) ↔ P runbook := by
      intro P
      constructor
      · rintro ⟨other, same, holds⟩
        rw [readable] at same
        cases same
        exact holds
      · exact fun holds => ⟨runbook, readable, holds⟩
    rw [CronState.FindsRunbook, only, Handler.cronRunbook]
    rcases reads runbook readable with ⟨same, ran⟩ | ⟨event, after, ran, changed, current, cached⟩
    · have kept : (runtime.afterReading.cronStates[cronName]?).map (·.runbookHash) =
          some state.runbookHash := congrArg (Option.map (·.runbookHash)) found
      have emits : Handler.executeAll outside ((none : Option Event).toList.map .emit)
          runtime.afterReading = (.ok [], runtime.afterReading) := rfl
      rw [Program.returns_bind ran, Program.returns_bind emits, looks _ _ kept]
      exact ⟨fun known _ => known, fun known => known same⟩
    · have emits := Handler.executeAll_emit outside event after
      have kept : ((after.emitting outside.order event).cronStates[cronName]?).map (·.runbookHash) =
          some (outside.contentHash (outside.encodeRunbook runbook)) := current
      have known : (after.emitting outside.order event).runbookAt outside
          (outside.contentHash (outside.encodeRunbook runbook)) = some runbook := by
        have kept : (after.emitting outside.order event).runbookCache = after.runbookCache := rfl
        unfold Runtime.runbookAt
        rw [kept, cached]
      rw [Program.returns_bind ran]
      refine (Program.returns_bind emits).trans ?_
      rw [looks _ _ kept, known]
      exact iff_of_true rfl fun same => absurd same changed
  · rw [Handler.cronRunbook]
    obtain ⟨error, after, failed⟩ := fails fun runbook readable => unreadable ⟨runbook, readable⟩
    refine iff_of_false ?_ fun ⟨runbook, readable, _⟩ => unreadable ⟨runbook, readable⟩
    rintro ⟨_, _, returned, _⟩
    rw [Program.bind_error failed] at returned
    cases returned

/-- A tick of a cron that runs sets the next timer exactly if all that comes before returns. -/
theorem handleCronTimerFired_outcome {rest : String} {runtime : Runtime}
    (found : runtime.cronStates[afterLastSlash rest]? = some state)
    (running : state.status = .running) :
    Outcome (Parses state.interval ∧ state.CanTick outside (afterLastSlash rest) runtime)
      (afterLastSlash rest) state.ns runtime
      (Handler.handleCronTimerFired outside rest runtime).2 := by
  have moved := cronRunbook_sameCrons outside (afterLastSlash rest) state runtime
  rw [Handler.handleCronTimerFired, Program.run_bind, Program.run_read]
  dsimp only
  rw [found]
  dsimp only
  rw [if_pos running, Program.run_bind]
  cases ran : Handler.cronRunbook outside (afterLastSlash rest) state runtime with
  | mk result ready =>
      rw [ran] at moved
      cases result with
      | error error =>
          refine .stopped ?_ moved
          rintro ⟨_, finds, _⟩
          obtain ⟨_, _, returned, _⟩ := (cronRunbook_returns_iff found).mpr finds
          rw [ran] at returned
          cases returned
      | ok read =>
          obtain ⟨runbookHash, concurrency, runbook⟩ := read
          have fires : state.CanTick outside (afterLastSlash rest) runtime ↔
              state.CanFire outside (afterLastSlash rest) runbookHash concurrency runbook ready := by
            constructor
            · exact fun able => able.2 _ _ _ _ ran
            · intro able
              refine ⟨(cronRunbook_returns_iff found).mp ⟨_, ready, ran, trivial⟩, ?_⟩
              intro hash limit read after returned
              rw [ran] at returned
              cases returned
              exact able
          cases target : state.runTarget with
          | job jobName =>
              exact (tickJob_outcome moved target _ _ _).congr (and_congr_right fun _ => fires)
          | agent agentName =>
              exact (tickAgent_outcome moved target _ _ _).congr (and_congr_right fun _ => fires)

/-- A tick of no cron that runs changes nothing. -/
theorem handleCronTimerFired_skips {rest : String} {runtime : Runtime}
    (stopped : ∀ state, runtime.cronStates[afterLastSlash rest]? = some state →
      state.status ≠ .running) :
    Handler.handleCronTimerFired outside rest runtime = (.ok [], runtime) := by
  rw [Handler.handleCronTimerFired, Program.run_bind, Program.run_read]
  dsimp only
  cases found : runtime.cronStates[afterLastSlash rest]? with
  | none => rfl
  | some state =>
      dsimp only
      rw [if_neg (stopped state found)]
      rfl

end Ticks

end OddJobs
