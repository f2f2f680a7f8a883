import OddJobs.Daemon.ExternalQueue
import OddJobs.Engine.Tallies

/-!
# Released items

From its first start on, a worker of an external queue is to have in flight exactly the
items that are being taken and those whose jobs have not ended.  A take command whose
item gets no job after all keeps the item in flight for good.
-/

namespace OddJobs

open Library

/-! ## The first start -/

section FirstStart

variable {outside : Outside} {workerName ns : String} {workerDef : WorkerDef} {queueDef : QueueDef}
  {jobs held : List (JobId × String)} {runtime : Runtime} (projectRoot : PathBuf)
  (runbookHash : String)

/-- A worker that starts for the first time has nothing in flight. -/
theorem startedState_tallies {state : MaterializedState} (external : queueDef.queueType = .external)
    (unlisted : state.jobsOfWorker workerName ns = []) :
    Tallies [] [] (Handler.startedState state workerName projectRoot runbookHash ns workerDef
      queueDef) := by
  let started := Handler.startedState state workerName projectRoot runbookHash ns workerDef queueDef
  have unmapped : started.itemJobMap = ∅ := by
    refine Table.ext fun id => ?_
    rw [startedState_itemJobMap, unlisted, if_neg List.not_mem_nil, Table.lookup_empty]
  have idle : started.inflightItems = ∅ := by
    have filled : started.inflightItems =
        started.itemJobMap.toList.foldl (fun items entry => items.insert entry.2 ()) ∅ := by
      unfold started Handler.startedState
      dsimp only
      rw [external]
    rw [filled, unmapped]
    rfl
  constructor
  · rfl
  · exact external
  · rfl
  · intro entry member
    cases member
  · intro id item
    rw [show (Handler.startedState state workerName projectRoot runbookHash ns workerDef
      queueDef).itemJobMap = ∅ from unmapped, Table.lookup_empty]
    exact ⟨(fun present => nomatch present), (fun member => nomatch member)⟩
  · intro item
    rw [show (Handler.startedState state workerName projectRoot runbookHash ns workerDef
      queueDef).inflightItems = ∅ from idle, Std.ExtTreeMap.contains_empty]
    constructor
    · exact fun absurd => nomatch absurd
    · rintro (⟨take, member, _⟩ | ⟨entry, member, _⟩)
      · cases member
      · cases member
  · exact List.nodup_nil

/-- The first start of a worker. -/
theorem handleWorkerStarted_tallying {takes : List (String × Value)}
    (absent : runtime.workerStates[workerName]? = none)
    (unlisted : runtime.world.state.jobsOfWorker workerName ns = [])
    (defined : ∀ workerDef queueDef, Starts outside workerName runbookHash runtime workerDef
      queueDef → queueDef.queueType = .external) :
    Tallying workerName takes jobs held runtime
      (Handler.handleWorkerStarted outside workerName projectRoot runbookHash ns runtime).2 := by
  rcases @handleWorkerStarted_run outside workerName ns runtime projectRoot runbookHash with
    ⟨quiet, _⟩ | ⟨workerDef, queueDef, looked, starts, quiet, same, started⟩
  · exact quiet.tallying
  · have external := defined workerDef queueDef starts
    refine quiet.then_tallying fun tallied => ?_
    have absentThen : looked.workerStates[workerName]? = none := by
      have slots := quiet.slots workerName
      rw [absent, Option.map_none] at slots
      exact Option.map_eq_none_iff.mp slots
    obtain ⟨rfl, rfl⟩ := tallied.idle absentThen
    have free : held = [] := by
      refine List.eq_nil_iff_forall_not_mem.mpr fun entry member => ?_
      cases tallied.created entry member
    subst free
    have unlistedThen : looked.world.state.jobsOfWorker workerName ns = [] := by
      rw [same]
      exact unlisted
    let state := Handler.startedState looked.world.state workerName projectRoot runbookHash ns
      workerDef queueDef
    let begun := looked.starting projectRoot runbookHash workerName ns workerDef queueDef
    have tallies : Tallies [] [] state :=
      startedState_tallies projectRoot runbookHash external unlistedThen
    have located : ∀ name : String, begun.workerStates[name]? =
        if workerName = name then some state else looked.workerStates[name]? := fun name =>
      Table.lookup_insert looked.workerStates workerName name state
    have inactive : ∀ id, state.activeJobs.contains id = false := by
      intro id
      rw [Bool.eq_false_iff]
      intro active
      have listed := (startedState_active projectRoot runbookHash looked.world.state id).mp active
      rw [unlistedThen] at listed
      cases listed
    have idle : Handler.reconcileActiveJobs outside workerName begun = (.ok (), begun) :=
      reconcileActiveJobs_first projectRoot runbookHash unlistedThen
    have last : Quiet (Handler.reconcileActiveJobs outside workerName begun).2
        (Handler.handleWorkerStarted outside workerName projectRoot runbookHash ns runtime).2 :=
      started external
    rw [idle] at last
    have tracked : Tallied workerName [] [] [] begun := by
      constructor
      · refine ⟨tallied.fresh.apart, tallied.fresh.jobs, fun n name other present => ?_⟩
        rw [located] at present
        split at present
        · cases present
          refine ⟨inactive _, ?_⟩
          rw [startedState_itemJobMap, unlistedThen, if_neg List.not_mem_nil]
        · exact tallied.fresh.workers n name other present
      · exact tallied.unused
      · exact tallied.named
      · exact tallied.created
      · exact tallied.working
      · exact fun _ => ⟨rfl, rfl⟩
      · intro _ _ _ _ entry member
        cases member
      · intro other present
        rw [located, if_pos rfl] at present
        cases present
        exact tallies
    refine ⟨[], ?_, last.jobs, tracked.quiet last⟩
    rw [last.takes, List.append_nil]
    rfl

end FirstStart

/-- What the end of a job leaves alone keeps the tally. -/
theorem Tallied.parting {workerName : String} {takes : List (String × Value)}
    {jobs held : List (JobId × String)} {id : JobId} {before after : Runtime}
    (tallied : Tallied workerName takes jobs held before) (parting : Parting id before after) :
    Tallied workerName takes jobs held after := by
  obtain ⟨read, readings⟩ := parting.readings
  constructor
  · constructor
    · intro m n differs
      rw [readings, readings]
      exact tallied.fresh.apart _ _ (by omega)
    · intro n other job found
      have present := Option.isSome_of_mem found
      rw [parting.known] at present
      obtain ⟨prior, stored⟩ := Option.isSome_iff_exists.mp present
      rw [readings]
      exact tallied.fresh.jobs (n + read) other prior stored
    · intro n
      rw [readings, parting.workers]
      exact tallied.fresh.workers (n + read)
  · intro n entry member
    rw [readings]
    exact tallied.unused (n + read) entry member
  · exact tallied.named
  · exact tallied.created
  · intro entry live
    obtain ⟨member, working⟩ := List.mem_filter.mp live
    refine tallied.working entry (List.mem_filter.mpr ⟨member, ?_⟩)
    rcases Decidable.em (entry.1 = id) with same | differs
    · rw [same] at working ⊢
      by_contra idle
      rw [parting.ended (Bool.eq_false_iff.mpr idle)] at working
      cases working
    · rw [atWork_eq, ← parting.others entry.1 differs, ← atWork_eq]
      exact working
  · rw [parting.workers]
    exact tallied.idle
  · rw [parting.workers]
    exact tallied.others
  · rw [parting.workers]
    exact tallied.worker

/-! ## Runs -/

/-- What happens: an event of the worker is processed, a job ends, or something around
them. -/
inductive HeldMove where
  | own (event : Event)
  | ends (ending : JobEnding) (job : Job)
  | around (runtime : Runtime)

namespace HeldMove

def next (outside : Outside) (others : OtherHandlers) (run : TakeRun) : HeldMove → TakeRun
  | .own event => run.step outside others event
  | .ends ending job => { run with runtime := (ending.handler outside job run.runtime).2 }
  | .around runtime => { run with runtime }

/-- What happens around a worker leaves its slots alone and gives none of its jobs to
another worker, and new ids remain new. -/
structure Around (workerName : String) (run : TakeRun) (after : Runtime) : Prop where
  slots : (after.workerStates[workerName]?).map WorkerState.slots =
    (run.runtime.workerStates[workerName]?).map WorkerState.slots
  others : ∀ (name : String) (other : WorkerState), name ≠ workerName →
    after.workerStates[name]? = some other →
    ∀ entry ∈ liveJobs run.jobs run.runtime, other.activeJobs.contains entry.1 = false
  fresh : FreshIds after
  unused : ∀ n, ∀ entry ∈ run.jobs, entry.1 ≠ (after.readings n).uuid

/-- The events of a worker of an external queue that is started once and not stopped, and
the ends of jobs.  Take commands end in any order, with any exit code. -/
def Concerns (outside : Outside) (workerName : String) (run : TakeRun) : HeldMove → Prop
  | .own (.workerStarted name _ runbookHash _ _ ns) => name = workerName ∧
      run.runtime.workerStates[workerName]? = none ∧
      run.runtime.world.state.jobsOfWorker workerName ns = [] ∧
      ∀ workerDef queueDef, Starts outside workerName runbookHash run.runtime workerDef queueDef →
        queueDef.queueType = .external
  | .own (.workerWake name _) | .own (.workerPollComplete name _) | .own (.workerResized name _ _) =>
      name = workerName
  | .own (.workerTakeComplete name itemId item _ _) => name = workerName ∧ (itemId, item) ∈ run.takes
  | .own (.jobAdvanced _ step) => isTerminalStep step = true
  | .own _ => False
  | .ends ending job => ending.Enters job run.runtime
  | .around runtime => Around workerName run runtime

/-- An item that has been taken gets its job; the adapters do what the end of a job asks
for; and around that no job of the worker ends or goes back to work. -/
def Delivers (outside : Outside) (workerName : String) (run : TakeRun) : HeldMove → Prop
  | .own (.workerTakeComplete name itemId item exitCode errors) =>
      exitCode = 0 → CanTake outside workerName item (run.runtime.applying outside.order
        (.workerTakeComplete name itemId item exitCode errors))
  | .own _ => True
  | .ends ending job => ending.Succeeds outside job run.runtime
  | .around runtime => liveJobs run.jobs runtime = liveJobs run.jobs run.runtime

end HeldMove

/-- The runs in which every move meets the condition. -/
inductive HeldRun (outside : Outside) (others : OtherHandlers) (workerName : String)
    (condition : TakeRun → HeldMove → Prop) : TakeRun → Prop
  /-- The worker has not been started. -/
  | start {runtime : Runtime} : runtime.workerStates[workerName]? = none → FreshIds runtime →
      HeldRun outside others workerName condition ⟨runtime, [], []⟩
  | next {run : TakeRun} {move : HeldMove} : HeldRun outside others workerName condition run →
      move.Concerns outside workerName run → condition run move →
      HeldRun outside others workerName condition (move.next outside others run)

namespace TakeRun

/-- The worker counts its take commands, and has in flight the items that they take and
those of its jobs that are not terminal. -/
def Released (workerName : String) (run : TakeRun) : Prop :=
  ∀ state : WorkerState, run.runtime.workerStates[workerName]? = some state →
    state.pendingTakes = run.takes.length ∧
    ∀ item : String, state.inflightItems.contains item = true ↔
      (∃ take ∈ run.takes, take.1 = item) ∨
        ∃ entry ∈ liveJobs run.jobs run.runtime, entry.2 = item

def HoldsLive (workerName : String) (run : TakeRun) : Prop :=
  Tallied workerName run.takes run.jobs (liveJobs run.jobs run.runtime) run.runtime

theorem HoldsLive.released {workerName : String} {run : TakeRun} (kept : run.HoldsLive workerName) :
    run.Released workerName := by
  intro state found
  have tallies := Tallied.worker kept state found
  exact ⟨tallies.pending, tallies.inflight⟩

end TakeRun

namespace HeldMove

section Steps

variable {outside : Outside} {others : OtherHandlers} {workerName : String} {run : TakeRun}

/-- An event that may have items taken, and creates no job. -/
theorem kept_of_tallying {event : Event} (remaining : event.remaining run.takes = run.takes)
    (tallying : Tallying workerName run.takes run.jobs (liveJobs run.jobs run.runtime) run.runtime
      (Handler.processEvent outside others event run.runtime).2)
    (kept : run.HoldsLive workerName) : (run.step outside others event).HoldsLive workerName := by
  obtain ⟨fired, taken, sameJobs, tallied⟩ := tallying kept
  have none : jobsFor event.takenItem run.runtime
      (Handler.processEvent outside others event run.runtime).2 = [] := jobsFor_eq_nil sameJobs
  unfold TakeRun.HoldsLive TakeRun.step
  dsimp only
  rw [none, List.append_nil, remaining, taken, List.drop_left, liveJobs_congr sameJobs]
  exact tallied

/-- A job ends, and its worker is told. -/
theorem kept_ends {ending : JobEnding} {job : Job} (kept : run.HoldsLive workerName)
    (enters : ending.Enters job run.runtime) (succeeds : ending.Succeeds outside job run.runtime) :
    (HeldMove.next outside others run (.ends ending job)).HoldsLive workerName := by
  obtain ⟨carried, moved, idle, last⟩ := JobEnding.handler_tells succeeds enters
  have ended : ∀ entry ∈ liveJobs run.jobs carried, entry.1 ≠ job.id := by
    rintro entry live same
    have working := (List.mem_filter.mp live).2
    rw [same, idle] at working
    cases working
  obtain ⟨tallied, _, same⟩ := @checkWorkerJobComplete_tallied outside workerName run.takes run.jobs
    (liveJobs run.jobs run.runtime) carried (Tallied.parting kept moved) job.id ending.terminalStep
    ended
  have idleThen : ((Handler.checkWorkerJobComplete outside job.id ending.terminalStep
      carried).2.world.state.jobs[job.id]?).any (!·.isTerminal) = false := by
    rw [same]
    exact idle
  have live : liveJobs run.jobs (ending.handler outside job run.runtime).2 =
      (liveJobs run.jobs run.runtime).filter (·.1 ≠ job.id) := by
    rw [last.liveJobs run.jobs idleThen, liveJobs_congr same]
    exact moved.liveJobs_without run.jobs idle
  unfold TakeRun.HoldsLive next
  dsimp only
  rw [live]
  exact tallied.parting last

/-- What goes on around the worker keeps the tally. -/
theorem kept_around {after : Runtime} (kept : run.HoldsLive workerName)
    (around : Around workerName run after)
    (live : liveJobs run.jobs after = liveJobs run.jobs run.runtime) :
    (HeldMove.next outside others run (.around after)).HoldsLive workerName := by
  obtain ⟨slots, others, fresh, unused⟩ := around
  unfold TakeRun.HoldsLive next
  dsimp only
  rw [live]
  constructor
  · exact fresh
  · exact unused
  · exact Tallied.named kept
  · exact Tallied.created kept
  · rw [live]
    exact fun _ holds => holds
  · intro absent
    rw [absent, Option.map_none] at slots
    exact Tallied.idle kept (Option.map_eq_none_iff.mp slots.symm)
  · exact others
  · intro state found
    rw [found, Option.map_some] at slots
    obtain ⟨prior, present, same⟩ := Option.map_eq_some_iff.mp slots.symm
    exact (Tallied.worker kept prior present).of_slots same.symm

/-- A worker that is started has no jobs, and polls its queue. -/
theorem kept_started {projectRoot : PathBuf} {runbookHash queueName ns : String} {slots : Nat}
    (kept : run.HoldsLive workerName)
    (absent : run.runtime.workerStates[workerName]? = none)
    (unlisted : run.runtime.world.state.jobsOfWorker workerName ns = [])
    (defined : ∀ workerDef queueDef, Starts outside workerName runbookHash run.runtime workerDef
      queueDef → queueDef.queueType = .external) :
    (run.step outside others
      (.workerStarted workerName projectRoot runbookHash queueName slots ns)).HoldsLive workerName := by
  let event := Event.workerStarted workerName projectRoot runbookHash queueName slots ns
  let applied := run.runtime.applying outside.order event
  have sameJobs : applied.world.state.jobs = run.runtime.world.state.jobs :=
    run.runtime.world.state.recordProjectRoot_jobs ns projectRoot
  have starts := @starts_applying outside workerName runbookHash run.runtime outside.order event rfl
  refine kept_of_tallying rfl (fun tallied => ?_) kept
  have unlistedThen : applied.world.state.jobsOfWorker workerName ns = [] :=
    (jobsOfWorker_started run.runtime.world.state workerName projectRoot runbookHash queueName slots
      ns).trans unlisted
  obtain ⟨fired, taken, same, last⟩ := @handleWorkerStarted_tallying outside workerName ns run.jobs
    (liveJobs run.jobs run.runtime) applied projectRoot runbookHash run.takes absent unlistedThen
    (fun workerDef queueDef begins =>
      defined workerDef queueDef ((starts workerDef queueDef).mp begins))
    (tallied.congr sameJobs rfl rfl)
  exact ⟨fired, taken, same.trans sameJobs, last⟩

/-- A take command ends. -/
theorem kept_taken {itemId : String} {item : Value} {exitCode : Int} {errors : Option String}
    (kept : run.HoldsLive workerName) (underWay : (itemId, item) ∈ run.takes)
    (able : exitCode = 0 → CanTake outside workerName item (run.runtime.applying outside.order
      (.workerTakeComplete workerName itemId item exitCode errors))) :
    (run.step outside others
      (.workerTakeComplete workerName itemId item exitCode errors)).HoldsLive workerName := by
  let applied := run.runtime.applying outside.order
    (.workerTakeComplete workerName itemId item exitCode errors)
  have tallied : Tallied workerName run.takes run.jobs (liveJobs run.jobs run.runtime) applied :=
    Tallied.congr kept rfl rfl rfl
  obtain ⟨taken, live, last⟩ := handleWorkerTakeComplete_tallied tallied underWay able
  unfold TakeRun.HoldsLive TakeRun.step
  dsimp only
  rw [show (Handler.processEvent outside others (.workerTakeComplete workerName itemId item exitCode
    errors) run.runtime).2.world.takes = run.runtime.world.takes from taken, List.drop_length,
    List.append_nil]
  refine Eq.subst (motive := fun held => Tallied workerName _ _ held _) live.symm ?_
  exact last

/-- The end of a job is read from the log. -/
theorem kept_advanced {id : JobId} {step : String} (kept : run.HoldsLive workerName)
    (terminal : isTerminalStep step = true) :
    (run.step outside others (.jobAdvanced id step)).HoldsLive workerName := by
  let applied := run.runtime.applying outside.order (.jobAdvanced id step)
  have moved : Parting id run.runtime applied :=
    parting_applying (.inr ⟨step, rfl, terminal⟩) run.runtime
  have idle := ended_applyJobAdvanced (run.runtime.world.clocks 0) id terminal
    run.runtime.world.state
  have ended : ∀ entry ∈ liveJobs run.jobs applied, entry.1 ≠ id := by
    rintro entry live rfl
    have working := (List.mem_filter.mp live).2
    rw [show (applied.world.state.jobs[entry.1]?).any (!·.isTerminal) = false from idle] at working
    cases working
  obtain ⟨last, taken, same⟩ := @checkWorkerJobComplete_tallied outside workerName run.takes
    run.jobs (liveJobs run.jobs run.runtime) applied (Tallied.parting kept moved) id step ended
  have routed : Handler.processEvent outside others (.jobAdvanced id step) run.runtime =
      Handler.checkWorkerJobComplete outside id step applied := by
    rw [Handler.processEvent_run, Handler.handleEvent]
    rw [if_pos terminal]
  have none : jobsFor "" run.runtime
      (Handler.checkWorkerJobComplete outside id step applied).2 = [] := by
    refine List.map_eq_nil_iff.mpr (newJobs_eq_nil fun other => ?_)
    rw [same]
    exact moved.known other
  unfold TakeRun.HoldsLive TakeRun.step
  dsimp only [Event.remaining, Event.takenItem]
  rw [routed, none, taken, List.append_nil, show applied.world.takes =
    run.runtime.world.takes from rfl, List.drop_length, List.append_nil,
    liveJobs_congr same, moved.liveJobs_without run.jobs idle]
  exact last

/-- One move keeps the tally. -/
theorem kept_next {move : HeldMove} (kept : run.HoldsLive workerName)
    (concerns : move.Concerns outside workerName run)
    (delivers : move.Delivers outside workerName run) :
    (move.next outside others run).HoldsLive workerName := by
  cases move with
  | ends ending job => exact kept_ends kept concerns delivers
  | around runtime => exact kept_around kept concerns delivers
  | own event =>
      cases event with
      | workerStarted name projectRoot runbookHash queueName slots space =>
          obtain ⟨rfl, absent, unlisted, defined⟩ := concerns
          exact kept_started kept absent unlisted defined
      | workerWake name space =>
          cases concerns
          refine kept_of_tallying rfl (Quiet.tallying ?_) kept
          have applied : Quiet run.runtime
              (run.runtime.applying outside.order (.workerWake workerName space)) :=
            ⟨rfl, rfl, rfl, fun _ => rfl, 0, fun _ => rfl⟩
          exact applied.trans (Handler.handleWorkerWake_quiet outside workerName _)
      | workerPollComplete name items =>
          cases concerns
          have applied : Quiet run.runtime
              (run.runtime.applying outside.order (.workerPollComplete workerName items)) :=
            ⟨rfl, rfl, rfl, fun _ => rfl, 0, fun _ => rfl⟩
          refine kept_of_tallying rfl ?_ kept
          exact applied.then_tallying (handleWorkerPollComplete_tallying items _)
      | workerResized name slots space =>
          cases concerns
          let applied := run.runtime.applying outside.order (.workerResized workerName slots space)
          refine kept_of_tallying rfl (fun tallied => ?_) kept
          exact handleWorkerResized_tallying slots applied (tallied.congr rfl rfl rfl)
      | workerTakeComplete name itemId item exitCode errors =>
          obtain ⟨rfl, underWay⟩ := concerns
          exact kept_taken kept underWay delivers
      | jobAdvanced id step => exact kept_advanced kept concerns
      | _ => exact concerns.elim

end Steps

end HeldMove

theorem HeldRun.kept {outside : Outside} {others : OtherHandlers} {workerName : String}
    {run : TakeRun}
    (reached : HeldRun outside others workerName (fun run move =>
      move.Delivers outside workerName run) run) : run.HoldsLive workerName := by
  induction reached with
  | start absent fresh =>
      constructor
      · exact fresh
      · intro _ entry member
        cases member
      · intro take member
        cases member
      · intro entry member
        cases member
      · intro entry member
        cases member
      · exact fun _ => ⟨rfl, rfl⟩
      · intro _ _ _ _ entry member
        cases member
      · intro state found
        rw [absent] at found
        cases found
  | next _ concerns delivers ih => exact HeldMove.kept_next ih concerns delivers

namespace HeldRun

/-- The worker of the feed, which has not been started, in surroundings that give the
readings. -/
def feed (readings : Nat → Reading) : TakeRun where
  runtime := { TakeRun.feed.runtime with readings }
  takes := []
  jobs := []

def after (run : TakeRun) (events : List Event) : TakeRun :=
  events.foldl (fun run event => run.step (.plain .feed) .silent event) run

/-- The readings in which the runbook file is gone when it is read for the second time. -/
def flickering (n : Nat) : Reading :=
  if n = 1 then { TakeRun.feed.runtime.readings n with runbook := .ok none }
  else TakeRun.feed.runtime.readings n

theorem flickering_uuid (n : Nat) :
    (flickering n).uuid = (TakeRun.feed.runtime.readings n).uuid := by
  unfold flickering
  split
  · rfl
  · rfl

theorem freshIds_feed {readings : Nat → Reading}
    (ids : ∀ n, (readings n).uuid = (TakeRun.feed.runtime.readings n).uuid) :
    FreshIds (feed readings).runtime := by
  have fresh := TakeRun.newIds_feed.toFreshIds
  constructor
  · intro m n differs
    change ¬((readings m).uuid.toList <+: (readings n).uuid.toList)
    rw [ids, ids]
    exact fresh.apart m n differs
  · intro n
    change ∀ id job, _ → ¬((readings n).uuid.toList <+: _)
    rw [ids]
    exact fresh.jobs n
  · intro n
    change Untracked (readings n).uuid _
    rw [ids]
    exact fresh.workers n

/-- The worker is started and takes the item. -/
theorem reaches_feedPoll {readings : Nat → Reading} {condition : TakeRun → HeldMove → Prop}
    (ids : ∀ n, (readings n).uuid = (TakeRun.feed.runtime.readings n).uuid)
    (checked : (feed readings).startsAs = some (1, .external))
    (starts : ∀ run, condition run (.own TakeRun.feedStart))
    (polls : ∀ run, condition run (.own TakeRun.feedPoll)) :
    HeldRun (.plain .feed) .silent "joiner" condition
      (after (feed readings) [TakeRun.feedStart, TakeRun.feedPoll]) := by
  have concerns : HeldMove.Concerns (.plain .feed) "joiner" (feed readings)
      (.own TakeRun.feedStart) := by
    refine ⟨rfl, Table.lookup_empty _, TakeRun.jobsOfWorker_feed, fun workerDef queueDef begins => ?_⟩
    exact ((TakeRun.concerns_feedStart checked).2.2 workerDef queueDef begins).2
  have started : HeldRun (.plain .feed) .silent "joiner" condition
      (after (feed readings) [TakeRun.feedStart]) :=
    .next (.start (Table.lookup_empty _) (freshIds_feed ids)) concerns (starts _)
  exact @HeldRun.next _ _ _ _ _ (.own TakeRun.feedPoll) started rfl (polls _)

/-- The worker has taken the item, in surroundings that answer well. -/
def feedPolled : TakeRun :=
  after (feed TakeRun.feed.runtime.readings) [TakeRun.feedStart, TakeRun.feedPoll]

/-- The item that is taken gets its job. -/
theorem delivers_feedTaken (kept : feedPolled.HoldsLive "joiner") :
    HeldMove.Delivers (.plain .feed) "joiner" feedPolled (.own TakeRun.feedTaken) := by
  intro _
  let counted := (feedPolled.runtime.applying .byKey TakeRun.feedTaken).updating "joiner" fun state =>
    { state with pendingTakes := state.pendingTakes - 1 }
  let refreshed := Handler.refreshWorkerRunbook (.plain .feed) "joiner" counted
  let after := (Handler.dispatchQueueItem (.plain .feed) "joiner" feedItem refreshed.2).2
  have fresh : FreshIds refreshed.2 := by
    refine FreshIds.quiet ?_ (Handler.refreshWorkerRunbook_quiet (.plain .feed) "joiner" counted)
    have applied : Tallied "joiner" feedPolled.takes feedPolled.jobs
        (liveJobs feedPolled.jobs feedPolled.runtime)
        (feedPolled.runtime.applying .byKey TakeRun.feedTaken) := Tallied.congr kept rfl rfl rfl
    exact applied.fresh.modify "joiner" fun _ _ inactive unmapped => ⟨inactive, unmapped⟩
  have reads : refreshed.1.toOption.isSome = true := by decide +kernel
  have unmapped : (refreshed.2.workerStates["joiner"]?).all (·.itemJobMap.isEmpty) = true := by
    decide +kernel
  have tracked : ((after.workerStates["joiner"]?).bind fun worker => worker.itemJobMap["aab"]?) =
      some "a" := by
    decide +kernel
  have atWork : ((after.world.state.jobs["aab"]?).map (·.isTerminal)) = some false := by
    decide +kernel
  obtain ⟨worker, present, mapped⟩ := Option.bind_eq_some_iff.mp tracked
  obtain ⟨job, stored, live⟩ := Option.map_eq_some_iff.mp atWork
  have able : CanDispatch (.plain .feed) "joiner" feedItem refreshed.2 := by
    refine ((dispatchQueueItem_ends fresh).2.mp
      ⟨worker, "aab", present, mapped, job, stored, live⟩).resolve_left ?_
    rintro ⟨state, id, found, maps, _⟩
    rw [found, Option.all_some] at unmapped
    rw [Std.ExtTreeMap.isEmpty_iff.mp unmapped, Table.lookup_empty] at maps
    cases maps
  rcases ran : refreshed with ⟨result, turn⟩
  rw [ran] at reads able
  cases result with
  | error error => cases reads
  | ok loaded => exact ⟨loaded, turn, ran, able⟩

end HeldRun

end OddJobs
