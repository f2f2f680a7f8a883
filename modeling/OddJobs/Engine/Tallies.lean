import OddJobs.Engine.ExternalWorkers
import Mathlib.Data.List.Nodup

/-!
# Tallies of external workers

A worker of an external queue tallies if it counts exactly the take commands under way,
and has in flight exactly the items that they take and the items of the jobs it holds.
Its handlers keep the tally, as long as the item of a take command that has succeeded
gets its job.
-/

namespace OddJobs

open Library

/-- What a worker counts is what there is: take commands under way, and jobs of which it
has not been told that they have ended, each with its item. -/
structure Tallies (takes : List (String × Value)) (held : List (JobId × String))
    (state : WorkerState) : Prop where
  running : state.status = .running
  external : state.queueType = .external
  pending : state.pendingTakes = takes.length
  active : ∀ entry ∈ held, state.activeJobs.contains entry.1 = true
  mapped : ∀ (id : JobId) (item : String), state.itemJobMap[id]? = some item ↔ (id, item) ∈ held
  inflight : ∀ item : String, state.inflightItems.contains item = true ↔
    (∃ take ∈ takes, take.1 = item) ∨ ∃ entry ∈ held, entry.2 = item
  once : (takes.map (·.1) ++ held.map (·.2)).Nodup

namespace Tallies

variable {takes : List (String × Value)} {held : List (JobId × String)} {state : WorkerState}

theorem of_slots {other : WorkerState} (tallies : Tallies takes held state)
    (same : other.slots = state.slots) : Tallies takes held other := by
  obtain ⟨running, external, pending, active, mapped, inflight, once⟩ := tallies
  cases other
  cases state
  cases same
  exact ⟨running, external, pending, active, mapped, inflight, once⟩

theorem item_unique (tallies : Tallies takes held state) {id : JobId} {item other : String}
    (first : (id, item) ∈ held) (second : (id, other) ∈ held) : item = other := by
  have mapped := (tallies.mapped id item).mpr first
  rw [(tallies.mapped id other).mpr second] at mapped
  exact (Option.some.inj mapped).symm

theorem job_unique (tallies : Tallies takes held state) {left right : JobId × String}
    (inLeft : left ∈ held) (inRight : right ∈ held) (same : left.2 = right.2) : left = right :=
  List.inj_on_of_nodup_map (List.nodup_append.mp tallies.once).2.1 inLeft inRight same

theorem taken_apart (tallies : Tallies takes held state) {take : String × Value}
    {entry : JobId × String} (taken : take ∈ takes) (holds : entry ∈ held) : take.1 ≠ entry.2 :=
  (List.nodup_append.mp tallies.once).2.2 take.1 (List.mem_map.mpr ⟨take, taken, rfl⟩) entry.2
    (List.mem_map.mpr ⟨entry, holds, rfl⟩)

theorem resize (tallies : Tallies takes held state) (concurrency : Nat) :
    Tallies takes held { state with concurrency } :=
  ⟨tallies.running, tallies.external, tallies.pending, tallies.active, tallies.mapped,
    tallies.inflight, tallies.once⟩

/-- An item is reserved that is not in flight. -/
theorem reserve (tallies : Tallies takes held state) {itemId : String} (item : Value)
    (idle : state.inflightItems.contains itemId = false) :
    Tallies (takes ++ [(itemId, item)]) held (state.reserve itemId) := by
  have isFree : ¬((∃ take ∈ takes, take.1 = itemId) ∨ ∃ entry ∈ held, entry.2 = itemId) := by
    rw [← tallies.inflight, idle]
    exact Bool.false_ne_true
  obtain ⟨untaken, unheld⟩ := not_or.mp isFree
  constructor
  · exact tallies.running
  · exact tallies.external
  · rw [List.length_append]
    exact congrArg (· + 1) tallies.pending
  · exact tallies.active
  · exact tallies.mapped
  · intro other
    refine (Table.contains_insert_iff state.inflightItems itemId other ()).trans ?_
    rw [tallies.inflight]
    constructor
    · rintro (rfl | ⟨take, member, same⟩ | holds)
      · exact .inl ⟨_, List.mem_append_right _ (List.mem_singleton.mpr rfl), rfl⟩
      · exact .inl ⟨take, List.mem_append_left _ member, same⟩
      · exact .inr holds
    · rintro (⟨take, member, same⟩ | holds)
      · rcases List.mem_append.mp member with old | new
        · exact .inr (.inl ⟨take, old, same⟩)
        · cases List.mem_singleton.mp new
          exact .inl same
      · exact .inr (.inr holds)
  · rw [List.map_append, List.append_assoc]
    refine List.nodup_middle.mpr (List.nodup_cons.mpr ⟨fun member => ?_, tallies.once⟩)
    rcases List.mem_append.mp member with inTakes | inHeld
    · obtain ⟨take, taken, same⟩ := List.mem_map.mp inTakes
      exact untaken ⟨take, taken, same⟩
    · obtain ⟨entry, holds, same⟩ := List.mem_map.mp inHeld
      exact unheld ⟨entry, holds, same⟩

/-- A job of which the worker is told that it has ended is let go. -/
theorem release (tallies : Tallies takes held state) (id : JobId) :
    Tallies takes (held.filter (·.1 ≠ id)) (state.release id) := by
  have kept : ∀ {entry}, entry ∈ held.filter (·.1 ≠ id) ↔ entry ∈ held ∧ entry.1 ≠ id := by
    intro entry
    rw [List.mem_filter, decide_eq_true_iff]
  constructor
  · exact tallies.running
  · exact tallies.external
  · exact tallies.pending
  · intro entry member
    obtain ⟨holds, differs⟩ := kept.mp member
    exact (Table.contains_erase_iff state.activeJobs id entry.1).mpr
      ⟨Ne.symm differs, tallies.active entry holds⟩
  · intro other item
    change (state.itemJobMap.erase id)[other]? = some item ↔ _
    rw [Table.lookup_erase, kept, ← tallies.mapped]
    split
    · rename_i same
      exact ⟨(fun absent => nomatch absent), fun both => absurd same.symm both.2⟩
    · rename_i differs
      exact ⟨fun present => ⟨present, Ne.symm differs⟩, fun both => both.1⟩
  · intro item
    cases released : state.itemJobMap[id]? with
    | none =>
        have same : (state.release id).inflightItems = state.inflightItems := by
          unfold WorkerState.release
          rw [released]
        rw [same, tallies.inflight]
        refine or_congr_right ⟨?_, ?_⟩
        · rintro ⟨entry, holds, rfl⟩
          refine ⟨entry, kept.mpr ⟨holds, ?_⟩, rfl⟩
          rintro rfl
          rw [(tallies.mapped entry.1 entry.2).mpr holds] at released
          cases released
        · rintro ⟨entry, member, same⟩
          exact ⟨entry, (kept.mp member).1, same⟩
    | some freed =>
        have held := (tallies.mapped id freed).mp released
        have erased : (state.release id).inflightItems = state.inflightItems.erase freed := by
          unfold WorkerState.release
          rw [released]
        rw [erased, Table.contains_erase_iff, tallies.inflight]
        constructor
        · rintro ⟨differs, taken | ⟨entry, holds, rfl⟩⟩
          · exact .inl taken
          · refine .inr ⟨entry, kept.mpr ⟨holds, ?_⟩, rfl⟩
            rintro rfl
            exact differs (tallies.item_unique held holds)
        · rintro (⟨take, taken, rfl⟩ | ⟨entry, member, rfl⟩)
          · exact ⟨Ne.symm (tallies.taken_apart taken held), .inl ⟨take, taken, rfl⟩⟩
          · obtain ⟨holds, differs⟩ := kept.mp member
            refine ⟨fun same => differs ?_, .inr ⟨entry, holds, rfl⟩⟩
            exact congrArg Prod.fst (tallies.job_unique holds held same.symm)
  · have fewer : (held.filter (·.1 ≠ id)).Sublist held := List.filter_sublist
    exact tallies.once.sublist ((List.Sublist.refl _).append (fewer.map _))

/-- The take commands that are left once one has ended. -/
theorem mem_remaining (tallies : Tallies takes held state) {itemId : String}
    {take : String × Value} :
    take ∈ takes.eraseP (·.1 == itemId) ↔ take ∈ takes ∧ take.1 ≠ itemId := by
  have distinct : (takes.map (·.1)).Nodup := (List.nodup_append.mp tallies.once).1
  constructor
  · exact fun member => ⟨List.mem_of_mem_eraseP member, ne_of_mem_eraseP distinct member⟩
  · rintro ⟨member, differs⟩
    exact (List.mem_eraseP_of_neg (Bool.not_eq_true _ ▸ beq_false_of_ne differs)).mpr member

theorem remaining_length (tallies : Tallies takes held state) {itemId : String} {item : Value}
    (underWay : (itemId, item) ∈ takes) :
    state.pendingTakes - 1 = (takes.eraseP (·.1 == itemId)).length := by
  rw [tallies.pending]
  exact (List.length_eraseP_of_mem underWay (beq_self_eq_true itemId)).symm

/-- A take command fails: its item is free again. -/
theorem untake (tallies : Tallies takes held state) {itemId : String} {item : Value}
    (underWay : (itemId, item) ∈ takes) :
    Tallies (takes.eraseP (·.1 == itemId)) held
      { state with
        pendingTakes := state.pendingTakes - 1
        inflightItems := state.inflightItems.erase itemId } := by
  constructor
  · exact tallies.running
  · exact tallies.external
  · exact tallies.remaining_length underWay
  · exact tallies.active
  · exact tallies.mapped
  · intro other
    refine (Table.contains_erase_iff state.inflightItems itemId other).trans ?_
    rw [tallies.inflight]
    constructor
    · rintro ⟨differs, ⟨take, taken, rfl⟩ | holds⟩
      · exact .inl ⟨take, tallies.mem_remaining.mpr ⟨taken, Ne.symm differs⟩, rfl⟩
      · exact .inr holds
    · rintro (⟨take, member, rfl⟩ | ⟨entry, holds, rfl⟩)
      · obtain ⟨taken, differs⟩ := tallies.mem_remaining.mp member
        exact ⟨Ne.symm differs, .inl ⟨take, taken, rfl⟩⟩
      · exact ⟨tallies.taken_apart underWay holds, .inr ⟨entry, holds, rfl⟩⟩
  · have fewer : (takes.eraseP (·.1 == itemId)).Sublist takes := List.eraseP_sublist
    exact tallies.once.sublist ((fewer.map _).append (List.Sublist.refl _))

/-- A take command succeeds: its item gets a job. -/
theorem track (tallies : Tallies takes held state) {itemId : String} {item : Value}
    (underWay : (itemId, item) ∈ takes) {id : JobId} (isNew : ∀ entry ∈ held, entry.1 ≠ id) :
    Tallies (takes.eraseP (·.1 == itemId)) (held ++ [(id, itemId)])
      ({ state with pendingTakes := state.pendingTakes - 1 }.track id itemId) := by
  have added : ∀ {entry}, entry ∈ held ++ [(id, itemId)] ↔ entry ∈ held ∨ entry = (id, itemId) := by
    intro entry
    rw [List.mem_append, List.mem_singleton]
  constructor
  · exact tallies.running
  · exact tallies.external
  · exact tallies.remaining_length underWay
  · intro entry member
    refine (Table.contains_insert_iff state.activeJobs id entry.1 ()).mpr ?_
    rcases added.mp member with holds | rfl
    · exact .inr (tallies.active entry holds)
    · exact .inl rfl
  · intro other item
    change (state.itemJobMap.insert id itemId)[other]? = some item ↔ _
    rw [Table.lookup_insert, added, ← tallies.mapped]
    split
    · rename_i same
      subst same
      constructor
      · rintro ⟨⟩
        exact .inr rfl
      · rintro (mapped | same)
        · exact absurd rfl (isNew (id, item) ((tallies.mapped id item).mp mapped))
        · cases same
          rfl
    · rename_i differs
      refine ⟨.inl, fun either => either.resolve_right fun same => ?_⟩
      cases same
      exact differs rfl
  · intro other
    refine (tallies.inflight other).trans ?_
    constructor
    · rintro (⟨take, taken, rfl⟩ | ⟨entry, holds, rfl⟩)
      · rcases Decidable.em (take.1 = itemId) with same | differs
        · exact .inr ⟨(id, itemId), added.mpr (.inr rfl), same.symm⟩
        · exact .inl ⟨take, tallies.mem_remaining.mpr ⟨taken, differs⟩, rfl⟩
      · exact .inr ⟨entry, added.mpr (.inl holds), rfl⟩
    · rintro (⟨take, member, rfl⟩ | ⟨entry, member, rfl⟩)
      · exact .inl ⟨take, (tallies.mem_remaining.mp member).1, rfl⟩
      · rcases added.mp member with holds | rfl
        · exact .inr ⟨entry, holds, rfl⟩
        · exact .inl ⟨_, underWay, rfl⟩
  · rw [List.map_append, ← List.append_assoc, List.nodup_append]
    have fewer : (takes.eraseP (·.1 == itemId)).Sublist takes := List.eraseP_sublist
    refine ⟨tallies.once.sublist ((fewer.map _).append (List.Sublist.refl _)),
      List.pairwise_singleton _ _, ?_⟩
    rintro other member _ only rfl
    cases List.mem_singleton.mp only
    rcases List.mem_append.mp member with inTakes | inHeld
    · obtain ⟨take, left, same⟩ := List.mem_map.mp inTakes
      exact (tallies.mem_remaining.mp left).2 same
    · obtain ⟨entry, holds, same⟩ := List.mem_map.mp inHeld
      exact tallies.taken_apart underWay holds same.symm

end Tallies

/-! ## Handlers -/

/-- The worker tallies with its take commands under way and with the jobs that it holds:
of those created for it, the ones of whose end it has not been told. -/
structure Tallied (workerName : String) (takes : List (String × Value))
    (jobs held : List (JobId × String)) (runtime : Runtime) : Prop where
  fresh : FreshIds runtime
  unused : ∀ n, ∀ entry ∈ jobs, entry.1 ≠ (runtime.readings n).uuid
  named : ∀ take ∈ takes, itemIdOf take.2 = take.1
  created : ∀ entry ∈ held, entry ∈ jobs
  working : ∀ entry ∈ liveJobs jobs runtime, entry ∈ held
  idle : runtime.workerStates[workerName]? = none → takes = [] ∧ jobs = []
  others : ∀ (name : String) (other : WorkerState), name ≠ workerName →
    runtime.workerStates[name]? = some other →
    ∀ entry ∈ held, other.activeJobs.contains entry.1 = false
  worker : ∀ state : WorkerState, runtime.workerStates[workerName]? = some state →
    Tallies takes held state

namespace Tallied

variable {workerName : String} {takes : List (String × Value)} {jobs held : List (JobId × String)}
  {before after : Runtime}

/-- What leaves the slots alone keeps the tally. -/
theorem quiet (tallied : Tallied workerName takes jobs held before) (quiet : Quiet before after) :
    Tallied workerName takes jobs held after := by
  obtain ⟨read, readings⟩ := quiet.readings
  constructor
  · exact tallied.fresh.quiet quiet
  · intro n entry member
    rw [readings]
    exact tallied.unused (n + read) entry member
  · exact tallied.named
  · exact tallied.created
  · rw [liveJobs_congr quiet.jobs]
    exact tallied.working
  · intro absent
    have same := quiet.slots workerName
    rw [absent, Option.map_none] at same
    exact tallied.idle (Option.map_eq_none_iff.mp same.symm)
  · intro name other differs found entry member
    obtain ⟨prior, present, same⟩ := quiet.worker_before found
    have active := congrArg (fun slots => slots.activeJobs.contains entry.1) same
    exact active.symm.trans (tallied.others name prior differs present entry member)
  · intro state found
    obtain ⟨prior, present, same⟩ := quiet.worker_before found
    exact (tallied.worker prior present).of_slots same.symm

/-- Only jobs, workers and the ids still to come matter. -/
theorem congr (tallied : Tallied workerName takes jobs held before)
    (sameJobs : after.world.state.jobs = before.world.state.jobs)
    (workers : after.workerStates = before.workerStates)
    (readings : after.readings = before.readings) : Tallied workerName takes jobs held after := by
  obtain ⟨⟨apart, newJobs, newWorkers⟩, unused, named, created, working, idle, others, worker⟩ :=
    tallied
  refine ⟨⟨?_, ?_, ?_⟩, ?_, named, created, ?_, ?_, ?_, ?_⟩
  · rw [readings]
    exact apart
  · rw [readings, sameJobs]
    exact newJobs
  · rw [readings, workers]
    exact newWorkers
  · rw [readings]
    exact unused
  · rw [liveJobs_congr sameJobs]
    exact working
  · rw [workers]
    exact idle
  · rw [workers]
    exact others
  · rw [workers]
    exact worker

/-- The worker changes, and gets no new jobs. -/
theorem modify (tallied : Tallied workerName takes jobs held before)
    {update : WorkerState → WorkerState} {takes' : List (String × Value)}
    (fewer : ∀ (state : WorkerState) (id : JobId), state.activeJobs.contains id = false →
      state.itemJobMap[id]? = none →
      (update state).activeJobs.contains id = false ∧ (update state).itemJobMap[id]? = none)
    (named : ∀ take ∈ takes', itemIdOf take.2 = take.1)
    (tallies : ∀ state, before.workerStates[workerName]? = some state →
      Tallies takes held state → Tallies takes' held (update state))
    (found : (before.workerStates[workerName]?).isSome = true) :
    Tallied workerName takes' jobs held (before.updating workerName update) where
  fresh := tallied.fresh.modify workerName fewer
  unused := tallied.unused
  named := named
  created := tallied.created
  working := tallied.working
  idle := by
    intro absent
    change (before.workerStates.modify workerName update)[workerName]? = none at absent
    rw [Table.lookup_modify, if_pos rfl] at absent
    rw [Option.map_eq_none_iff.mp absent] at found
    cases found
  others := by
    intro name other differs found
    change (before.workerStates.modify workerName update)[name]? = some other at found
    rw [Table.lookup_modify, if_neg (Ne.symm differs)] at found
    exact tallied.others name other differs found
  worker := by
    intro state found
    change (before.workerStates.modify workerName update)[workerName]? = some state at found
    rw [Table.lookup_modify, if_pos rfl] at found
    obtain ⟨prior, present, rfl⟩ := Option.map_eq_some_iff.mp found
    exact tallies prior present (tallied.worker prior present)

end Tallied

section Handlers

variable {outside : Outside} {workerName : String} {takes : List (String × Value)}
  {jobs held : List (JobId × String)} {before after : Runtime}

/-- Some items may be taken; the jobs stay as they are, and the tally is kept. -/
def Tallying (workerName : String) (takes : List (String × Value))
    (jobs held : List (JobId × String)) (before after : Runtime) : Prop :=
  Tallied workerName takes jobs held before →
    ∃ fired, after.world.takes = before.world.takes ++ fired ∧
      after.world.state.jobs = before.world.state.jobs ∧
      Tallied workerName (takes ++ fired) jobs held after

theorem Tallying.of_same (taken : after.world.takes = before.world.takes)
    (same : after.world.state.jobs = before.world.state.jobs)
    (kept : Tallied workerName takes jobs held before → Tallied workerName takes jobs held after) :
    Tallying workerName takes jobs held before after := by
  intro tallied
  refine ⟨[], ?_, same, ?_⟩
  · rw [List.append_nil, taken]
  · rw [List.append_nil]
    exact kept tallied

theorem Quiet.tallying (quiet : Quiet before after) :
    Tallying workerName takes jobs held before after :=
  .of_same quiet.takes quiet.jobs fun tallied => tallied.quiet quiet

theorem Quiet.then_tallying {between : Runtime} (quiet : Quiet before between)
    (rest : Tallying workerName takes jobs held between after) :
    Tallying workerName takes jobs held before after := by
  intro tallied
  obtain ⟨fired, taken, same, kept⟩ := rest (tallied.quiet quiet)
  exact ⟨fired, quiet.takes ▸ taken, same.trans quiet.jobs, kept⟩

/-- Items are taken while there are slots. -/
theorem takeItems_tallying (takeTemplate : String) (cwd : PathBuf) (items : List Value) :
    ∀ (slots : Nat) (takes : List (String × Value)) (runtime : Runtime),
      (runtime.workerStates[workerName]?).isSome = true →
      Tallying workerName takes jobs held runtime
        (Handler.takeItems outside workerName takeTemplate cwd slots items runtime).2 := by
  induction items with
  | nil =>
      intro slots takes runtime _
      cases slots <;> exact (Quiet.refl runtime).tallying
  | cons item rest ih =>
      intro slots takes runtime found tallied
      cases slots with
      | zero => exact (Quiet.refl runtime).tallying tallied
      | succ slots =>
          obtain ⟨state, present⟩ := Option.isSome_iff_exists.mp found
          cases busy : state.inflightItems.contains (itemIdOf item) with
          | true =>
              rw [takeItems_skip present busy]
              exact ih (slots + 1) takes runtime found tallied
          | false =>
              rw [takeItems_take present busy]
              let command := outside.interpolateShell takeTemplate (Handler.takeVars outside item)
              let taken := (runtime.updating workerName (·.reserve (itemIdOf item))).requesting
                (.takeQueueItem workerName ("set -euo pipefail\n" ++ command) cwd (itemIdOf item) item)
              have reserved : Tallied workerName (takes ++ [(itemIdOf item, item)]) jobs held
                  (runtime.updating workerName (·.reserve (itemIdOf item))) := by
                refine tallied.modify (fun _ _ inactive unmapped => ⟨inactive, unmapped⟩) ?_ ?_ found
                · intro take member
                  rcases List.mem_append.mp member with old | new
                  · exact tallied.named take old
                  · cases List.mem_singleton.mp new
                    rfl
                · intro other currently tallies
                  rw [present] at currently
                  cases currently
                  exact tallies.reserve item busy
              have foundThen : (taken.workerStates[workerName]?).isSome = true := by
                change ((runtime.workerStates.modify workerName _)[workerName]?).isSome = true
                rw [Table.lookup_modify, if_pos rfl, Option.isSome_map]
                exact found
              obtain ⟨fired, takesThen, same, kept⟩ :=
                ih slots (takes ++ [(itemIdOf item, item)]) taken foundThen
                  (reserved.congr rfl rfl rfl)
              refine ⟨(itemIdOf item, item) :: fired, ?_, same, ?_⟩
              · have requested : taken.world.takes =
                    runtime.world.takes ++ [(itemIdOf item, item)] := by
                  change (runtime.world.requests ++ [Request.takeQueueItem workerName _ cwd _
                    item]).filterMap Request.take? = _
                  rw [List.filterMap_append]
                  rfl
                rw [requested, List.append_assoc] at takesThen
                exact takesThen
              · rw [List.append_assoc] at kept
                exact kept

theorem handleWorkerPollComplete_tallying (items : List Value) :
    Program.Moves (Tallying workerName takes jobs held)
      (Handler.handleWorkerPollComplete outside workerName items) := by
  refine handleWorkerPollComplete_moves Quiet.tallying Quiet.then_tallying
    (fun found type tallied => ?_) fun takeTemplate cwd _ _ found _ => ?_
  · have external := (tallied.worker _ found).external
    rw [type] at external
    cases external
  · exact takeItems_tallying takeTemplate cwd items _ takes _ (Option.isSome_of_mem found)

/-- A resize changes the number of slots, and the worker may poll again. -/
theorem handleWorkerResized_tallying (concurrency : Nat) :
    Program.Moves (Tallying workerName takes jobs held)
      (Handler.handleWorkerResized outside workerName concurrency) := by
  unfold Handler.handleWorkerResized
  refine (Handler.workerState_quiet workerName).follow Quiet.tallying Quiet.then_tallying
    fun before read runtime ran => ?_
  cases ran
  dsimp only
  cases found : before.workerStates[workerName]? with
  | none => exact (Quiet.refl before).tallying
  | some state =>
      dsimp only
      split
      · exact (Quiet.refl before).tallying
      · let resized := before.updating workerName fun state => { state with concurrency }
        have rest : Program.Moves Quiet (if state.concurrency ≤
            state.activeJobs.size + state.pendingTakes ∧
            state.activeJobs.size + state.pendingTakes < concurrency then
            Handler.handleWorkerWake outside workerName
          else pure [] : Handler (List Event)) := by
          split
          · exact Handler.handleWorkerWake_quiet outside workerName
          · exact Program.moves_pure closed_quiet _
        have quiet := rest resized
        refine .of_same quiet.takes quiet.jobs fun tallied => Tallied.quiet ?_ quiet
        exact tallied.modify (fun _ _ inactive unmapped => ⟨inactive, unmapped⟩) tallied.named
          (fun _ _ tallies => tallies.resize concurrency) (Option.isSome_of_mem found)

/-- The worker has been told that a job has ended. -/
theorem letGo_tallied (tallied : Tallied workerName takes jobs held before) {id : JobId}
    {name : String} {state : WorkerState}
    (owned : Handler.findWorker outside.order id before.workerStates = some (name, state))
    (ended : ∀ entry ∈ liveJobs jobs before, entry.1 ≠ id) :
    Tallied workerName takes jobs (held.filter (·.1 ≠ id)) (Handler.letGo name id before) := by
  have found := Handler.findWorker_found owned
  have active := Handler.findWorker_active owned
  have fewer : ∀ entry ∈ held.filter (·.1 ≠ id), entry ∈ held := fun _ member =>
    (List.mem_filter.mp member).1
  have located : ∀ other : String, (Handler.letGo name id before).workerStates[other]? =
      if name = other then (before.workerStates[other]?).map (·.release id)
      else before.workerStates[other]? := fun other =>
    Table.lookup_modify before.workerStates name other _
  constructor
  · exact tallied.fresh.modify name (release_fewer id)
  · exact tallied.unused
  · exact tallied.named
  · exact fun entry member => tallied.created entry (fewer entry member)
  · intro entry live
    exact List.mem_filter.mpr ⟨tallied.working entry live, decide_eq_true (ended entry live)⟩
  · intro absent
    rw [located] at absent
    split at absent
    · exact tallied.idle (Option.map_eq_none_iff.mp absent)
    · exact tallied.idle absent
  · intro name now differs present entry member
    rw [located] at present
    split at present
    · obtain ⟨prior, was, rfl⟩ := Option.map_eq_some_iff.mp present
      have inactive := tallied.others name prior differs was entry (fewer entry member)
      rw [Bool.eq_false_iff] at inactive ⊢
      exact fun active => inactive ((Table.contains_erase_iff _ _ _).mp active).2
    · exact tallied.others name now differs present entry (fewer entry member)
  · intro now present
    rw [located] at present
    split at present
    · obtain ⟨prior, was, rfl⟩ := Option.map_eq_some_iff.mp present
      exact (tallied.worker prior was).release id
    · rename_i differs
      have unheld : held.filter (·.1 ≠ id) = held := by
        refine List.filter_eq_self.mpr fun entry holds => decide_eq_true ?_
        rintro rfl
        have inactive := tallied.others name state differs found entry holds
        rw [active] at inactive
        cases inactive
      rw [unheld]
      exact tallied.worker now present

/-- When a job has ended, its worker lets go of it. -/
theorem checkWorkerJobComplete_tallied (tallied : Tallied workerName takes jobs held before)
    {id : JobId} (terminalStep : String) (ended : ∀ entry ∈ liveJobs jobs before, entry.1 ≠ id) :
    let after := (Handler.checkWorkerJobComplete outside id terminalStep before).2
    Tallied workerName takes jobs (held.filter (·.1 ≠ id)) after ∧
      after.world.takes = before.world.takes ∧
      after.world.state.jobs = before.world.state.jobs := by
  intro after
  have owned := @Handler.checkWorkerJobComplete_owned outside id terminalStep before
  cases owner : Handler.findWorker outside.order id before.workerStates with
  | some entry =>
      rw [owner] at owned
      exact ⟨(letGo_tallied tallied owner ended).quiet owned, owned.takes, owned.jobs⟩
  | none =>
      rw [owner] at owned
      have unheld : held.filter (·.1 ≠ id) = held := by
        refine List.filter_eq_self.mpr fun entry holds => decide_eq_true fun same => ?_
        cases found : before.workerStates[workerName]? with
        | none =>
            have known := tallied.created entry holds
            rw [(tallied.idle found).2] at known
            cases known
        | some state =>
            have inactive := Handler.findWorker_none owner found
            rw [← same, (tallied.worker state found).active entry holds] at inactive
            cases inactive
      rw [unheld]
      exact ⟨tallied.quiet owned, owned.takes, owned.jobs⟩

/-! ## Take commands that have ended -/

/-- A take command that has succeeded leads to a job: the runbook of the worker can be
read again, and the job of the item can be created. -/
def CanTake (outside : Outside) (workerName : String) (item : Value) (runtime : Runtime) : Prop :=
  ∃ loaded turn, Handler.refreshWorkerRunbook outside workerName (runtime.updating workerName
      fun state => { state with pendingTakes := state.pendingTakes - 1 }) = (.ok loaded, turn) ∧
    CanDispatch outside workerName item turn

/-- A take command fails: its slot and its item are free again. -/
theorem Tallied.untake (tallied : Tallied workerName takes jobs held before) {itemId : String}
    {item : Value} (underWay : (itemId, item) ∈ takes) :
    Tallied workerName (takes.eraseP (·.1 == itemId)) jobs held
      ((before.updating workerName fun state =>
        { state with pendingTakes := state.pendingTakes - 1 }).updating workerName fun state =>
          { state with inflightItems := state.inflightItems.erase itemId }) := by
  have found : (before.workerStates[workerName]?).isSome = true := by
    cases found : before.workerStates[workerName]? with
    | some state => rfl
    | none =>
        rw [(tallied.idle found).1] at underWay
        cases underWay
  have fewer : (takes.eraseP (·.1 == itemId)).Sublist takes := List.eraseP_sublist
  let counted := fun state : WorkerState => { state with pendingTakes := state.pendingTakes - 1 }
  let freed := fun state : WorkerState =>
    { state with inflightItems := state.inflightItems.erase itemId }
  have untaken : Tallied workerName (takes.eraseP (·.1 == itemId)) jobs held
      (before.updating workerName (freed ∘ counted)) := by
    refine tallied.modify (fun _ _ inactive unmapped => ⟨inactive, unmapped⟩) ?_ ?_ found
    · exact fun take member => tallied.named take (fewer.subset member)
    · exact fun _ _ tallies => tallies.untake underWay
  exact untaken.congr rfl (Table.modify_modify before.workerStates workerName counted freed) rfl

/-- What a dispatch leaves whose job was created: the job is at work, and the worker has it. -/
structure Dispatched (workerName itemId : String) (id : JobId) (turn after : Runtime) : Prop where
  found : (turn.workerStates[workerName]?).isSome = true
  workers : ∀ name : String, after.workerStates[name]? =
    if workerName = name then (turn.workerStates[name]?).map (·.track id itemId)
    else turn.workerStates[name]?
  working : (after.world.state.jobs[id]?).any (!·.isTerminal) = true
  others : ∀ other : JobId, other ≠ id → (after.world.state.jobs[other]?).map (·.step) =
    (turn.world.state.jobs[other]?).map (·.step)
  takes : after.world.takes = turn.world.takes
  readings : ∃ read, ∀ n, after.readings n = turn.readings (n + (read + 1))

theorem dispatchQueueItem_dispatched {item : Value} {turn : Runtime} (fresh : FreshIds turn)
    (able : CanDispatch outside workerName item turn) :
    Dispatched workerName (itemIdOf item) (turn.readings 0).uuid turn
      (Handler.dispatchQueueItem outside workerName item turn).2 := by
  obtain ⟨state, middle, found, ⟨job, stored, going⟩, elsewhere, late, ended⟩ :=
    dispatchQueueItem_creates fresh able
  let id := (turn.readings 0).uuid
  let tracked := middle.tracking outside.order workerName (itemIdOf item) state.ns id
  rw [ended]
  constructor
  · exact Option.isSome_of_mem found
  · intro name
    change (middle.workerStates.modify workerName (·.track id (itemIdOf item)))[name]? = _
    rw [Table.lookup_modify, elsewhere.workers]
  · rw [show tracked.world.state.jobs[id]? = some job from stored, Option.any_some, going]
    rfl
  · exact elsewhere.jobs
  · exact elsewhere.takes
  · exact late

/-- The new job joins those that are at work. -/
theorem Dispatched.liveJobs {itemId : String} {id : JobId} {turn after : Runtime}
    (dispatched : Dispatched workerName itemId id turn after) (isNew : ∀ entry ∈ jobs, entry.1 ≠ id) :
    liveJobs (jobs ++ [(id, itemId)]) after = liveJobs jobs turn ++ [(id, itemId)] := by
  have old : OddJobs.liveJobs jobs after = OddJobs.liveJobs jobs turn :=
    liveJobs_of_steps fun other member => dispatched.others other.1 (isNew other member)
  have new := dispatched.working
  unfold OddJobs.liveJobs at old ⊢
  rw [List.filter_append, old, List.filter_singleton, new]
  rfl

/-- The job of an item whose take command has succeeded joins the jobs of the worker. -/
theorem Tallied.track (tallied : Tallied workerName takes jobs held before) {itemId : String}
    {item : Value} (underWay : (itemId, item) ∈ takes) (named : itemIdOf item = itemId)
    {turn : Runtime}
    (quiet : Quiet (before.updating workerName fun state =>
      { state with pendingTakes := state.pendingTakes - 1 }) turn)
    (able : CanDispatch outside workerName item turn) :
    let after := (Handler.dispatchQueueItem outside workerName item turn).2
    let entry := ((turn.readings 0).uuid, itemId)
    jobsFor itemId before after = [entry] ∧ after.world.takes = before.world.takes ∧
      liveJobs (jobs ++ [entry]) after = liveJobs jobs before ++ [entry] ∧
      Tallied workerName (takes.eraseP (·.1 == itemId)) (jobs ++ [entry]) (held ++ [entry]) after := by
  intro after entry
  let id := (turn.readings 0).uuid
  have fresh : FreshIds turn := by
    refine FreshIds.quiet ?_ quiet
    exact tallied.fresh.modify workerName fun _ _ inactive unmapped => ⟨inactive, unmapped⟩
  have dispatched : Dispatched workerName itemId id turn after :=
    named ▸ dispatchQueueItem_dispatched fresh able
  obtain ⟨state, found⟩ := Option.isSome_iff_exists.mp dispatched.found
  obtain ⟨used, readings⟩ := quiet.readings
  have isNew : ∀ entry ∈ jobs, entry.1 ≠ id := by
    intro entry member same
    exact tallied.unused (0 + used) entry member (same.trans (congrArg (·.uuid) (readings 0)))
  have live : liveJobs (jobs ++ [entry]) after = liveJobs jobs before ++ [entry] :=
    (dispatched.liveJobs isNew).trans (congrArg (· ++ [entry]) (liveJobs_congr quiet.jobs))
  refine ⟨?_, dispatched.takes.trans quiet.takes, live, ?_⟩
  · have absent : before.world.state.jobs[id]? = none := by
      cases stored : before.world.state.jobs[id]? with
      | none => rfl
      | some job =>
          have stored : turn.world.state.jobs[id]? = some job := quiet.jobs ▸ stored
          exact absurd (List.prefix_refl _) (fresh.jobs 0 id job stored)
    have present : (after.world.state.jobs[id]?).isSome = true := by
      obtain ⟨job, stored, _⟩ := (Option.any_eq_true _ _).mp dispatched.working
      exact Option.isSome_of_mem stored
    unfold jobsFor
    rw [newJobs_eq_singleton (fun other differs => ?_) absent present]
    · rfl
    · have same := congrArg Option.isSome (dispatched.others other differs)
      rw [Option.isSome_map, Option.isSome_map, quiet.jobs] at same
      exact same
  · have fewer : (takes.eraseP (·.1 == itemId)).Sublist takes := List.eraseP_sublist
    constructor
    · exact (dispatchQueueItem_ends fresh).1.fresh
    · intro n other member
      obtain ⟨read, late⟩ := dispatched.readings
      rw [late]
      rcases List.mem_append.mp member with old | new
      · rw [readings]
        exact tallied.unused _ other old
      · cases List.mem_singleton.mp new
        exact fun same => fresh.apart 0 (n + (read + 1)) (by omega) (same ▸ List.prefix_refl _)
    · exact fun take member => tallied.named take (fewer.subset member)
    · intro other member
      rcases List.mem_append.mp member with old | new
      · exact List.mem_append_left _ (tallied.created other old)
      · exact List.mem_append_right _ new
    · intro other working
      rw [live] at working
      rcases List.mem_append.mp working with old | new
      · exact List.mem_append_left _ (tallied.working other old)
      · exact List.mem_append_right _ new
    · intro absent
      rw [dispatched.workers workerName, found, if_pos rfl] at absent
      cases absent
    · intro name other differs now entry member
      rw [dispatched.workers name, if_neg (Ne.symm differs)] at now
      rcases List.mem_append.mp member with old | new
      · obtain ⟨prior, was, same⟩ := quiet.worker_before now
        change (before.workerStates.modify workerName _)[name]? = some prior at was
        rw [Table.lookup_modify, if_neg (Ne.symm differs)] at was
        have active := congrArg (fun slots => slots.activeJobs.contains entry.1) same
        exact active.symm.trans (tallied.others name prior differs was entry old)
      · cases List.mem_singleton.mp new
        exact (fresh.workers 0 name other now).1
    · intro current now
      rw [dispatched.workers workerName, found, if_pos rfl] at now
      cases now
      obtain ⟨prior, was, same⟩ := quiet.worker_before found
      change (before.workerStates.modify workerName _)[workerName]? = some prior at was
      rw [Table.lookup_modify, if_pos rfl] at was
      obtain ⟨first, present, rfl⟩ := Option.map_eq_some_iff.mp was
      have tracked := (tallied.worker first present).track underWay fun entry member =>
        isNew entry (tallied.created entry member)
      exact tracked.of_slots (congrArg (fun slots => slots.track id itemId) same.symm)

/-- A take command that has ended gives back its slot and its item, or turns them into a
job. -/
theorem handleWorkerTakeComplete_tallied (tallied : Tallied workerName takes jobs held before)
    {itemId : String} {item : Value} {exitCode : Int} (underWay : (itemId, item) ∈ takes)
    (able : exitCode = 0 → CanTake outside workerName item before) :
    let after := (Handler.handleWorkerTakeComplete outside workerName itemId item exitCode before).2
    let created := jobsFor itemId before after
    after.world.takes = before.world.takes ∧
      liveJobs (jobs ++ created) after = liveJobs jobs before ++ created ∧
      Tallied workerName (takes.eraseP (·.1 == itemId)) (jobs ++ created) (held ++ created) after := by
  intro after created
  let counted := before.updating workerName fun state =>
    { state with pendingTakes := state.pendingTakes - 1 }
  have opened : Handler.handleWorkerTakeComplete outside workerName itemId item exitCode before =
      (if exitCode ≠ 0 then do
        Handler.updateWorkerState workerName fun state =>
          { state with inflightItems := state.inflightItems.erase itemId }
        pure []
      else do
        let loaded ← Handler.refreshWorkerRunbook outside workerName
        let events ← Handler.dispatchQueueItem outside workerName item
        pure (loaded.toList ++ events) : Handler (List Event)) counted := rfl
  split at opened
  · have failed : after = counted.updating workerName fun state =>
        { state with inflightItems := state.inflightItems.erase itemId } := congrArg Prod.snd opened
    have none : created = [] := jobsFor_eq_nil (failed ▸ rfl)
    rw [none, List.append_nil, List.append_nil, List.append_nil, failed]
    exact ⟨rfl, liveJobs_congr rfl, tallied.untake underWay⟩
  · rename_i succeeded
    obtain ⟨loaded, turn, refreshed, dispatches⟩ := able (Decidable.not_not.mp succeeded)
    have quiet := Handler.refreshWorkerRunbook_quiet outside workerName counted
    rw [refreshed] at quiet
    have ran := opened.trans (Program.bind_ok refreshed)
    have ended : after = (Handler.dispatchQueueItem outside workerName item turn).2 :=
      (congrArg Prod.snd ran).trans (Program.bind_pure_state _ _ turn)
    obtain ⟨new, taken, live, tracked⟩ :=
      tallied.track underWay (tallied.named _ underWay) quiet dispatches
    rw [← ended] at new taken live tracked
    rw [show created = _ from new]
    exact ⟨taken, live, tracked⟩

end Handlers

end OddJobs
