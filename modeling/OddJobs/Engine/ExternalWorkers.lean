import OddJobs.Engine.Reservations

/-!
# Workers of external queues

A poll reserves slots and has items taken; a take command that succeeds turns its
reservation into a job; a start takes up the jobs that the record of the worker
lists.  Each of these keeps the reservations.
-/

namespace OddJobs

open Library

/-! ## Items that are taken -/

section Take

variable {outside : Outside} {workerName ns : String} {concurrency : Nat}
  {jobs : List (JobId × String)}

/-- Streams of replies and requests are no part of what the worker has. -/
theorem Reservations.requesting {takes : List (String × Value)} {runtime : Runtime}
    (reservations : Reservations workerName ns concurrency takes jobs runtime) (asked : Request) :
    Reservations workerName ns concurrency takes jobs (runtime.requesting asked) where
  newIds := ⟨⟨reservations.newIds.apart, reservations.newIds.jobs, reservations.newIds.workers⟩,
    reservations.newIds.unlisted⟩
  known := reservations.known
  distinct := reservations.distinct
  items := reservations.items
  few := reservations.few
  named := reservations.named
  idle := reservations.idle
  worker := reservations.worker

/-- The worker reserves a slot and the item, and has the item taken. -/
theorem take_reserves {takes : List (String × Value)} {runtime : Runtime} {state : WorkerState}
    {item : Value} (kept : Reservations workerName ns concurrency takes jobs runtime)
    (found : runtime.workerStates[workerName]? = some state)
    (idle : state.inflightItems.contains (itemIdOf item) = false)
    (slot : (liveJobs jobs runtime).length + state.pendingTakes < concurrency)
    (command : String) (cwd : PathBuf) :
    Reservations workerName ns concurrency (takes ++ [(itemIdOf item, item)]) jobs
      ({ runtime with workerStates :=
          runtime.workerStates.modify workerName (·.reserve (itemIdOf item)) }.requesting
        (.takeQueueItem workerName command cwd (itemIdOf item) item)) := by
  obtain ⟨newIds, known, distinct, items, few, named, alone, worker⟩ := kept
  apply Reservations.requesting
  refine ⟨?_, known, distinct, items, few, ?_, ?_, ?_⟩
  · exact newIds.modify workerName fun _ _ inactive unmapped => ⟨inactive, unmapped⟩
  · intro take member
    rcases List.mem_append.mp member with old | new
    · exact named take old
    · cases List.mem_singleton.mp new
      rfl
  · intro absent
    dsimp only at absent
    rw [Table.lookup_modify, if_pos rfl, found] at absent
    cases absent
  · intro after present
    dsimp only at present
    rw [Table.lookup_modify, if_pos rfl, found, Option.map_some] at present
    cases present
    obtain ⟨holds, recorded⟩ := worker state found
    exact ⟨holds.reserve item idle slot, recorded⟩

theorem takeItems_skip {item : Value} {runtime : Runtime} {state : WorkerState}
    (found : runtime.workerStates[workerName]? = some state)
    (busy : state.inflightItems.contains (itemIdOf item) = true) (takeTemplate : String)
    (cwd : PathBuf) (slots : Nat) (rest : List Value) :
    Handler.takeItems outside workerName takeTemplate cwd (slots + 1) (item :: rest) runtime =
      Handler.takeItems outside workerName takeTemplate cwd (slots + 1) rest runtime := by
  rw [Handler.takeItems, Program.run_bind]
  simp only [Handler.workerState, Program.run_read, found, Option.map_some, Option.getD_some]
  rw [if_pos busy]

theorem takeItems_take {item : Value} {runtime : Runtime} {state : WorkerState}
    (found : runtime.workerStates[workerName]? = some state)
    (idle : state.inflightItems.contains (itemIdOf item) = false) (takeTemplate : String)
    (cwd : PathBuf) (slots : Nat) (rest : List Value) :
    Handler.takeItems outside workerName takeTemplate cwd (slots + 1) (item :: rest) runtime =
      Handler.takeItems outside workerName takeTemplate cwd slots rest
        ({ runtime with workerStates :=
            runtime.workerStates.modify workerName (·.reserve (itemIdOf item)) }.requesting
          (.takeQueueItem workerName ("set -euo pipefail\n" ++
            outside.interpolateShell takeTemplate (Handler.takeVars outside item)) cwd
            (itemIdOf item) item)) := by
  rw [Handler.takeItems, Program.run_bind]
  simp only [Handler.workerState, Program.run_read, found, Option.map_some, Option.getD_some]
  rw [if_neg (Bool.eq_false_iff.mp idle)]
  rfl

/-- The worker runs, and its slots suffice for the jobs at work, the reservations and the
items that may still be taken. -/
def Leaves (workerName : String) (concurrency slots : Nat) (jobs : List (JobId × String))
    (runtime : Runtime) : Prop :=
  ∃ state, runtime.workerStates[workerName]? = some state ∧ state.status ≠ .stopped ∧
    (0 < slots → (liveJobs jobs runtime).length + state.pendingTakes + slots ≤ concurrency)

/-- Items are taken while there are slots. -/
theorem takeItems_reserves (takeTemplate : String) (cwd : PathBuf) (items : List Value) :
    ∀ (slots : Nat) (takes : List (String × Value)) (runtime : Runtime),
      Reservations workerName ns concurrency takes jobs runtime →
      Leaves workerName concurrency slots jobs runtime →
      let after := (Handler.takeItems outside workerName takeTemplate cwd slots items runtime).2
      ∃ fired, after.world.takes = runtime.world.takes ++ fired ∧
        after.world.state.jobs = runtime.world.state.jobs ∧
        Reservations workerName ns concurrency (takes ++ fired) jobs after := by
  have nothing : ∀ (takes : List (String × Value)) (runtime : Runtime),
      Reservations workerName ns concurrency takes jobs runtime →
      ∃ fired, runtime.world.takes = runtime.world.takes ++ fired ∧
        runtime.world.state.jobs = runtime.world.state.jobs ∧
        Reservations workerName ns concurrency (takes ++ fired) jobs runtime := by
    intro takes runtime kept
    refine ⟨[], (List.append_nil _).symm, rfl, ?_⟩
    rw [List.append_nil]
    exact kept
  induction items with
  | nil =>
      intro slots takes runtime kept _
      cases slots <;> exact nothing takes runtime kept
  | cons item rest ih =>
      intro slots takes runtime kept leaves
      cases slots with
      | zero => exact nothing takes runtime kept
      | succ slots =>
          obtain ⟨state, found, running, room⟩ := leaves
          have room := room (Nat.succ_pos slots)
          cases busy : state.inflightItems.contains (itemIdOf item) with
          | true =>
              rw [takeItems_skip found busy]
              exact ih (slots + 1) takes runtime kept ⟨state, found, running, fun _ => room⟩
          | false =>
              rw [takeItems_take found busy]
              let command := outside.interpolateShell takeTemplate (Handler.takeVars outside item)
              let taken := ({ runtime with workerStates :=
                  runtime.workerStates.modify workerName (·.reserve (itemIdOf item)) } :
                Runtime).requesting (.takeQueueItem workerName ("set -euo pipefail\n" ++ command)
                  cwd (itemIdOf item) item)
              have reserved : Reservations workerName ns concurrency
                  (takes ++ [(itemIdOf item, item)]) jobs taken :=
                take_reserves kept found busy (by omega) _ cwd
              have foundThen : taken.workerStates[workerName]? =
                  some (state.reserve (itemIdOf item)) := by
                change (runtime.workerStates.modify workerName _)[workerName]? = _
                rw [Table.lookup_modify, if_pos rfl, found, Option.map_some]
              have leavesThen : Leaves workerName concurrency slots jobs taken := by
                refine ⟨_, foundThen, running, fun _ => ?_⟩
                change (liveJobs jobs runtime).length + (state.pendingTakes + 1) + slots ≤ _
                omega
              obtain ⟨fired, takesThen, sameJobs, keptThen⟩ := ih slots _ taken reserved leavesThen
              refine ⟨(itemIdOf item, item) :: fired, ?_, sameJobs, ?_⟩
              · have requested : taken.world.takes =
                    runtime.world.takes ++ [(itemIdOf item, item)] := by
                  change (runtime.world.requests ++ [Request.takeQueueItem workerName _ cwd _
                    item]).filterMap Request.take? = _
                  rw [List.filterMap_append]
                  rfl
                rw [requested, List.append_assoc] at takesThen
                exact takesThen
              · rw [List.append_assoc] at keptThen
                exact keptThen

/-- Some items may be taken; the jobs stay as they are and the reservations are kept. -/
def Fires (workerName ns : String) (concurrency : Nat) (takes : List (String × Value))
    (jobs : List (JobId × String)) (before after : Runtime) : Prop :=
  Reservations workerName ns concurrency takes jobs before →
    ∃ fired, after.world.takes = before.world.takes ++ fired ∧
      after.world.state.jobs = before.world.state.jobs ∧
      Reservations workerName ns concurrency (takes ++ fired) jobs after

variable {takes : List (String × Value)}

theorem Quiet.fires {before after : Runtime} (quiet : Quiet before after) :
    Fires workerName ns concurrency takes jobs before after := by
  intro kept
  refine ⟨[], ?_, quiet.jobs, ?_⟩
  · rw [List.append_nil, quiet.takes]
  · rw [List.append_nil]
    exact kept.quiet quiet

theorem Quiet.then_fires {before between after : Runtime} (quiet : Quiet before between)
    (fires : Fires workerName ns concurrency takes jobs between after) :
    Fires workerName ns concurrency takes jobs before after := by
  intro kept
  obtain ⟨fired, taken, same, keptThen⟩ := fires (kept.quiet quiet)
  exact ⟨fired, quiet.takes ▸ taken, same.trans quiet.jobs, keptThen⟩

/-- There are no more jobs at work than the worker has under way. -/
theorem liveJobs_le_size {runtime : Runtime} {state : WorkerState}
    (kept : Reservations workerName ns concurrency takes jobs runtime)
    (found : runtime.workerStates[workerName]? = some state) :
    (liveJobs jobs runtime).length ≤ state.activeJobs.size := by
  obtain ⟨holds, _⟩ := kept.worker state found
  have distinct : ((liveJobs jobs runtime).map (·.1)).Nodup :=
    kept.distinct.sublist (List.filter_sublist.map _)
  rw [← List.length_map (fun entry : JobId × String => entry.1)]
  refine Table.length_le_size state.activeJobs distinct fun id member => ?_
  obtain ⟨entry, live, rfl⟩ := List.mem_map.mp member
  exact holds.inSlots.active entry live

/-- Where there are slots, they suffice for as many items. -/
theorem leaves_available {runtime : Runtime} {state : WorkerState}
    (kept : Reservations workerName ns concurrency takes jobs runtime)
    (found : runtime.workerStates[workerName]? = some state) (running : state.status ≠ .stopped) :
    Leaves workerName concurrency state.available jobs runtime := by
  refine ⟨state, found, running, fun several => ?_⟩
  have few := liveJobs_le_size kept found
  have sized := (kept.worker state found).1.inSlots.sized
  unfold WorkerState.available at several ⊢
  omega

/-- A poll changes no slots until the worker, which runs, takes items in the slots that
it has. -/
theorem handleWorkerPollComplete_moves {related : Runtime → Runtime → Prop} {items : List Value}
    (stops : ∀ {before after}, Quiet before after → related before after)
    (absorbs : ∀ {before between after}, Quiet before between → related between after →
      related before after)
    (persisted : ∀ {before after state}, before.workerStates[workerName]? = some state →
      state.queueType = .persisted → related before after)
    (taking : ∀ (takeTemplate : String) (cwd : PathBuf) {start state},
      start.workerStates[workerName]? = some state → state.status ≠ .stopped →
      related start
        (Handler.takeItems outside workerName takeTemplate cwd state.available items start).2) :
    Program.Moves related (Handler.handleWorkerPollComplete outside workerName items) := by
  unfold Handler.handleWorkerPollComplete
  refine (Handler.refreshWorkerRunbook_quiet outside workerName).follow stops absorbs
    fun _ loaded refreshed _ => ?_
  refine Program.Moves.follow (Handler.workerState_quiet workerName) stops absorbs
    (fun before read after ran => ?_) refreshed
  cases ran
  dsimp only
  cases found : before.workerStates[workerName]? with
  | none => exact stops (.refl before)
  | some state =>
      dsimp only
      split
      · exact stops (.refl before)
      · rename_i running
        split
        · exact stops (Handler.setRunning_quiet found running)
        · cases type : state.queueType with
          | persisted => exact persisted found type
          | external =>
              let Has := fun runtime : Runtime => ∃ current,
                runtime.workerStates[workerName]? = some current ∧ current.slots = state.slots
              have stays : ∀ {early late}, Quiet early late → Has early → Has late := by
                rintro early late quiet ⟨current, present, same⟩
                obtain ⟨next, kept, slots⟩ := quiet.worker present
                exact ⟨next, kept, slots.trans same⟩
              have stopsHere : ∀ {early late}, Quiet early late → Has early → related early late :=
                fun quiet _ => stops quiet
              have absorbsHere : ∀ {early between late}, Quiet early between →
                  (Has between → related between late) → Has early → related early late :=
                fun quiet rest has => absorbs quiet (rest (stays quiet has))
              refine Program.Moves.follow (Handler.cachedRunbook_quiet outside _) stopsHere
                absorbsHere (fun _ runbook looked _ => ?_) before ⟨state, found, rfl⟩
              refine Program.Moves.follow (Handler.require_quiet _ _) stopsHere absorbsHere
                (fun _ queueDef start _ => ?_) looked
              rintro ⟨current, present, same⟩
              have runs : current.status ≠ .stopped := (congrArg (·.status) same).trans_ne running
              have quiet := Handler.setRunning_quiet present runs
              obtain ⟨last, kept, slots⟩ := quiet.worker present
              have slots := slots.trans same
              have room : last.available = state.available :=
                have read := congrArg WorkerState.available slots
                read
              have takes := taking (queueDef.take.getD "") state.projectRoot kept
                ((congrArg (·.status) slots).trans_ne running)
              rw [room] at takes
              have ended := Program.bind_pure_state (Handler.takeItems outside workerName
                (queueDef.take.getD "") state.projectRoot state.available items)
                (fun _ => loaded.toList)
              exact absorbs quiet (ended _ ▸ takes)

/-- A poll of an external queue takes no more items than there are slots. -/
theorem handleWorkerPollComplete_fires (items : List Value) :
    Program.Moves (Fires workerName ns concurrency takes jobs)
      (Handler.handleWorkerPollComplete outside workerName items) := by
  refine handleWorkerPollComplete_moves Quiet.fires Quiet.then_fires (fun found type kept => ?_)
    fun takeTemplate cwd _ _ found running kept => ?_
  · have external := (kept.worker _ found).1.inSlots.external
    rw [type] at external
    cases external
  · exact takeItems_reserves takeTemplate cwd items _ takes _ kept
      (leaves_available kept found running)

end Take

/-! ## Take commands that have ended -/

def newJobs (before after : Runtime) : List JobId :=
  after.world.state.jobs.keys.filter fun id => (before.world.state.jobs[id]?).isNone

theorem newJobs_eq_nil {before after : Runtime}
    (same : ∀ id : JobId, (after.world.state.jobs[id]?).isSome =
      (before.world.state.jobs[id]?).isSome) : newJobs before after = [] := by
  unfold newJobs
  rw [List.filter_eq_nil_iff]
  intro id member
  have present := Std.ExtTreeMap.mem_keys.mp member
  rw [Std.ExtTreeMap.mem_iff_isSome_getElem?, same] at present
  rw [Bool.not_eq_true, Option.isNone_eq_false_iff]
  exact present

/-- One job is new. -/
theorem newJobs_eq_singleton {before after : Runtime} {id : JobId}
    (others : ∀ other, other ≠ id → (after.world.state.jobs[other]?).isSome =
      (before.world.state.jobs[other]?).isSome)
    (absent : before.world.state.jobs[id]? = none)
    (present : (after.world.state.jobs[id]?).isSome = true) : newJobs before after = [id] := by
  have distinct : (newJobs before after).Nodup :=
    Std.ExtTreeMap.nodup_keys.sublist List.filter_sublist
  refine List.perm_singleton.mp ((List.perm_ext_iff_of_nodup distinct
    (List.pairwise_singleton _ _)).mpr fun other => ?_)
  unfold newJobs
  rw [List.mem_filter, Std.ExtTreeMap.mem_keys, Std.ExtTreeMap.mem_iff_isSome_getElem?,
    List.mem_singleton]
  constructor
  · rintro ⟨after, before⟩
    by_contra differs
    rw [others other differs] at after
    rw [Option.isNone_iff_eq_none] at before
    rw [before] at after
    cases after
  · rintro rfl
    rw [absent]
    exact ⟨present, rfl⟩

section Finish

variable {outside : Outside} {workerName ns : String} {concurrency : Nat}
  {takes : List (String × Value)} {jobs : List (JobId × String)}

/-- While the worker runs, the slot and the item of a take command that has ended are
still reserved. -/
def FreedIn (workerName : String) (concurrency : Nat) (takes : List (String × Value))
    (jobs : List (JobId × String)) (itemId : String) (runtime : Runtime) : Prop :=
  ∀ state : WorkerState, runtime.workerStates[workerName]? = some state →
    state.status = .running → Freed concurrency takes (liveJobs jobs runtime) itemId state

theorem FreedIn.quiet {itemId : String} {before after : Runtime}
    (freed : FreedIn workerName concurrency takes jobs itemId before) (quiet : Quiet before after) :
    FreedIn workerName concurrency takes jobs itemId after := by
  intro state found running
  have same := quiet.slots workerName
  rw [found, Option.map_some] at same
  obtain ⟨prior, present, slots⟩ := Option.map_eq_some_iff.mp same.symm
  rw [liveJobs_congr quiet.jobs]
  have before := freed prior present
  cases state
  cases prior
  cases slots
  obtain ⟨slot, inflight, untracked, untaken⟩ := before running
  exact ⟨slot, inflight, untracked, untaken⟩

/-- A take command ends. -/
theorem Reservations.taken {runtime : Runtime} {itemId : String} {item : Value}
    (kept : Reservations workerName ns concurrency takes jobs runtime)
    (underWay : (itemId, item) ∈ takes) :
    let after := runtime.updating workerName fun state =>
      { state with pendingTakes := state.pendingTakes - 1 }
    let rest := takes.eraseP (·.1 == itemId)
    Reservations workerName ns concurrency rest jobs after ∧
      FreedIn workerName concurrency rest jobs itemId after := by
  intro after rest
  have fewer : rest.Sublist takes := List.eraseP_sublist
  constructor
  · refine kept.modify workerName (fun _ _ inactive unmapped => ⟨inactive, unmapped⟩)
      (fun take member => kept.named take (fewer.subset member)) ?_ fun state _ holds => ?_
    · rintro rfl
      cases underWay
    · rw [if_pos rfl]
      exact (holds.taken underWay).1
  · intro state found running
    change (runtime.workerStates.modify workerName _)[workerName]? = some state at found
    rw [Table.lookup_modify, if_pos rfl] at found
    obtain ⟨prior, present, rfl⟩ := Option.map_eq_some_iff.mp found
    exact ((kept.worker prior present).1.taken underWay).2 running

/-- The item of a take command that has failed can be taken again. -/
theorem Reservations.putBack {runtime : Runtime} {itemId : String}
    (kept : Reservations workerName ns concurrency takes jobs runtime)
    (freed : FreedIn workerName concurrency takes jobs itemId runtime) :
    Reservations workerName ns concurrency takes jobs (runtime.updating workerName fun state =>
      { state with inflightItems := state.inflightItems.erase itemId }) := by
  refine kept.modify workerName (fun _ _ inactive unmapped => ⟨inactive, unmapped⟩) kept.named
    (fun empty => empty) fun state found holds => ?_
  rw [if_pos rfl]
  exact holds.putBack (freed state found)

/-! ## Jobs that are created -/

theorem liveJobs_of_steps {before after : Runtime}
    (steps : ∀ entry ∈ jobs, (after.world.state.jobs[entry.1]?).map (·.step) =
      (before.world.state.jobs[entry.1]?).map (·.step)) :
    liveJobs jobs after = liveJobs jobs before := by
  refine List.filter_congr fun entry member => ?_
  rw [atWork_eq, atWork_eq, steps entry member]

/-- The other jobs stay on the record, and the new one is put there. -/
theorem tracked_record {turn middle : Runtime} {id : JobId} (order : WalkOrder) (itemId : String)
    (elsewhere : Elsewhere id turn middle) {record : WorkerRecord}
    (recorded : turn.world.state.workers[scopedName ns workerName]? = some record) :
    ∃ after : WorkerRecord, (middle.tracking order workerName itemId ns id).world.state.workers[
        scopedName ns workerName]? = some after ∧
      id ∈ after.activeJobIds ∧
      ∀ other ∈ record.activeJobIds, other ≠ id → other ∈ after.activeJobIds := by
  have same := elsewhere.listed (scopedName ns workerName)
  unfold MaterializedState.listedBut at same
  rw [recorded, Option.map_some] at same
  obtain ⟨between, present, listed⟩ := Option.map_eq_some_iff.mp same
  have kept : ∀ other ∈ record.activeJobIds, other ≠ id → other ∈ between.activeJobIds := by
    intro other member differs
    have filtered : other ∈ record.activeJobIds.filter (· ≠ id) :=
      List.mem_filter.mpr ⟨member, decide_eq_true differs⟩
    rw [← listed] at filtered
    exact (List.mem_filter.mp filtered).1
  have updated : ∀ update : WorkerRecord → WorkerRecord,
      (middle.world.state.workers.modify (scopedName ns workerName) update)[
        scopedName ns workerName]? = some (update between) := by
    intro update
    rw [Table.lookup_modify, if_pos rfl, present, Option.map_some]
  refine ⟨_, updated _, ?_⟩
  split
  · exact ⟨‹_›, kept⟩
  · refine ⟨List.mem_append_right _ (List.mem_singleton.mpr rfl), fun other member differs => ?_⟩
    exact List.mem_append_left _ (kept other member differs)

/-- Jobs that are listed once a new job is tracked were listed before. -/
theorem listed_tracking {turn middle : Runtime} {id other : JobId} (order : WalkOrder)
    (itemId ns' : String) (elsewhere : Elsewhere id turn middle) (differs : other ≠ id)
    (listed : (middle.tracking order workerName itemId ns' id).world.state.Listed other) :
    turn.world.state.Listed other := by
  have inMiddle : middle.world.state.Listed other := by
    obtain ⟨key, record, found, member⟩ := listed
    change (middle.world.state.workers.modify (scopedName ns' workerName) _)[key]? = _ at found
    rw [Table.lookup_modify] at found
    split at found
    · obtain ⟨between, present, rfl⟩ := Option.map_eq_some_iff.mp found
      refine ⟨key, between, present, ?_⟩
      split at member
      · exact member
      · rcases List.mem_append.mp member with old | new
        · exact old
        · exact absurd (List.mem_singleton.mp new) differs
    · exact ⟨key, record, found, member⟩
  obtain ⟨key, record, found, member⟩ := inMiddle
  have same := elsewhere.listed key
  unfold MaterializedState.listedBut at same
  rw [found, Option.map_some] at same
  obtain ⟨before, present, lists⟩ := Option.map_eq_some_iff.mp same.symm
  have filtered : other ∈ record.activeJobIds.filter (· ≠ id) :=
    List.mem_filter.mpr ⟨member, decide_eq_true differs⟩
  rw [← lists] at filtered
  exact ⟨key, before, present, (List.mem_filter.mp filtered).1⟩

/-- Once the first of the new ids is tracked, the others are still new. -/
theorem NewIds.tracking {turn middle : Runtime} {order : WalkOrder} (newIds : NewIds turn)
    (itemId ns' : String) (elsewhere : Elsewhere (turn.readings 0).uuid turn middle)
    (shifted : ∃ read, ∀ n, middle.readings n = turn.readings (n + (read + 1))) :
    NewIds (middle.tracking order workerName itemId ns' (turn.readings 0).uuid) := by
  obtain ⟨read, readings⟩ := shifted
  have others : ∀ n, (turn.readings (n + (read + 1))).uuid ≠ (turn.readings 0).uuid := by
    intro n same
    exact newIds.apart (n + (read + 1)) 0 (by omega) (same ▸ List.prefix_refl _)
  constructor
  · refine newIds.used readings elsewhere.jobs fun id differs untracked => ?_
    refine untracked_tracking order itemId ns' differs ?_
    rw [elsewhere.workers]
    exact untracked
  · intro n
    change ¬MaterializedState.Listed _ (middle.readings n).uuid
    rw [readings]
    intro listed
    exact newIds.unlisted _ (listed_tracking order itemId ns' elsewhere (others n) listed)

/-- The job of an item whose take command has ended joins the jobs of the worker. -/
theorem Reservations.tracking {turn middle : Runtime} {state : WorkerState} {itemId : String}
    (order : WalkOrder) (kept : Reservations workerName ns concurrency takes jobs turn)
    (freed : FreedIn workerName concurrency takes jobs itemId turn)
    (found : turn.workerStates[workerName]? = some state) (running : state.status ≠ .stopped)
    (present : Known (turn.readings 0).uuid middle)
    (elsewhere : Elsewhere (turn.readings 0).uuid turn middle)
    (shifted : ∃ read, ∀ n, middle.readings n = turn.readings (n + (read + 1))) :
    Reservations workerName ns concurrency takes (jobs ++ [((turn.readings 0).uuid, itemId)])
      (middle.tracking order workerName itemId state.ns (turn.readings 0).uuid) := by
  let id := (turn.readings 0).uuid
  let after := middle.tracking order workerName itemId state.ns id
  obtain ⟨holds, record, recorded, lists⟩ := kept.worker state found
  have isRunning : state.status = .running := by
    cases status : state.status with
    | running => rfl
    | stopped => exact absurd status running
  have isFreed := freed state found isRunning
  have isNew : ∀ entry ∈ jobs, entry.1 ≠ id := by
    intro entry member same
    obtain ⟨job, stored⟩ := Option.isSome_iff_exists.mp (kept.known entry member)
    exact kept.newIds.jobs 0 entry.1 job stored (same ▸ List.prefix_refl _)
  have same : liveJobs jobs after = liveJobs jobs turn :=
    liveJobs_of_steps fun entry member => elsewhere.jobs entry.1 (isNew entry member)
  have live : liveJobs (jobs ++ [(id, itemId)]) after =
      liveJobs jobs turn ++ liveJobs [(id, itemId)] after := by
    rw [← same]
    exact List.filter_append _ _
  have atMost : (liveJobs (jobs ++ [(id, itemId)]) after).Sublist
      (liveJobs jobs turn ++ [(id, itemId)]) := by
    rw [live]
    exact List.filter_sublist.append_left _
  have isNewLive : ∀ entry ∈ liveJobs jobs turn, entry.1 ≠ id := fun entry member =>
    isNew entry (List.mem_filter.mp member).1
  have foundThen : after.workerStates[workerName]? = some (state.track id itemId) := by
    change (middle.workerStates.modify workerName (·.track id itemId))[workerName]? = _
    rw [Table.lookup_modify, if_pos rfl, elsewhere.workers, found, Option.map_some]
  constructor
  · exact kept.newIds.tracking itemId state.ns elsewhere shifted
  · intro entry member
    rcases List.mem_append.mp member with old | new
    · have steps := elsewhere.jobs entry.1 (isNew entry old)
      have stays := congrArg Option.isSome steps
      rw [Option.isSome_map, Option.isSome_map] at stays
      exact stays ▸ kept.known entry old
    · cases List.mem_singleton.mp new
      obtain ⟨⟨job, stored, _⟩, _⟩ := present
      exact Option.isSome_iff_exists.mpr ⟨job, stored⟩
  · rw [List.map_append, List.nodup_append]
    refine ⟨kept.distinct, List.pairwise_singleton _ _, ?_⟩
    rintro other member _ only rfl
    cases List.mem_singleton.mp only
    obtain ⟨entry, inJobs, named⟩ := List.mem_map.mp member
    exact isNew entry inJobs named
  · refine List.Nodup.sublist (atMost.map _) ?_
    rw [List.map_append, List.nodup_append]
    refine ⟨kept.items, List.pairwise_singleton _ _, ?_⟩
    rintro other member _ only rfl
    cases List.mem_singleton.mp only
    obtain ⟨entry, isLive, named⟩ := List.mem_map.mp member
    refine isFreed.untracked entry.1 ?_
    rw [(holds.reserved isRunning).mapped entry isLive, named]
  · have slot := isFreed.slot
    have length := atMost.length_le
    rw [List.length_append, List.length_singleton] at length
    exact length.trans (by omega)
  · exact kept.named
  · intro absent
    rw [foundThen] at absent
    cases absent
  · intro current currently
    rw [foundThen] at currently
    cases currently
    refine ⟨(holds.track isRunning isFreed isNewLive).shrink atMost, ?_⟩
    have tracks := @tracked_record workerName ns turn middle id order itemId elsewhere
      record recorded
    rw [← holds.namespaced] at tracks ⊢
    obtain ⟨listed, found, newest, others⟩ := tracks
    refine ⟨listed, found, fun entry member => ?_⟩
    rcases List.mem_append.mp (atMost.subset member) with old | new
    · exact others entry.1 (lists entry old) (isNewLive entry old)
    · cases List.mem_singleton.mp new
      exact newest

/-- The job of the item, once it is prepared, can be started, whatever the runbook of
the worker now says. -/
def SteadyTake (outside : Outside) (workerName : String) (item : Value) (runtime : Runtime) : Prop :=
  ∀ loaded turn, Handler.refreshWorkerRunbook outside workerName (runtime.updating workerName
      fun state => { state with pendingTakes := state.pendingTakes - 1 }) = (.ok loaded, turn) →
    SteadyDispatch outside workerName item turn

def jobsFor (itemId : String) (before after : Runtime) : List (JobId × String) :=
  (newJobs before after).map fun id => (id, itemId)

theorem jobsFor_eq_nil {itemId : String} {before after : Runtime}
    (same : after.world.state.jobs = before.world.state.jobs) : jobsFor itemId before after = [] := by
  have none : newJobs before after = [] := newJobs_eq_nil fun id => by rw [same]
  unfold jobsFor
  rw [none]
  rfl

/-- What the end of a take command comes to: no item is taken, and there is a slot for
the job that is created. -/
structure Finishes (workerName ns : String) (concurrency : Nat) (takes : List (String × Value))
    (jobs : List (JobId × String)) (itemId : String) (before after : Runtime) : Prop where
  untaken : after.world.takes = before.world.takes
  kept : Reservations workerName ns concurrency takes (jobs ++ jobsFor itemId before after) after
  slot : (liveJobs jobs before).length + (jobsFor itemId before after).length ≤ concurrency

theorem Finishes.of_keeps {itemId : String} {before after : Runtime}
    (same : after.world.state.jobs = before.world.state.jobs)
    (taken : after.world.takes = before.world.takes)
    (kept : Reservations workerName ns concurrency takes jobs after) :
    Finishes workerName ns concurrency takes jobs itemId before after where
  untaken := taken
  kept := by
    rw [jobsFor_eq_nil same, List.append_nil]
    exact kept
  slot := by
    rw [jobsFor_eq_nil same, ← liveJobs_congr same]
    exact kept.few

/-- Only the jobs and the requests count of what was before. -/
theorem Finishes.after {itemId : String} {first before after : Runtime}
    (finishes : Finishes workerName ns concurrency takes jobs itemId before after)
    (same : before.world.state.jobs = first.world.state.jobs)
    (taken : before.world.takes = first.world.takes) :
    Finishes workerName ns concurrency takes jobs itemId first after := by
  have created : jobsFor itemId first after = jobsFor itemId before after := by
    unfold jobsFor newJobs
    rw [same]
  constructor
  · exact finishes.untaken.trans taken
  · rw [created]
    exact finishes.kept
  · rw [created, ← liveJobs_congr same]
    exact finishes.slot

/-- A dispatch of an item whose take command has ended. -/
theorem dispatchQueueItem_finishes {turn : Runtime} {item : Value}
    (kept : Reservations workerName ns concurrency takes jobs turn)
    (freed : FreedIn workerName concurrency takes jobs (itemIdOf item) turn)
    (steady : SteadyDispatch outside workerName item turn) :
    Finishes workerName ns concurrency takes jobs (itemIdOf item) turn
      (Handler.dispatchQueueItem outside workerName item turn).2 := by
  rcases dispatchQueueItem_steady kept.newIds.toFreshIds steady with
    aside | ⟨state, middle, found, running, present, elsewhere, shifted, ended⟩
  · exact .of_keeps (congrArg (·.jobs) aside.state) aside.takes (kept.quiet (.of_aside aside))
  · rw [ended]
    let id := (turn.readings 0).uuid
    let after := middle.tracking outside.order workerName (itemIdOf item) state.ns id
    have absent : turn.world.state.jobs[id]? = none := by
      cases stored : turn.world.state.jobs[id]? with
      | none => rfl
      | some job => exact absurd (List.prefix_refl _) (kept.newIds.jobs 0 id job stored)
    have created : newJobs turn after = [id] := by
      refine newJobs_eq_singleton (fun other differs => ?_) absent ?_
      · have steps := congrArg Option.isSome (elsewhere.jobs other differs)
        rw [Option.isSome_map, Option.isSome_map] at steps
        exact steps
      · obtain ⟨⟨job, stored, _⟩, _⟩ := present
        exact Option.isSome_iff_exists.mpr ⟨job, stored⟩
    have tracked := kept.tracking outside.order freed found running present elsewhere shifted
    constructor
    · exact elsewhere.takes
    · unfold jobsFor
      rw [created]
      exact tracked
    · have isRunning : state.status = .running := by
        cases status : state.status with
        | running => rfl
        | stopped => exact absurd status running
      have slot := (freed state found isRunning).slot
      unfold jobsFor
      rw [created, List.map_singleton, List.length_singleton]
      omega

/-- A take command that has ended gives back its reservation, or turns it into a job. -/
theorem handleWorkerTakeComplete_finishes {runtime : Runtime} {itemId : String} {item : Value}
    {exitCode : Int} (kept : Reservations workerName ns concurrency takes jobs runtime)
    (underWay : (itemId, item) ∈ takes)
    (steady : exitCode = 0 → SteadyTake outside workerName item runtime) :
    Finishes workerName ns concurrency (takes.eraseP (·.1 == itemId)) jobs itemId runtime
      (Handler.handleWorkerTakeComplete outside workerName itemId item exitCode runtime).2 := by
  have named : itemIdOf item = itemId := kept.named _ underWay
  obtain ⟨reserved, freed⟩ := kept.taken underWay
  let started := runtime.updating workerName fun state =>
    { state with pendingTakes := state.pendingTakes - 1 }
  have opened : Handler.handleWorkerTakeComplete outside workerName itemId item exitCode runtime =
      (if exitCode ≠ 0 then do
        Handler.updateWorkerState workerName fun state =>
          { state with inflightItems := state.inflightItems.erase itemId }
        pure []
      else do
        let loaded ← Handler.refreshWorkerRunbook outside workerName
        let events ← Handler.dispatchQueueItem outside workerName item
        pure (loaded.toList ++ events) : Handler (List Event)) started := rfl
  rw [opened]
  split
  · exact .of_keeps rfl rfl (reserved.putBack freed)
  · rename_i failed
    have steady := steady (Decidable.not_not.mp failed)
    have quiet := Handler.refreshWorkerRunbook_quiet outside workerName started
    rcases refreshed : Handler.refreshWorkerRunbook outside workerName started with ⟨result, turn⟩
    rw [refreshed] at quiet
    cases result with
    | error error =>
        rw [Program.bind_error refreshed]
        exact .of_keeps quiet.jobs quiet.takes (reserved.quiet quiet)
    | ok loaded =>
        rw [Program.bind_ok refreshed]
        have last := Program.bind_pure_state (Handler.dispatchQueueItem outside workerName item)
          (fun events => loaded.toList ++ events) turn
        rw [last]
        have freedThen := freed.quiet quiet
        have finishes := dispatchQueueItem_finishes (reserved.quiet quiet) (named ▸ freedThen)
          (steady loaded turn refreshed)
        rw [named] at finishes
        exact finishes.after quiet.jobs quiet.takes

end Finish

end OddJobs
