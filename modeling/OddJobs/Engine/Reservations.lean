import OddJobs.Engine.Dispatch
import OddJobs.Engine.Slots

/-!
# Reservations of slots

A worker of an external queue reserves a slot and the item before it has the item
taken.  What ties its slots, its reservations, the take commands under way and the
jobs created for it together is kept by all that its handlers do.
-/

namespace OddJobs

open Library

/-- The ids still to come are new to the worker records too. -/
structure NewIds (runtime : Runtime) : Prop extends FreshIds runtime where
  unlisted : ∀ n, ¬runtime.world.state.Listed (runtime.readings n).uuid

def liveJobs (jobs : List (JobId × String)) (runtime : Runtime) : List (JobId × String) :=
  jobs.filter fun entry => (runtime.world.state.jobs[entry.1]?).any (!·.isTerminal)

/-- The worker has a slot for each job at work and for each reservation. -/
structure InSlots (concurrency : Nat) (live : List (JobId × String)) (state : WorkerState) :
    Prop where
  sized : state.concurrency = concurrency
  external : state.queueType = .external
  active : ∀ entry ∈ live, state.activeJobs.contains entry.1 = true
  slots : live.length + state.pendingTakes ≤ concurrency

/-- Each take command under way has a reservation, and each item is taken or worked on
only once. -/
structure Reserved (takes : List (String × Value)) (live : List (JobId × String))
    (state : WorkerState) : Prop where
  pending : takes.length ≤ state.pendingTakes
  distinct : (takes.map (·.1)).Nodup
  taken : ∀ take ∈ takes, state.inflightItems.contains take.1 = true ∧
    ∀ id : JobId, state.itemJobMap[id]? ≠ some take.1
  tracked : ∀ (id : JobId) (item : String), state.itemJobMap[id]? = some item →
    state.inflightItems.contains item = true
  injective : ∀ (left right : JobId) (item : String), state.itemJobMap[left]? = some item →
    state.itemJobMap[right]? = some item → left = right
  mapped : ∀ entry ∈ live, state.itemJobMap[entry.1]? = some entry.2

/-- What a worker has, given its jobs at work and its take commands under way. -/
structure Holds (ns : String) (concurrency : Nat) (takes : List (String × Value))
    (live : List (JobId × String)) (state : WorkerState) : Prop where
  namespaced : state.ns = ns
  inSlots : InSlots concurrency live state
  reserved : state.status = .running → Reserved takes live state

/-- The slots, the reservations, the take commands and the jobs of a worker agree. -/
structure Reservations (workerName ns : String) (concurrency : Nat)
    (takes : List (String × Value)) (jobs : List (JobId × String)) (runtime : Runtime) : Prop where
  newIds : NewIds runtime
  known : ∀ entry ∈ jobs, (runtime.world.state.jobs[entry.1]?).isSome = true
  distinct : (jobs.map (·.1)).Nodup
  items : ((liveJobs jobs runtime).map (·.2)).Nodup
  few : (liveJobs jobs runtime).length ≤ concurrency
  named : ∀ take ∈ takes, itemIdOf take.2 = take.1
  idle : runtime.workerStates[workerName]? = none → takes = [] ∧ jobs = []
  worker : ∀ state : WorkerState, runtime.workerStates[workerName]? = some state →
    Holds ns concurrency takes (liveJobs jobs runtime) state ∧
      ∃ record, runtime.world.state.workers[scopedName ns workerName]? = some record ∧
        ∀ entry ∈ liveJobs jobs runtime, entry.1 ∈ record.activeJobIds

section Keep

variable {workerName ns : String} {concurrency : Nat} {takes : List (String × Value)}
  {jobs : List (JobId × String)} {before after : Runtime}

theorem liveJobs_congr (same : after.world.state.jobs = before.world.state.jobs) :
    liveJobs jobs after = liveJobs jobs before := by
  unfold liveJobs
  rw [same]

theorem atWork_eq (table : HashMap Job) (id : JobId) : (table[id]?).any (!·.isTerminal) =
    ((table[id]?).map (·.step)).any (!isTerminalStep ·) := by
  rw [Option.any_map]
  rfl

theorem Holds.of_slots {live : List (JobId × String)} {state other : WorkerState}
    (holds : Holds ns concurrency takes live state) (same : other.slots = state.slots) :
    Holds ns concurrency takes live other := by
  obtain ⟨namespaced, ⟨slotted, external, active, slots⟩, reserved⟩ := holds
  cases other
  cases state
  cases same
  refine ⟨namespaced, ⟨slotted, external, active, slots⟩, fun running => ?_⟩
  obtain ⟨pending, distinct, taken, tracked, injective, mapped⟩ := reserved running
  exact ⟨pending, distinct, taken, tracked, injective, mapped⟩

theorem untracked_quiet {id : JobId} (untracked : Untracked id before.workerStates)
    (quiet : Quiet before after) : Untracked id after.workerStates := by
  intro name state found
  have same := quiet.slots name
  rw [found, Option.map_some] at same
  obtain ⟨prior, present, slots⟩ := Option.map_eq_some_iff.mp same.symm
  obtain ⟨inactive, unmapped⟩ := untracked name prior present
  cases state
  cases prior
  cases slots
  exact ⟨inactive, unmapped⟩

theorem FreshIds.quiet (fresh : FreshIds before) (quiet : Quiet before after) : FreshIds after := by
  obtain ⟨read, readings⟩ := quiet.readings
  constructor
  · intro m n differs
    rw [readings, readings]
    exact fresh.apart _ _ (by omega)
  · intro n
    rw [readings, quiet.jobs]
    exact fresh.jobs (n + read)
  · intro n
    rw [readings]
    exact untracked_quiet (fresh.workers (n + read)) quiet

theorem NewIds.quiet (newIds : NewIds before) (quiet : Quiet before after) : NewIds after := by
  obtain ⟨read, readings⟩ := quiet.readings
  refine ⟨newIds.toFreshIds.quiet quiet, fun n => ?_⟩
  rw [readings]
  unfold MaterializedState.Listed
  rw [quiet.records]
  exact newIds.unlisted (n + read)

/-- What leaves the slots alone keeps the reservations. -/
theorem Reservations.quiet (reservations : Reservations workerName ns concurrency takes jobs before)
    (quiet : Quiet before after) : Reservations workerName ns concurrency takes jobs after := by
  have live : liveJobs jobs after = liveJobs jobs before := liveJobs_congr quiet.jobs
  have slots := quiet.slots workerName
  constructor
  · exact reservations.newIds.quiet quiet
  · rw [quiet.jobs]
    exact reservations.known
  · exact reservations.distinct
  · rw [live]
    exact reservations.items
  · rw [live]
    exact reservations.few
  · exact reservations.named
  · intro absent
    rw [absent, Option.map_none] at slots
    exact reservations.idle (Option.map_eq_none_iff.mp slots.symm)
  · intro state found
    rw [found, Option.map_some] at slots
    obtain ⟨prior, present, same⟩ := Option.map_eq_some_iff.mp slots.symm
    obtain ⟨holds, recorded⟩ := reservations.worker prior present
    rw [live, quiet.records]
    exact ⟨holds.of_slots same.symm, recorded⟩

/-- A change of the states of workers by which none of them gets new jobs. -/
theorem FreshIds.modify (fresh : FreshIds before) (name : String)
    {update : WorkerState → WorkerState}
    (fewer : ∀ (state : WorkerState) (id : JobId), state.activeJobs.contains id = false →
      state.itemJobMap[id]? = none →
      (update state).activeJobs.contains id = false ∧ (update state).itemJobMap[id]? = none) :
    FreshIds { before with workerStates := before.workerStates.modify name update } where
  apart := fresh.apart
  jobs := fresh.jobs
  workers := by
    intro n other state found
    dsimp only at found
    rw [Table.lookup_modify] at found
    split at found
    · obtain ⟨prior, present, rfl⟩ := Option.map_eq_some_iff.mp found
      obtain ⟨inactive, unmapped⟩ := fresh.workers n other prior present
      exact fewer prior _ inactive unmapped
    · exact fresh.workers n other state found

theorem NewIds.modify (newIds : NewIds before) (name : String)
    {update : WorkerState → WorkerState}
    (fewer : ∀ (state : WorkerState) (id : JobId), state.activeJobs.contains id = false →
      state.itemJobMap[id]? = none →
      (update state).activeJobs.contains id = false ∧ (update state).itemJobMap[id]? = none) :
    NewIds { before with workerStates := before.workerStates.modify name update } :=
  ⟨newIds.toFreshIds.modify name fewer, newIds.unlisted⟩

theorem Reservations.modify
    (reservations : Reservations workerName ns concurrency takes jobs before) (name : String)
    {update : WorkerState → WorkerState} {takes' : List (String × Value)}
    (fewer : ∀ (state : WorkerState) (id : JobId), state.activeJobs.contains id = false →
      state.itemJobMap[id]? = none →
      (update state).activeJobs.contains id = false ∧ (update state).itemJobMap[id]? = none)
    (named : ∀ take ∈ takes', itemIdOf take.2 = take.1) (idle : takes = [] → takes' = [])
    (holds : ∀ state : WorkerState, before.workerStates[workerName]? = some state →
      Holds ns concurrency takes (liveJobs jobs before) state →
      Holds ns concurrency takes' (liveJobs jobs before)
        (if name = workerName then update state else state)) :
    Reservations workerName ns concurrency takes' jobs
      { before with workerStates := before.workerStates.modify name update } where
  newIds := reservations.newIds.modify name fewer
  known := reservations.known
  distinct := reservations.distinct
  items := reservations.items
  few := reservations.few
  named := named
  idle := by
    intro absent
    dsimp only at absent
    rw [Table.lookup_modify] at absent
    have missing : before.workerStates[workerName]? = none := by
      split at absent
      · exact Option.map_eq_none_iff.mp absent
      · exact absent
    obtain ⟨noTakes, noJobs⟩ := reservations.idle missing
    exact ⟨idle noTakes, noJobs⟩
  worker := by
    intro state found
    dsimp only at found
    rw [Table.lookup_modify] at found
    split at found
    · rename_i same
      obtain ⟨prior, present, rfl⟩ := Option.map_eq_some_iff.mp found
      obtain ⟨held, recorded⟩ := reservations.worker prior present
      have kept := holds prior present held
      rw [if_pos same] at kept
      exact ⟨kept, recorded⟩
    · rename_i other
      obtain ⟨held, recorded⟩ := reservations.worker state found
      have kept := holds state found held
      rw [if_neg other] at kept
      exact ⟨kept, recorded⟩

end Keep

/-! ## What the handlers do to a worker -/

section Holds

variable {ns : String} {concurrency : Nat} {takes : List (String × Value)}
  {live : List (JobId × String)} {state : WorkerState}

theorem release_fewer (id : JobId) (state : WorkerState) (other : JobId)
    (inactive : state.activeJobs.contains other = false)
    (unmapped : state.itemJobMap[other]? = none) :
    (state.release id).activeJobs.contains other = false ∧
      (state.release id).itemJobMap[other]? = none := by
  constructor
  · rw [Table.contains_eq_isSome] at inactive ⊢
    change ((state.activeJobs.erase id)[other]?).isSome = false
    rw [Table.lookup_erase]
    split
    · rfl
    · exact inactive
  · change (state.itemJobMap.erase id)[other]? = none
    rw [Table.lookup_erase, unmapped, ite_self]

/-- Items other than that of the released job stay in flight. -/
theorem release_inflight {id : JobId} {item : String}
    (inflight : state.inflightItems.contains item = true)
    (other : state.itemJobMap[id]? ≠ some item) :
    (state.release id).inflightItems.contains item = true := by
  unfold WorkerState.release
  dsimp only
  split
  · rename_i released mapped
    rw [Table.contains_eq_isSome] at inflight ⊢
    rw [Table.lookup_erase, if_neg]
    · exact inflight
    · rintro rfl
      exact other mapped
  · exact inflight

/-- A job that has ended is let go. -/
theorem Holds.release (holds : Holds ns concurrency takes live state) {id : JobId}
    (ended : ∀ entry ∈ live, entry.1 ≠ id) :
    Holds ns concurrency takes live (state.release id) where
  namespaced := holds.namespaced
  inSlots := by
    refine ⟨holds.inSlots.sized, holds.inSlots.external, fun entry member => ?_,
      holds.inSlots.slots⟩
    have active := holds.inSlots.active entry member
    rw [Table.contains_eq_isSome] at active ⊢
    change ((state.activeJobs.erase id)[entry.1]?).isSome = true
    rw [Table.lookup_erase, if_neg (Ne.symm (ended entry member))]
    exact active
  reserved := by
    intro running
    have reserved := holds.reserved running
    have erased : ∀ {other : JobId} {item : String},
        (state.release id).itemJobMap[other]? = some item →
        id ≠ other ∧ state.itemJobMap[other]? = some item := by
      intro other item mapped
      change (state.itemJobMap.erase id)[other]? = some item at mapped
      rw [Table.lookup_erase] at mapped
      split at mapped
      · cases mapped
      · exact ⟨‹_›, mapped⟩
    constructor
    · exact reserved.pending
    · exact reserved.distinct
    · intro take member
      obtain ⟨inflight, untracked⟩ := reserved.taken take member
      exact ⟨release_inflight inflight (untracked id),
        fun other mapped => untracked other (erased mapped).2⟩
    · intro other item mapped
      obtain ⟨differs, before⟩ := erased mapped
      refine release_inflight (reserved.tracked other item before) fun released => ?_
      exact differs (reserved.injective id other item released before)
    · intro left right item mappedLeft mappedRight
      exact reserved.injective left right item (erased mappedLeft).2 (erased mappedRight).2
    · intro entry member
      change (state.itemJobMap.erase id)[entry.1]? = some entry.2
      rw [Table.lookup_erase, if_neg (Ne.symm (ended entry member))]
      exact reserved.mapped entry member

/-- A worker that is stopped gives up its reservations. -/
theorem Holds.stop (holds : Holds ns concurrency takes live state) :
    Holds ns concurrency takes live state.stop where
  namespaced := holds.namespaced
  inSlots := by
    refine ⟨holds.inSlots.sized, holds.inSlots.external, holds.inSlots.active, ?_⟩
    exact (Nat.le_add_right _ _).trans holds.inSlots.slots
  reserved := fun running => nomatch running

/-- A slot and an item are reserved for a take command. -/
theorem Holds.reserve (holds : Holds ns concurrency takes live state) {itemId : String}
    (item : Value) (idle : state.inflightItems.contains itemId = false)
    (slot : live.length + state.pendingTakes < concurrency) :
    Holds ns concurrency (takes ++ [(itemId, item)]) live (state.reserve itemId) where
  namespaced := holds.namespaced
  inSlots := ⟨holds.inSlots.sized, holds.inSlots.external, holds.inSlots.active, slot⟩
  reserved := by
    intro running
    have reserved := holds.reserved running
    have inflight : ∀ item, (state.reserve itemId).inflightItems.contains item = true ↔
        itemId = item ∨ state.inflightItems.contains item = true := by
      intro item
      rw [Table.contains_eq_isSome, Table.contains_eq_isSome]
      change ((state.inflightItems.insert itemId ())[item]?).isSome = true ↔ _
      rw [Table.lookup_insert]
      split
      · simp [*]
      · simp [*]
    constructor
    · rw [List.length_append]
      exact Nat.succ_le_succ reserved.pending
    · rw [List.map_append, List.nodup_append]
      refine ⟨reserved.distinct, List.pairwise_singleton _ _, ?_⟩
      rintro other member _ only rfl
      cases List.mem_singleton.mp only
      obtain ⟨take, inTakes, rfl⟩ := List.mem_map.mp member
      rw [(reserved.taken take inTakes).1] at idle
      cases idle
    · intro take member
      rcases List.mem_append.mp member with old | new
      · obtain ⟨before, untracked⟩ := reserved.taken take old
        exact ⟨(inflight take.1).mpr (.inr before), untracked⟩
      · cases List.mem_singleton.mp new
        refine ⟨(inflight itemId).mpr (.inl rfl), fun id mapped => ?_⟩
        have tracked := reserved.tracked id itemId mapped
        rw [tracked] at idle
        cases idle
    · intro id item mapped
      exact (inflight item).mpr (.inr (reserved.tracked id item mapped))
    · exact reserved.injective
    · exact reserved.mapped

/-- Where keys are distinct, erasing the one with a key leaves none with it. -/
theorem ne_of_mem_eraseP {entries : List (String × Value)} {key : String}
    (distinct : (entries.map (·.1)).Nodup) {entry : String × Value}
    (member : entry ∈ entries.eraseP (·.1 == key)) : entry.1 ≠ key := by
  induction entries with
  | nil => cases member
  | cons head rest ih =>
      obtain ⟨others, distinct⟩ := List.nodup_cons.mp distinct
      rw [List.eraseP_cons] at member
      cases same : head.1 == key with
      | true =>
          rw [same, cond_true] at member
          rintro rfl
          exact others (List.mem_map.mpr ⟨entry, member, (eq_of_beq same).symm⟩)
      | false =>
          rw [same, cond_false] at member
          rcases List.mem_cons.mp member with rfl | later
          · exact ne_of_beq_false same
          · exact ih distinct later

/-- The reservation of a take command that has ended. -/
structure Freed (concurrency : Nat) (takes : List (String × Value))
    (live : List (JobId × String)) (itemId : String) (state : WorkerState) : Prop where
  slot : live.length + state.pendingTakes < concurrency
  inflight : state.inflightItems.contains itemId = true
  untracked : ∀ id : JobId, state.itemJobMap[id]? ≠ some itemId
  untaken : ∀ take ∈ takes, take.1 ≠ itemId

/-- A take command ends, and with it the reservation of its slot. -/
theorem Holds.taken (holds : Holds ns concurrency takes live state) {itemId : String} {item : Value}
    (underWay : (itemId, item) ∈ takes) :
    let after : WorkerState := { state with pendingTakes := state.pendingTakes - 1 }
    let rest := takes.eraseP (·.1 == itemId)
    Holds ns concurrency rest live after ∧
      (state.status = .running → Freed concurrency rest live itemId after) := by
  intro after rest
  have fewer : rest.Sublist takes := List.eraseP_sublist
  constructor
  · refine ⟨holds.namespaced, ⟨holds.inSlots.sized, holds.inSlots.external,
      holds.inSlots.active, ?_⟩, fun running => ?_⟩
    · exact (Nat.add_le_add_left (Nat.sub_le _ _) _).trans holds.inSlots.slots
    · have reserved := holds.reserved running
      constructor
      · have shorter : rest.length = takes.length - 1 :=
          List.length_eraseP_of_mem underWay (beq_self_eq_true itemId)
        rw [shorter]
        exact Nat.sub_le_sub_right reserved.pending 1
      · exact reserved.distinct.sublist (fewer.map _)
      · exact fun take member => reserved.taken take (fewer.subset member)
      · exact reserved.tracked
      · exact reserved.injective
      · exact reserved.mapped
  · intro running
    have reserved := holds.reserved running
    have several : 0 < takes.length := List.length_pos_of_mem underWay
    have pending := reserved.pending
    have slots := holds.inSlots.slots
    obtain ⟨inflight, untracked⟩ := reserved.taken _ underWay
    refine ⟨?_, inflight, untracked, ?_⟩
    · change live.length + (state.pendingTakes - 1) < concurrency
      omega
    · exact fun take member => ne_of_mem_eraseP reserved.distinct member

/-- The item of a take command that has failed can be taken again. -/
theorem Holds.putBack (holds : Holds ns concurrency takes live state) {itemId : String}
    (freed : state.status = .running → Freed concurrency takes live itemId state) :
    Holds ns concurrency takes live
      { state with inflightItems := state.inflightItems.erase itemId } where
  namespaced := holds.namespaced
  inSlots := ⟨holds.inSlots.sized, holds.inSlots.external, holds.inSlots.active,
    holds.inSlots.slots⟩
  reserved := by
    intro running
    have reserved := holds.reserved running
    have freed := freed running
    have inflight : ∀ {item : String}, item ≠ itemId →
        state.inflightItems.contains item = true →
        (state.inflightItems.erase itemId).contains item = true := by
      intro item differs before
      rw [Table.contains_eq_isSome] at before ⊢
      rw [Table.lookup_erase, if_neg (Ne.symm differs)]
      exact before
    constructor
    · exact reserved.pending
    · exact reserved.distinct
    · intro take member
      obtain ⟨before, untracked⟩ := reserved.taken take member
      exact ⟨inflight (freed.untaken take member) before, untracked⟩
    · intro id item mapped
      refine inflight ?_ (reserved.tracked id item mapped)
      rintro rfl
      exact freed.untracked id mapped
    · exact reserved.injective
    · exact reserved.mapped

theorem Holds.shrink {fewer : List (JobId × String)}
    (holds : Holds ns concurrency takes live state) (sublist : fewer.Sublist live) :
    Holds ns concurrency takes fewer state where
  namespaced := holds.namespaced
  inSlots := by
    refine ⟨holds.inSlots.sized, holds.inSlots.external,
      fun entry member => holds.inSlots.active entry (sublist.subset member), ?_⟩
    exact (Nat.add_le_add_right sublist.length_le _).trans holds.inSlots.slots
  reserved := by
    intro running
    obtain ⟨pending, distinct, taken, tracked, injective, mapped⟩ := holds.reserved running
    exact ⟨pending, distinct, taken, tracked, injective,
      fun entry member => mapped entry (sublist.subset member)⟩

/-- The job of an item whose take command has ended is tracked. -/
theorem Holds.track (holds : Holds ns concurrency takes live state) {itemId : String}
    {id : JobId} (running : state.status = .running)
    (freed : Freed concurrency takes live itemId state)
    (isNew : ∀ entry ∈ live, entry.1 ≠ id) :
    Holds ns concurrency takes (live ++ [(id, itemId)]) (state.track id itemId) where
  namespaced := holds.namespaced
  inSlots := by
    refine ⟨holds.inSlots.sized, holds.inSlots.external, fun entry member => ?_, ?_⟩
    · rw [Table.contains_eq_isSome]
      change ((state.activeJobs.insert id ())[entry.1]?).isSome = true
      rw [Table.lookup_insert]
      rcases List.mem_append.mp member with old | new
      · have active := holds.inSlots.active entry old
        rw [Table.contains_eq_isSome] at active
        rw [if_neg (Ne.symm (isNew entry old))]
        exact active
      · cases List.mem_singleton.mp new
        rw [if_pos rfl]
        rfl
    · rw [List.length_append]
      have slot := freed.slot
      change live.length + 1 + state.pendingTakes ≤ concurrency
      omega
  reserved := by
    intro _
    have reserved := holds.reserved running
    have mapped : ∀ other, (state.track id itemId).itemJobMap[other]? =
        if id = other then some itemId else state.itemJobMap[other]? :=
      fun other => Table.lookup_insert state.itemJobMap id other itemId
    constructor
    · exact reserved.pending
    · exact reserved.distinct
    · intro take member
      obtain ⟨inflight, untracked⟩ := reserved.taken take member
      refine ⟨inflight, fun other => ?_⟩
      rw [mapped]
      split
      · intro same
        exact freed.untaken take member (Option.some.inj same).symm
      · exact untracked other
    · intro other item
      rw [mapped]
      split
      · rintro ⟨⟩
        exact freed.inflight
      · exact reserved.tracked other item
    · intro left right item
      rw [mapped, mapped]
      split
      · rename_i isLeft
        rintro ⟨⟩
        split
        · rename_i isRight
          exact fun _ => isLeft.symm.trans isRight
        · exact fun other => absurd other (freed.untracked right)
      · intro mappedLeft
        split
        · rintro ⟨⟩
          exact absurd mappedLeft (freed.untracked left)
        · exact reserved.injective left right item mappedLeft
    · intro entry member
      rw [mapped]
      rcases List.mem_append.mp member with old | new
      · rw [if_neg (Ne.symm (isNew entry old))]
        exact reserved.mapped entry old
      · cases List.mem_singleton.mp new
        rw [if_pos rfl]

end Holds

/-! ## Handlers that neither take an item nor create a job -/

section Keeps

variable (workerName ns : String) (concurrency : Nat) (takes : List (String × Value))
  (jobs : List (JobId × String)) (table : HashMap Job)

/-- The jobs stay as they are, no item is taken, and the reservations are kept. -/
def Keeps (before after : Runtime) : Prop :=
  before.world.state.jobs = table → Reservations workerName ns concurrency takes jobs before →
    Reservations workerName ns concurrency takes jobs after ∧
      after.world.state.jobs = table ∧ after.world.takes = before.world.takes

variable {workerName ns concurrency takes jobs table}

theorem closed_keeps : Closed (Keeps workerName ns concurrency takes jobs table) where
  refl := fun _ same kept => ⟨kept, same, rfl⟩
  trans := fun first second same kept =>
    have ⟨keptFirst, sameFirst, takesFirst⟩ := first same kept
    have ⟨keptSecond, sameSecond, takesSecond⟩ := second sameFirst keptFirst
    ⟨keptSecond, sameSecond, takesSecond.trans takesFirst⟩

theorem Quiet.keeps {before after : Runtime} (quiet : Quiet before after) :
    Keeps workerName ns concurrency takes jobs table before after :=
  fun same kept => ⟨kept.quiet quiet, quiet.jobs.trans same, quiet.takes⟩

theorem quiet_keeps {α : Type} {program : Handler α} (quiet : Program.Moves Quiet program) :
    Program.Moves (Keeps workerName ns concurrency takes jobs table) program :=
  quiet.weaken fun _ _ moved => moved.keeps

variable {outside : Outside}

theorem letGo_keeps (name : String) {id : JobId}
    (ended : (table[id]?).any (!·.isTerminal) = false) (runtime : Runtime) :
    Keeps workerName ns concurrency takes jobs table runtime
      (Handler.letGo name id runtime) := by
  intro same kept
  refine ⟨?_, same, rfl⟩
  refine kept.modify name (release_fewer id) kept.named (fun empty => empty) fun state _ holds => ?_
  split
  · refine holds.release fun entry member named => ?_
    have live := (List.mem_filter.mp member).2
    rw [same, named, ended] at live
    cases live
  · exact holds

theorem checkWorkerJobComplete_keeps {id : JobId} (terminalStep : String)
    (ended : (table[id]?).any (!·.isTerminal) = false) :
    Program.Moves (Keeps workerName ns concurrency takes jobs table)
      (Handler.checkWorkerJobComplete outside id terminalStep) := by
  intro runtime
  rcases @Handler.checkWorkerJobComplete_quiet outside id terminalStep runtime with
    quiet | ⟨name, quiet⟩
  · exact quiet.keeps
  · exact closed_keeps.trans (letGo_keeps name ended runtime) quiet.keeps

theorem handleWorkerStopped_keeps :
    Program.Moves (Keeps workerName ns concurrency takes jobs table)
      (Handler.handleWorkerStopped outside workerName) := by
  have closed : Closed (Keeps workerName ns concurrency takes jobs table) := closed_keeps
  unfold Handler.handleWorkerStopped
  refine (quiet_keeps (Handler.workerState_quiet workerName)).bind closed fun state => ?_
  refine Program.Moves.bind closed (fun runtime same kept => ⟨?_, same, rfl⟩) fun _ => ?_
  · refine kept.modify workerName (fun _ _ inactive unmapped => ⟨inactive, unmapped⟩) kept.named id
      fun state _ holds => ?_
    rw [if_pos rfl]
    exact holds.stop
  · refine (quiet_keeps (Handler.cancelTimer_quiet outside _)).bind closed fun _ => ?_
    exact Program.moves_pure closed _

/-- The jobs that have ended are let go of. -/
theorem reconcileActiveJobs_keeps (runtime : Runtime) :
    Keeps workerName ns concurrency takes jobs runtime.world.state.jobs runtime
      (Handler.reconcileActiveJobs outside workerName runtime).2 := by
  have closed : Closed (Keeps workerName ns concurrency takes jobs runtime.world.state.jobs) :=
    closed_keeps
  let state := runtime.workerStates[workerName]?
  let active := outside.order.walk ((state.map (·.activeJobs.keys)).getD [])
  let terminal := active.filterMap fun id =>
    ((runtime.world.state.jobs[id]?).filter (·.isTerminal)).map fun job => (id, job.step)
  have ran : Handler.reconcileActiveJobs outside workerName runtime =
      Program.forEach (fun entry : JobId × String => do
        let _ ← @Program.attempt _ _ _ RuntimeError
          (Handler.checkWorkerJobComplete outside entry.1 entry.2)
        pure ()) terminal runtime := rfl
  rw [ran]
  refine Program.Moves.forEach closed (fun entry member => ?_) runtime
  obtain ⟨id, _, found⟩ := List.mem_filterMap.mp member
  obtain ⟨job, kept, rfl⟩ := Option.map_eq_some_iff.mp found
  obtain ⟨present, ended⟩ := Option.filter_eq_some_iff.mp kept
  have notLive : (runtime.world.state.jobs[id]?).any (!·.isTerminal) = false := by
    rw [present, Option.any_some, ended]
    rfl
  refine Program.Moves.bind closed (Program.Moves.attempt ?_) fun _ => Program.moves_pure closed _
  exact checkWorkerJobComplete_keeps job.step notLive

end Keeps

end OddJobs
