import OddJobs.Storage.Marks
import Mathlib.Data.List.Nodup

/-!
# Items of a queue

What one event does to the items of one queue, each item with its id and its data.
-/

namespace OddJobs

open Library

namespace QueueItem

def isOpen (item : QueueItem) : Bool := item.status == .pending || item.status == .active

end QueueItem

def ItemMove.opens (next : ItemMove) : Bool := next.outcome == .pending || next.outcome == .active

def Distinct (items : List QueueItem) : Prop := (items.map (·.id)).Nodup

/-- With different ids, an update of the first item found is an update of each. -/
theorem updateItem_eq_map {items : List QueueItem} (distinct : Distinct items) (itemId : String)
    (update : QueueItem → QueueItem) :
    updateItem itemId update items =
      items.map fun item => if item.id = itemId then update item else item := by
  induction items with
  | nil => rfl
  | cons first rest ih =>
      obtain ⟨others, later⟩ := List.nodup_cons.mp distinct
      rw [updateItem, List.map_cons]
      by_cases found : first.id = itemId
      · rw [if_pos found, if_pos found]
        have untouched : ∀ item ∈ rest, (if item.id = itemId then update item else item) = item := by
          intro item member
          refine if_neg fun same => others ?_
          exact List.mem_map.mpr ⟨item, member, same.trans found.symm⟩
        rw [List.map_congr_left untouched, List.map_id']
      · rw [if_neg found, if_neg found, ih later]

/-- What one event does to the items of one queue. -/
inductive ItemsStep (key : String) (event : Event) (before after : List QueueItem) : Prop
  | same (same : after = before)
  | moved (itemId : String) (next : ItemMove) (update : QueueItem → QueueItem)
      (marked : event.itemMark? = some ((key, itemId), .move next))
      (keepsId : ∀ item, (update item).id = item.id)
      (keepsData : ∀ item, (update item).data = item.data)
      (status : ∀ item, (update item).status = next.outcome)
      (updated : after = updateItem itemId update before)
  | dropped (itemId : String) (marked : event.itemMark? = some ((key, itemId), .dropped))
      (filtered : after = before.filter (·.id ≠ itemId))
  | pushed (queueName : String) (item : QueueItem) (ns : String) (keyed : scopedName ns queueName = key)
      (pushes : event = .queuePushed queueName item.id item.data item.pushedAtEpochMs ns)
      (waits : item.status = .pending) (added : after = pushItem item before)

namespace ItemsStep

variable {key : String} {event : Event} {before after : List QueueItem}

/-- Unless items are pushed, each item was there before, with its id and its data, and it
was open before or is opened now. -/
theorem prior (distinct : Distinct before) (step : ItemsStep key event before after)
    (noPush : ∀ itemId, event.itemMark? ≠ some ((key, itemId), .pushed)) :
    Distinct after ∧ ∀ item ∈ after, ∃ old ∈ before, item.id = old.id ∧ item.data = old.data ∧
      (item.isOpen = true → old.isOpen = true ∨
        ∃ next, event.itemMark? = some ((key, old.id), .move next) ∧ next.opens = true) := by
  cases step with
  | same same =>
      subst same
      exact ⟨distinct, fun item member => ⟨item, member, rfl, rfl, .inl⟩⟩
  | moved itemId next update marked keepsId keepsData status updated =>
      rw [updateItem_eq_map distinct] at updated
      subst updated
      constructor
      · unfold Distinct
        rw [List.map_map]
        have ids : ((·.id) ∘ fun item : QueueItem =>
            if item.id = itemId then update item else item) = (·.id) := by
          funext item
          dsimp only [Function.comp_apply]
          split
          · exact keepsId item
          · rfl
        rw [ids]
        exact distinct
      · intro item member
        obtain ⟨old, present, rfl⟩ := List.mem_map.mp member
        refine ⟨old, present, ?_⟩
        split
        · rename_i same
          subst same
          refine ⟨keepsId old, keepsData old, fun isOpen => .inr ⟨next, marked, ?_⟩⟩
          unfold QueueItem.isOpen at isOpen
          rw [status] at isOpen
          exact isOpen
        · exact ⟨rfl, rfl, .inl⟩
  | dropped itemId marked filtered =>
      subst filtered
      constructor
      · exact (List.filter_sublist.map _).nodup distinct
      · intro item member
        exact ⟨item, (List.mem_filter.mp member).1, rfl, rfl, .inl⟩
  | pushed queueName item ns keyed pushes waits added =>
      subst pushes
      exact absurd (congrArg (fun key => some ((key, item.id), ItemMark.pushed)) keyed)
        (noPush item.id)

end ItemsStep

namespace MaterializedState

def itemsOf (state : MaterializedState) (key : String) : List QueueItem :=
  (state.queueItems[key]?).getD []

variable (order : WalkOrder) (clock : Clock) (key : String) (state : MaterializedState)

theorem itemsOf_updateItems (queueName ns : String) (update : List QueueItem → List QueueItem)
    (none : update [] = []) :
    (state.updateItems queueName ns update).itemsOf key =
      if scopedName ns queueName = key then update (state.itemsOf key) else state.itemsOf key := by
  unfold itemsOf updateItems
  dsimp only
  rw [Table.lookup_modify]
  split
  · cases state.queueItems[key]? with
    | none => exact none.symm
    | some items => rfl
  · rfl

/-- An item that is moved keeps its id and its data. -/
theorem itemsStep_moved {event : Event} {itemId queueName ns : String} (next : ItemMove)
    (update : QueueItem → QueueItem)
    (marked : event.itemMark? = some ((scopedName ns queueName, itemId), .move next))
    (keepsId : ∀ item, (update item).id = item.id)
    (keepsData : ∀ item, (update item).data = item.data)
    (status : ∀ item, (update item).status = next.outcome) :
    ItemsStep key event (state.itemsOf key)
      ((state.updateItems queueName ns (updateItem itemId update)).itemsOf key) := by
  rw [itemsOf_updateItems key state queueName ns _ rfl]
  split
  · rename_i here
    subst here
    exact .moved itemId next update marked keepsId keepsData status rfl
  · exact .same rfl

theorem itemsStep_applyEvent (event : Event) :
    ItemsStep key event (state.itemsOf key) ((state.applyEvent order clock event).itemsOf key) := by
  cases marked : event.itemMark? with
  | none =>
      have kept := queueItems_applyEvent order clock state event marked
      refine .same ?_
      unfold itemsOf
      rw [kept]
  | some _ =>
      cases event with
      | queuePushed queueName itemId data pushedAtEpochMs ns =>
          change ItemsStep key _ _ (((state.queueItems.insert (scopedName ns queueName)
            (pushItem _ (state.itemsOf _)))[key]?).getD [])
          rw [Table.lookup_insert]
          split
          · rename_i here
            subst here
            exact .pushed queueName _ ns rfl rfl rfl rfl
          · exact .same rfl
      | queueTaken queueName itemId workerName ns =>
          exact itemsStep_moved key state .taken (·.applyTaken workerName) rfl (fun _ => rfl)
            (fun _ => rfl) fun _ => rfl
      | queueCompleted queueName itemId ns =>
          exact itemsStep_moved key state .completed (·.applyCompleted) rfl (fun _ => rfl)
            (fun _ => rfl) fun _ => rfl
      | queueFailed queueName itemId error ns =>
          exact itemsStep_moved key state .failed (·.applyFailed) rfl (fun _ => rfl)
            (fun _ => rfl) fun _ => rfl
      | queueDropped queueName itemId ns =>
          change ItemsStep key _ _ ((state.updateItems queueName ns _).itemsOf key)
          rw [itemsOf_updateItems key state queueName ns _ rfl]
          split
          · rename_i here
            subst here
            exact .dropped itemId rfl rfl
          · exact .same rfl
      | queueItemRetry queueName itemId ns =>
          exact itemsStep_moved key state .retried (·.applyRetry) rfl (fun _ => rfl)
            (fun _ => rfl) fun _ => rfl
      | queueItemDead queueName itemId ns =>
          exact itemsStep_moved key state .dead (·.applyDead) rfl (fun _ => rfl)
            (fun _ => rfl) fun _ => rfl
      | _ => cases marked

end MaterializedState

end OddJobs
