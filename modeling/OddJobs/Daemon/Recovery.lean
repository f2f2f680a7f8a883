import OddJobs.Storage.Marks

/-!
# Recovery from a snapshot

Startup folds the log entries after the snapshot over it; the engine loop then
reads the same entries and applies each of them a second time.
-/

namespace OddJobs

namespace MaterializedState

variable (orders : Nat → WalkOrder) (clocks : Nat → Clock)

/-- `startup_inner` replays the entries after the snapshot over it. -/
def startupInner (snapshot : MaterializedState) (entries : List Event) : MaterializedState :=
  replay orders clocks snapshot 0 entries

/-- The engine loop reads the entries back and `process_event` applies each of
them to the recovered state; the events its handlers emit are left out. -/
def processEvents (recovered : MaterializedState) (entries : List Event) : MaterializedState :=
  replay orders clocks recovered entries.length entries

/-- Two states show the same jobs (step, status, step record names, visits) and
the same queue items (status, failure count). -/
def SameProgress (left right : MaterializedState) : Prop :=
  (∀ id, left.jobCursor id = right.jobCursor id) ∧
    ∀ key itemId, left.itemCursor key itemId = right.itemCursor key itemId

/-- Every job and every queue item of the snapshot may see its marks twice. -/
def Recoverable (snapshot : MaterializedState) (entries : List Event) : Prop :=
  (∀ id, JobCursor.Recoverable (snapshot.jobCursor id) (entries.filterMap (Event.jobMark id))) ∧
    ∀ key itemId, ItemCursor.Recoverable (snapshot.itemCursor key itemId)
      (entries.filterMap (Event.itemMark key itemId))

/-- Recovery shows what one fold of the log shows exactly when every job and
every queue item may see its marks twice. -/
theorem recovery_sameProgress_iff (snapshot : MaterializedState) (entries : List Event) :
    SameProgress
        (processEvents orders clocks (startupInner orders clocks snapshot entries) entries)
        (startupInner orders clocks snapshot entries) ↔
      Recoverable snapshot entries := by
  refine and_congr (forall_congr' fun id => ?_)
    (forall_congr' fun key => forall_congr' fun itemId => ?_)
  · rw [processEvents, startupInner, jobCursor_replay, jobCursor_replay]
    exact JobCursor.recoverable_iff _ _
  · rw [processEvents, startupInner, itemCursor_replay, itemCursor_replay]
    exact ItemCursor.recoverable_iff _ _

/-- Two advances of a job that the snapshot holds are recorded a second time. -/
theorem recovery_repeats_advances :
    ¬ ∀ (orders : Nat → WalkOrder) (clocks : Nat → Clock) (history entries : List Event),
      SameProgress
        (processEvents orders clocks
          (startupInner orders clocks (replay orders clocks {} 0 history) entries) entries)
        (startupInner orders clocks (replay orders clocks {} 0 history) entries) := by
  intro recovers
  have same := recovers (fun _ => .byKey) (fun _ => default)
    [.jobCreated "j" "build" "build" "hash" "/" ∅ "plan" 0 "" none]
    [.jobAdvanced "j" "code", .jobAdvanced "j" "test"]
  have names := congrArg (Option.map fun cursor => cursor.names) (same.1 "j")
  rw [processEvents, startupInner, jobCursor_replay, jobCursor_replay, jobCursor_replay] at names
  exact absurd names (by decide)

end MaterializedState

end OddJobs
