import OddJobs.Storage.State
import OddJobs.Library.Fold

/-!
# The cursor of a queue item

What recovery has to rebuild of a queue item: its status and its failure count.
The conditions below say exactly when the marks a log leaves on an item may be
run a second time.
-/

namespace OddJobs

structure ItemCursor where
  status : QueueItemStatus
  failureCount : Nat
  deriving DecidableEq, Repr

/-- How an event moves the cursor of an existing item. -/
inductive ItemMove where
  | taken
  | completed
  | dead
  | failed
  | retried
  deriving DecidableEq, Repr

inductive ItemMark where
  | pushed
  | dropped
  | move (move : ItemMove)
  deriving DecidableEq, Repr

def ItemMove.outcome : ItemMove → QueueItemStatus
  | .taken => .active
  | .completed => .completed
  | .dead => .dead
  | .failed => .failed
  | .retried => .pending

namespace ItemCursor

def fresh : ItemCursor := { status := .pending, failureCount := 0 }

def move (cursor : ItemCursor) (next : ItemMove) : ItemCursor where
  status := next.outcome
  failureCount :=
    match next with
    | .failed => if cursor.status = .failed then cursor.failureCount else cursor.failureCount + 1
    | .retried => 0
    | _ => cursor.failureCount

/-- A mark's action on the cursor of an item, `none` when there is no such item. -/
def apply (cursor : Option ItemCursor) : ItemMark → Option ItemCursor
  | .pushed => some (cursor.getD fresh)
  | .dropped => none
  | .move next => cursor.map (·.move next)

def moves (marks : List ItemMark) : List ItemMove :=
  marks.filterMap fun
    | .move next => some next
    | _ => none

/-- Failures are never mixed with other outcomes. -/
def FailuresAlone (moves : List ItemMove) : Prop :=
  .failed ∉ moves ∨ ∀ next ∈ moves, next = .failed

def FailsAtEnd (moves : List ItemMove) : Prop :=
  ∃ before failures, moves = before ++ failures ∧ .failed ∉ before ∧ failures ≠ [] ∧
    ∀ next ∈ failures, next = .failed

/-- When the marks on a stored item may be run again: a retry resets the count,
or failures stand alone. -/
def Rerunnable (moves : List ItemMove) : Prop :=
  .retried ∈ moves ∨ FailuresAlone moves

/-- When the marks on an item that the log itself pushes may be run again.
Marks before the push had no effect the first time. -/
def PushRerunnable (before after : List ItemMove) : Prop :=
  .retried ∈ after ∨
  (.retried ∉ before ∧ (before = [] ∨ after ≠ []) ∧ FailuresAlone (before ++ after)) ∨
  ∃ early late, before = early ++ .retried :: late ∧ .retried ∉ late ∧
    (late = [] ∨ after ≠ [] ∧
      (.failed ∉ late ∨ after.head? = some .failed ∧ FailsAtEnd late))

/-- When a log of marks may be run again. -/
def Recoverable (cursor : Option ItemCursor) (marks : List ItemMark) : Prop :=
  .dropped ∈ marks ∨
  match cursor with
  | some _ => Rerunnable (moves marks)
  | none => .pushed ∈ marks →
      PushRerunnable (moves (marks.takeWhile (· ≠ .pushed))) (moves (marks.dropWhile (· ≠ .pushed)))

/-! ## Runs of moves -/

theorem run_status (moves : List ItemMove) (cursor : ItemCursor) :
    (moves.foldl move cursor).status = (moves.getLast?.map ItemMove.outcome).getD cursor.status := by
  cases moves using List.reverseRecOn with
  | nil => rfl
  | append_singleton rest next => simp [move]

theorem run_retried {moves : List ItemMove} (retried : .retried ∈ moves)
    (left right : ItemCursor) : moves.foldl move left = moves.foldl move right := by
  obtain ⟨before, after, rfl⟩ := List.append_of_mem retried
  rw [List.foldl_append, List.foldl_append, List.foldl_cons, List.foldl_cons]
  rfl

section NoRetry

variable {moves : List ItemMove} (kept : .retried ∉ moves)
include kept

/-- Without a retry the count never falls. -/
theorem failureCount_le_run (cursor : ItemCursor) :
    cursor.failureCount ≤ (moves.foldl move cursor).failureCount := by
  induction moves generalizing cursor with
  | nil => exact Nat.le_refl _
  | cons next rest ih =>
      have later := ih (fun member => kept (List.mem_cons_of_mem _ member)) (cursor.move next)
      refine Nat.le_trans ?_ later
      cases next with
      | retried => exact absurd List.mem_cons_self kept
      | failed =>
          simp only [move]
          split <;> omega
      | taken => exact Nat.le_refl _
      | completed => exact Nat.le_refl _
      | dead => exact Nat.le_refl _

/-- Two cursors of one status gain the same count. -/
theorem run_eq_iff_of_status {left right : ItemCursor} (same : left.status = right.status) :
    moves.foldl move left = moves.foldl move right ↔ left.failureCount = right.failureCount := by
  induction moves generalizing left right with
  | nil =>
      cases left
      cases right
      simp_all
  | cons next rest ih =>
      have moved : (left.move next).status = (right.move next).status := rfl
      refine (ih (fun member => kept (List.mem_cons_of_mem _ member)) moved).trans ?_
      cases next with
      | retried => exact absurd List.mem_cons_self kept
      | failed =>
          simp only [move, same]
          split <;> omega
      | taken => exact Iff.rfl
      | completed => exact Iff.rfl
      | dead => exact Iff.rfl

/-- Without failures the count stays. -/
theorem run_failureCount (succeeds : .failed ∉ moves) (cursor : ItemCursor) :
    (moves.foldl move cursor).failureCount = cursor.failureCount := by
  induction moves generalizing cursor with
  | nil => rfl
  | cons next rest ih =>
      have later := ih (fun member => kept (List.mem_cons_of_mem _ member))
        (fun member => succeeds (List.mem_cons_of_mem _ member)) (cursor.move next)
      refine later.trans ?_
      cases next with
      | retried => exact absurd List.mem_cons_self kept
      | failed => exact absurd List.mem_cons_self succeeds
      | taken => rfl
      | completed => rfl
      | dead => rfl

/-- The first failure of an item counts. -/
theorem failureCount_lt_run (fails : .failed ∈ moves) {cursor : ItemCursor}
    (succeeds : cursor.status ≠ .failed) :
    cursor.failureCount < (moves.foldl move cursor).failureCount := by
  induction moves generalizing cursor with
  | nil => cases fails
  | cons next rest ih =>
      have keptRest : .retried ∉ rest := fun member => kept (List.mem_cons_of_mem _ member)
      have later : next ≠ .failed → .failed ∈ rest := fun other =>
        (List.mem_cons.mp fails).resolve_left fun same => other same.symm
      cases next with
      | retried => exact absurd List.mem_cons_self kept
      | failed =>
          have lower := failureCount_le_run keptRest (cursor.move .failed)
          have counted : (cursor.move .failed).failureCount = cursor.failureCount + 1 := by
            simp [move, succeeds]
          rw [counted] at lower
          exact lower
      | taken => exact @ih keptRest (later ItemMove.noConfusion) (cursor.move .taken) nofun
      | completed => exact @ih keptRest (later ItemMove.noConfusion) (cursor.move .completed) nofun
      | dead => exact @ih keptRest (later ItemMove.noConfusion) (cursor.move .dead) nofun

omit kept in
/-- Failures of a failed item change nothing. -/
theorem run_failures (failures : ∀ next ∈ moves, next = .failed) {cursor : ItemCursor}
    (failed : cursor.status = .failed) : moves.foldl move cursor = cursor := by
  induction moves with
  | nil => rfl
  | cons next rest ih =>
      have first := failures next List.mem_cons_self
      subst first
      have stays : cursor.move .failed = cursor := by
        cases cursor
        simp_all [move, ItemMove.outcome]
      rw [List.foldl_cons, stays]
      exact ih fun other member => failures other (List.mem_cons_of_mem _ member)

/-- A run that leaves the cursor as it is meets no new failure. -/
theorem failuresAlone_of_rests {cursor : ItemCursor}
    (rests : moves.foldl move cursor = cursor) : FailuresAlone moves := by
  by_cases fails : .failed ∈ moves
  · refine Or.inr ?_
    -- a failure counts unless the item has failed already
    have counted : ∀ before after, moves = before ++ .failed :: after →
        (before.foldl move cursor).status = .failed := by
      intro before after position
      by_contra succeeds
      have keptBefore : .retried ∉ before := fun member => kept (by rw [position]; simp [member])
      have keptAfter : .retried ∉ after := fun member => kept (by rw [position]; simp [member])
      have lower := failureCount_le_run keptBefore cursor
      have upper := failureCount_le_run keptAfter ((before.foldl move cursor).move .failed)
      rw [position, List.foldl_append, List.foldl_cons] at rests
      rw [rests] at upper
      simp only [move, succeeds, ↓reduceIte] at upper
      omega
    -- so what comes before a failure is a failure
    have earlier : ∀ before after, moves = before ++ .failed :: after →
        ∀ next ∈ before, next = .failed := by
      intro before
      induction before using List.reverseRecOn with
      | nil => exact fun _ _ _ member => nomatch member
      | append_singleton front last ih =>
          intro after position next member
          have status := counted _ after position
          rw [run_status, List.getLast?_concat] at status
          have failing : last = .failed := by cases last <;> first | rfl | cases status
          subst failing
          rcases List.mem_append.mp member with inside | only
          · exact ih (.failed :: after) (by rw [position]; simp) next inside
          · exact List.mem_singleton.mp only
    obtain ⟨before, after, position⟩ := List.append_of_mem fails
    have starts : cursor.status = .failed := by
      cases before with
      | nil => exact counted [] after position
      | cons head rest =>
          have failing := earlier _ after position head List.mem_cons_self
          subst failing
          exact counted [] (rest ++ .failed :: after) position
    have last_fails : moves.getLast? = some .failed := by
      have final := run_status moves cursor
      rw [rests, starts] at final
      cases last : moves.getLast? with
      | none =>
          rw [List.getLast?_eq_none_iff.mp last] at fails
          cases fails
      | some next =>
          rw [last] at final
          cases next <;> first | rfl | cases final
    obtain ⟨front, split⟩ := List.getLast?_eq_some_iff.mp last_fails
    intro next member
    rw [split] at member
    rcases List.mem_append.mp member with inside | only
    · exact earlier front [] split next inside
    · exact List.mem_singleton.mp only
  · exact Or.inl fails

/-- A log of moves that ends as the cursor did may be run on it exactly when
failures stand alone. -/
theorem rests_iff {cursor : ItemCursor}
    (ending : (moves.getLast?.map ItemMove.outcome).getD cursor.status = cursor.status) :
    moves.foldl move cursor = cursor ↔ FailuresAlone moves := by
  constructor
  · exact failuresAlone_of_rests kept
  · rintro (succeeds | failures)
    · have count := run_failureCount kept succeeds cursor
      have status := (run_status moves cursor).trans ending
      cases result : moves.foldl move cursor
      rw [result] at count status
      cases cursor
      simp_all
    · cases moves with
      | nil => rfl
      | cons head rest =>
          refine run_failures failures ?_
          rw [← ending]
          obtain ⟨last, ends⟩ := List.getLast?_isSome.mpr (List.cons_ne_nil head rest) |>
            Option.isSome_iff_exists.mp
          have failing := failures last (List.mem_of_getLast? ends)
          rw [ends, failing]
          rfl

end NoRetry

/-- The moves on a stored item may be run again exactly when a retry resets the
count or failures stand alone. -/
theorem rerun_iff (cursor : ItemCursor) (moves : List ItemMove) :
    moves.foldl move (moves.foldl move cursor) = moves.foldl move cursor ↔ Rerunnable moves := by
  by_cases retried : .retried ∈ moves
  · exact iff_of_true (run_retried retried _ _) (Or.inl retried)
  · have ending : (moves.getLast?.map ItemMove.outcome).getD (moves.foldl move cursor).status =
        (moves.foldl move cursor).status := by
      rw [run_status]
      cases moves.getLast? <;> rfl
    rw [rests_iff retried ending]
    constructor
    · exact Or.inr
    · rintro (again | alone)
      · exact absurd again retried
      · exact alone

/-- One counted failure, the last thing that happened, is one row of failures at
the end. -/
theorem failsAtEnd_iff {moves : List ItemMove} (kept : .retried ∉ moves) :
    FailsAtEnd moves ↔ (moves.foldl move fresh).status = .failed ∧
      (moves.foldl move fresh).failureCount = 1 := by
  constructor
  · rintro ⟨before, failures, rfl, succeeds, some_failure, failing⟩
    have keptBefore : .retried ∉ before := fun member => kept (List.mem_append_left _ member)
    have count := run_failureCount keptBefore succeeds fresh
    have status : (before.foldl move fresh).status ≠ .failed := by
      rw [run_status]
      cases last : before.getLast? with
      | none => exact QueueItemStatus.noConfusion
      | some next =>
          cases next with
          | failed => exact absurd (List.mem_of_getLast? last) succeeds
          | taken => exact QueueItemStatus.noConfusion
          | completed => exact QueueItemStatus.noConfusion
          | dead => exact QueueItemStatus.noConfusion
          | retried => exact QueueItemStatus.noConfusion
    cases failures with
    | nil => exact absurd rfl some_failure
    | cons head rest =>
        have first := failing head List.mem_cons_self
        subst first
        rw [List.foldl_append, List.foldl_cons,
          run_failures (fun next member => failing next (List.mem_cons_of_mem _ member)) rfl]
        refine ⟨rfl, ?_⟩
        simp only [move, status, ↓reduceIte, count]
        rfl
  · induction moves using List.reverseRecOn with
    | nil => rintro ⟨failed, _⟩; cases failed
    | append_singleton rest next ih =>
        rintro ⟨failed, one⟩
        have keptRest : .retried ∉ rest := fun member => kept (List.mem_append_left _ member)
        rw [List.foldl_append] at failed one
        cases next with
        | taken => cases failed
        | completed => cases failed
        | dead => cases failed
        | retried => cases failed
        | failed =>
            by_cases already : (rest.foldl move fresh).status = .failed
            · have counted : (rest.foldl move fresh).failureCount = 1 := by
                simpa [move, already] using one
              obtain ⟨before, failures, split, succeeds, _, failing⟩ := ih keptRest ⟨already, counted⟩
              refine ⟨before, failures ++ [.failed], by rw [split]; simp, succeeds, by simp, ?_⟩
              intro other member
              rcases List.mem_append.mp member with inside | only
              · exact failing other inside
              · exact List.mem_singleton.mp only
            · have uncounted : (rest.foldl move fresh).failureCount = 0 := by
                simpa [move, already] using one
              refine ⟨rest, [.failed], rfl, ?_, List.cons_ne_nil _ _,
                fun _ member => List.mem_singleton.mp member⟩
              intro member
              have counts := @failureCount_lt_run _ keptRest member fresh nofun
              rw [uncounted] at counts
              exact absurd counts (Nat.not_lt_zero _)

/-- A log without a retry does the same to a fresh item and to one with a past,
when that past left no count that the log does not add itself. -/
theorem run_fresh_iff {late after : List ItemMove} (keptLate : .retried ∉ late)
    (keptAfter : .retried ∉ after) :
    after.foldl move (late.foldl move fresh) = after.foldl move fresh ↔
      late = [] ∨ after ≠ [] ∧
        (.failed ∉ late ∨ after.head? = some .failed ∧ FailsAtEnd late) := by
  have zero_iff : (late.foldl move fresh).failureCount = 0 ↔ .failed ∉ late := by
    constructor
    · intro zero fails
      have counts := @failureCount_lt_run _ keptLate fails fresh nofun
      omega
    · intro succeeds
      exact run_failureCount keptLate succeeds fresh
  cases after with
  | nil =>
      rw [List.foldl_nil, List.foldl_nil]
      constructor
      · intro same
        refine Or.inl ?_
        have status := run_status late fresh
        rw [same] at status
        cases last : late.getLast? with
        | none => exact List.getLast?_eq_none_iff.mp last
        | some next =>
            rw [last] at status
            cases next with
            | retried => exact absurd (List.mem_of_getLast? last) keptLate
            | taken => cases status
            | completed => cases status
            | dead => cases status
            | failed => cases status
      · rintro (rfl | ⟨nonempty, _⟩)
        · rfl
        · exact absurd rfl nonempty
  | cons next rest =>
      have keptRest : .retried ∉ rest := fun member => keptAfter (List.mem_cons_of_mem _ member)
      have moved : ((late.foldl move fresh).move next).status = (fresh.move next).status := rfl
      rw [List.foldl_cons, List.foldl_cons, run_eq_iff_of_status keptRest moved]
      by_cases failing : next = .failed
      · subst failing
        by_cases failed : (late.foldl move fresh).status = .failed
        · have counts : ((late.foldl move fresh).move .failed).failureCount =
              (late.foldl move fresh).failureCount := by simp [move, failed]
          have one : (fresh.move .failed).failureCount = 1 := rfl
          rw [counts, one]
          constructor
          · intro single
            exact Or.inr ⟨List.cons_ne_nil _ _,
              Or.inr ⟨rfl, (failsAtEnd_iff keptLate).mpr ⟨failed, single⟩⟩⟩
          · rintro (rfl | ⟨_, succeeds | ⟨_, atEnd⟩⟩)
            · cases failed
            · exfalso
              have last := run_status late fresh
              rw [failed] at last
              cases ending : late.getLast? with
              | none => rw [ending] at last; cases last
              | some final =>
                  rw [ending] at last
                  cases final <;> first
                    | exact succeeds (List.mem_of_getLast? ending)
                    | cases last
            · exact ((failsAtEnd_iff keptLate).mp atEnd).2
        · have counts : ((late.foldl move fresh).move .failed).failureCount =
              (late.foldl move fresh).failureCount + 1 := by simp [move, failed]
          have one : (fresh.move .failed).failureCount = 0 + 1 := rfl
          rw [counts, one, Nat.add_right_cancel_iff, zero_iff]
          constructor
          · exact fun succeeds => Or.inr ⟨List.cons_ne_nil _ _, Or.inl succeeds⟩
          · rintro (rfl | ⟨_, succeeds | ⟨_, atEnd⟩⟩)
            · exact fun member => nomatch member
            · exact succeeds
            · exact absurd ((failsAtEnd_iff keptLate).mp atEnd).1 failed
      · have counts : ∀ cursor : ItemCursor, (cursor.move next).failureCount = cursor.failureCount := by
          intro cursor
          cases next with
          | retried => exact absurd List.mem_cons_self keptAfter
          | failed => exact absurd rfl failing
          | taken => rfl
          | completed => rfl
          | dead => rfl
        have zero : fresh.failureCount = 0 := rfl
        rw [counts, counts, zero, zero_iff]
        constructor
        · exact fun succeeds => Or.inr ⟨List.cons_ne_nil _ _, Or.inl succeeds⟩
        · rintro (rfl | ⟨_, succeeds | ⟨head, _⟩⟩)
          · exact fun member => nomatch member
          · exact succeeds
          · exact absurd (Option.some.inj head) failing

/-- The moves on an item that the log itself pushes. -/
theorem push_rerun_iff (before after : List ItemMove) :
    (before ++ after).foldl move (after.foldl move fresh) = after.foldl move fresh ↔
      PushRerunnable before after := by
  by_cases retriedAfter : .retried ∈ after
  · refine iff_of_true ?_ (Or.inl retriedAfter)
    rw [List.foldl_append]
    exact run_retried retriedAfter _ _
  · by_cases retriedBefore : .retried ∈ before
    · -- the second run comes to the pushes with what followed the last retry
      have forgotten : ∀ early late, before = early ++ .retried :: late → .retried ∉ late →
          ((before ++ after).foldl move (after.foldl move fresh) = after.foldl move fresh ↔
            late = [] ∨ after ≠ [] ∧
              (.failed ∉ late ∨ after.head? = some .failed ∧ FailsAtEnd late)) := by
        intro early late split kept
        rw [← run_fresh_iff kept retriedAfter, split, List.append_assoc, List.foldl_append,
          List.cons_append, List.foldl_cons, List.foldl_append]
        rfl
      constructor
      · intro again
        obtain ⟨late, early, split, kept⟩ :=
          List.eq_append_cons_of_mem (List.mem_reverse.mpr retriedBefore)
        have split' : before = early.reverse ++ .retried :: late.reverse := by
          rw [← List.reverse_reverse before, split]
          simp
        have kept' : .retried ∉ late.reverse := fun member => kept (List.mem_reverse.mp member)
        exact Or.inr (Or.inr ⟨_, _, split', kept', (forgotten _ _ split' kept').mp again⟩)
      · rintro (again | ⟨none_before, _⟩ | ⟨early, late, split, kept, left⟩)
        · exact absurd again retriedAfter
        · exact absurd retriedBefore none_before
        · exact (forgotten early late split kept).mpr left
    · have kept : .retried ∉ before ++ after := fun member =>
        (List.mem_append.mp member).elim retriedBefore retriedAfter
      have only : PushRerunnable before after ↔
          (before = [] ∨ after ≠ []) ∧ FailuresAlone (before ++ after) := by
        constructor
        · rintro (again | ⟨_, alone⟩ | ⟨early, late, split, _⟩)
          · exact absurd again retriedAfter
          · exact alone
          · exact absurd (by rw [split]; simp) retriedBefore
        · exact fun alone => Or.inr (Or.inl ⟨retriedBefore, alone⟩)
      rw [only]
      by_cases empty : after = []
      · subst empty
        rw [List.append_nil, List.foldl_nil]
        have rests := run_fresh_iff retriedBefore retriedAfter
        rw [List.foldl_nil, List.foldl_nil] at rests
        rw [rests]
        constructor
        · rintro (rfl | ⟨nonempty, _⟩)
          · exact ⟨Or.inl rfl, Or.inl nofun⟩
          · exact absurd rfl nonempty
        · rintro ⟨rfl | nonempty, _⟩
          · exact Or.inl rfl
          · exact absurd rfl nonempty
      · have ending : ((before ++ after).getLast?.map ItemMove.outcome).getD
            (after.foldl move fresh).status = (after.foldl move fresh).status := by
          rw [run_status, List.getLast?_append]
          cases last : after.getLast? with
          | none => exact absurd (List.getLast?_eq_none_iff.mp last) empty
          | some next => rfl
        rw [rests_iff kept ending]
        exact ⟨fun alone => ⟨Or.inr empty, alone⟩, And.right⟩

/-! ## Any log -/

theorem foldl_apply_some {marks : List ItemMark} (kept : .dropped ∉ marks) (cursor : ItemCursor) :
    marks.foldl apply (some cursor) = some ((moves marks).foldl move cursor) := by
  induction marks generalizing cursor with
  | nil => rfl
  | cons mark rest ih =>
      have keptRest : .dropped ∉ rest := fun member => kept (List.mem_cons_of_mem _ member)
      cases mark with
      | dropped => exact absurd List.mem_cons_self kept
      | pushed => exact ih keptRest cursor
      | move next => exact ih keptRest (cursor.move next)

/-- Before the push there is nothing to move. -/
theorem foldl_apply_none {marks : List ItemMark} (kept : .dropped ∉ marks)
    (pushes : .pushed ∈ marks) :
    marks.foldl apply none =
      some ((moves (marks.dropWhile (· ≠ .pushed))).foldl move fresh) := by
  induction marks with
  | nil => cases pushes
  | cons mark rest ih =>
      have keptRest : .dropped ∉ rest := fun member => kept (List.mem_cons_of_mem _ member)
      cases mark with
      | dropped => exact absurd List.mem_cons_self kept
      | pushed => exact foldl_apply_some keptRest fresh
      | move next =>
          exact ih keptRest ((List.mem_cons.mp pushes).resolve_left ItemMark.noConfusion)

theorem foldl_apply_absent {marks : List ItemMark} (absent : .pushed ∉ marks) :
    marks.foldl apply none = none := by
  induction marks with
  | nil => rfl
  | cons mark rest ih =>
      have absentRest : .pushed ∉ rest := fun member => absent (List.mem_cons_of_mem _ member)
      cases mark with
      | pushed => exact absurd List.mem_cons_self absent
      | dropped => exact ih absentRest
      | move next => exact ih absentRest

theorem recoverable_iff (cursor : Option ItemCursor) (marks : List ItemMark) :
    marks.foldl apply (marks.foldl apply cursor) = marks.foldl apply cursor ↔
      Recoverable cursor marks := by
  by_cases dropped : .dropped ∈ marks
  · exact iff_of_true (Library.foldl_twice_of_reset apply dropped (fun _ _ => rfl) cursor)
      (Or.inl dropped)
  · have only : Recoverable cursor marks ↔ match cursor with
        | some _ => Rerunnable (moves marks)
        | none => .pushed ∈ marks → PushRerunnable (moves (marks.takeWhile (· ≠ .pushed)))
            (moves (marks.dropWhile (· ≠ .pushed))) :=
      or_iff_right dropped
    rw [only]
    cases cursor with
    | some present =>
        rw [foldl_apply_some dropped, foldl_apply_some dropped, Option.some.injEq, rerun_iff]
    | none =>
        by_cases pushes : .pushed ∈ marks
        · have split : moves marks = moves (marks.takeWhile (· ≠ .pushed)) ++
              moves (marks.dropWhile (· ≠ .pushed)) := by
            rw [moves, moves, moves, ← List.filterMap_append, List.takeWhile_append_dropWhile]
          rw [foldl_apply_none dropped pushes, foldl_apply_some dropped, Option.some.injEq, split,
            push_rerun_iff]
          exact ⟨fun again _ => again, fun again => again pushes⟩
        · rw [foldl_apply_absent pushes, foldl_apply_absent pushes]
          exact iff_of_true rfl fun member => absurd member pushes

end ItemCursor

end OddJobs
