import OddJobs.Library.Fold
import OddJobs.Core.Job

/-!
# The cursor of a job

What recovery has to rebuild of a job: its step and status, the names of its
step records and its visit counts.  A log acts on it through a few marks.  The
conditions below say exactly when the marks may be run a second time.
-/

namespace OddJobs

structure JobCursor where
  step : String
  status : StepStatus
  names : List String
  visits : HashMap Nat

/-- How an event moves the cursor of an existing job. -/
inductive JobMove where
  | advanced (step : String)
  /-- The status is set at any step. -/
  | status (status : StepStatus)
  /-- The status is set unless the step is terminal. -/
  | openStatus (status : StepStatus)
  deriving DecidableEq, Repr

inductive JobMark where
  | created (initialStep : String)
  | deleted
  | move (move : JobMove)
  deriving DecidableEq, Repr

namespace JobCursor

def advance (step : String) (cursor : JobCursor) : JobCursor :=
  if cursor.step = step ∧ cursor.status ≠ .failed then cursor
  else if isTerminalStep step then { cursor with step, status := enteredStatus step }
  else
    { step
      status := .pending
      names := cursor.names ++ [step]
      visits := cursor.visits.insert step ((cursor.visits[step]?).getD 0 + 1) }

def move (cursor : JobCursor) : JobMove → JobCursor
  | .advanced step => cursor.advance step
  | .status status => { cursor with status }
  | .openStatus status => if isTerminalStep cursor.step then cursor else { cursor with status }

/-- A mark's action on the cursor of a job, `none` when there is no such job. -/
def apply (cursor : Option JobCursor) : JobMark → Option JobCursor
  | .created initialStep =>
      some { step := initialStep, status := .pending, names := [initialStep], visits := ∅ }
  | .deleted => none
  | .move move => cursor.map (·.move move)

end JobCursor

namespace JobMove

def target? : JobMove → Option String
  | .advanced step => some step
  | _ => none

def status? : JobMove → Option StepStatus
  | .status next | .openStatus next => some next
  | .advanced _ => none

def forced? : JobMove → Option StepStatus
  | .status next => some next
  | _ => none

def targets (moves : List JobMove) : List String := moves.filterMap target?

def lastStatus (moves : List JobMove) : Option StepStatus := (moves.filterMap status?).getLast?

def lastForced (moves : List JobMove) : Option StepStatus := (moves.filterMap forced?).getLast?

/-- No advance comes while the status set last, the given one at first, is a
failure. -/
def NoFailingAdvance : StepStatus → List JobMove → Prop
  | _, [] => True
  | current, .advanced _ :: rest => current ≠ .failed ∧ NoFailingAdvance current rest
  | _, .status next :: rest | _, .openStatus next :: rest => NoFailingAdvance next rest

end JobMove

namespace JobMove

theorem targets_append (before after : List JobMove) :
    targets (before ++ after) = targets before ++ targets after :=
  List.filterMap_append

theorem targets_advanced (step : String) (rest : List JobMove) :
    targets (.advanced step :: rest) = step :: targets rest := rfl

theorem lastStatus_append (before after : List JobMove) :
    lastStatus (before ++ after) = (lastStatus after).or (lastStatus before) := by
  rw [lastStatus, List.filterMap_append, List.getLast?_append]
  rfl

theorem lastStatus_advanced (step : String) (rest : List JobMove) :
    lastStatus (.advanced step :: rest) = lastStatus rest := rfl

theorem lastForced_append (before after : List JobMove) :
    lastForced (before ++ after) = (lastForced after).or (lastForced before) := by
  rw [lastForced, List.filterMap_append, List.getLast?_append]
  rfl

theorem lastForced_advanced (step : String) (rest : List JobMove) :
    lastForced (.advanced step :: rest) = lastForced rest := rfl

/-- The first move that passes a test. -/
theorem exists_first (test : JobMove → Bool) {moves : List JobMove}
    (some_passes : ∃ next ∈ moves, test next = true) :
    ∃ before next after, moves = before ++ next :: after ∧ test next = true ∧
      ∀ earlier ∈ before, test earlier = false := by
  induction moves with
  | nil =>
      obtain ⟨next, member, _⟩ := some_passes
      cases member
  | cons head rest ih =>
      cases passes : test head with
      | true => exact ⟨[], head, rest, rfl, passes, fun _ member => nomatch member⟩
      | false =>
          obtain ⟨next, member, found⟩ := some_passes
          have later : next ∈ rest := by
            rcases List.mem_cons.mp member with rfl | later
            · exact absurd found (by rw [passes]; exact Bool.noConfusion)
            · exact later
          obtain ⟨before, found_next, after, split, holds, earlier⟩ := ih ⟨next, later, found⟩
          refine ⟨head :: before, found_next, after, by rw [split]; rfl, holds, ?_⟩
          intro other member
          rcases List.mem_cons.mp member with rfl | inside
          · exact passes
          · exact earlier other inside

theorem mem_targets {step : String} {moves : List JobMove} :
    step ∈ targets moves ↔ .advanced step ∈ moves := by
  rw [targets, List.mem_filterMap]
  constructor
  · rintro ⟨next, member, target⟩
    cases next with
    | advanced other =>
        cases target
        exact member
    | status _ => cases target
    | openStatus _ => cases target
  · intro member
    exact ⟨_, member, rfl⟩

/-- A log that advances splits at its first advance. -/
theorem exists_first_advance {moves : List JobMove} (advances : targets moves ≠ []) :
    ∃ before step after, moves = before ++ .advanced step :: after ∧ targets before = [] := by
  obtain ⟨step, member⟩ := List.exists_mem_of_ne_nil _ advances
  obtain ⟨before, next, after, position, passes, earlier⟩ :=
    exists_first (fun next => next.target?.isSome)
      ⟨.advanced step, mem_targets.mp member, rfl⟩
  cases next with
  | status _ => cases passes
  | openStatus _ => cases passes
  | advanced first =>
      refine ⟨before, first, after, position, ?_⟩
      refine List.eq_nil_iff_forall_not_mem.mpr fun other inside => ?_
      exact absurd (earlier _ (mem_targets.mp inside)) (by simp [target?])

/-- A log that advances splits at its last advance. -/
theorem exists_last_advance {moves : List JobMove} (advances : targets moves ≠ []) :
    ∃ before step after, moves = before ++ .advanced step :: after ∧ targets after = [] := by
  induction moves with
  | nil => exact absurd rfl advances
  | cons head rest ih =>
      by_cases later : targets rest = []
      · cases head with
        | advanced step => exact ⟨[], step, rest, rfl, later⟩
        | status next => exact absurd later advances
        | openStatus next => exact absurd later advances
      · obtain ⟨before, step, after, position, ends⟩ := ih later
        exact ⟨head :: before, step, after, by rw [position]; rfl, ends⟩

/-- What follows any advance follows the first one. -/
theorem suffix_of_first_advance {before after before' after' : List JobMove} {step step' : String}
    (split : before ++ .advanced step :: after = before' ++ .advanced step' :: after')
    (first : targets before = []) : ∃ between, after = between ++ after' ∨ after = after' := by
  rcases List.append_eq_append_iff.mp split with ⟨between, rfl, rest⟩ | ⟨between, earlier, rest⟩
  · cases between with
    | nil =>
        cases rest
        exact ⟨[], Or.inr rfl⟩
    | cons head tail =>
        cases rest
        exact ⟨tail ++ [.advanced step'], Or.inl (by simp)⟩
  · cases between with
    | nil =>
        cases rest
        exact ⟨[], Or.inr rfl⟩
    | cons head tail =>
        cases rest
        have held : step' ∈ targets before := mem_targets.mpr (by rw [earlier]; simp)
        rw [first] at held
        cases held

theorem NoFailingAdvance.mono {current other : StepStatus} {moves : List JobMove}
    (sound : NoFailingAdvance current moves) (succeeds : other ≠ .failed) :
    NoFailingAdvance other moves := by
  induction moves with
  | nil => trivial
  | cons next rest ih =>
      cases next with
      | advanced step => exact ⟨succeeds, ih sound.2⟩
      | status next => exact sound
      | openStatus next => exact sound

theorem getD_lastStatus_cons {next : StepStatus} (current : StepStatus) (head : JobMove)
    (rest : List JobMove) (sets : head.status? = some next) :
    (lastStatus (head :: rest)).getD current = (lastStatus rest).getD next := by
  rw [← List.singleton_append, lastStatus_append]
  have single : lastStatus [head] = some next := by simp [lastStatus, sets]
  rw [single]
  cases lastStatus rest <;> rfl

theorem noFailingAdvance_split {before after : List JobMove} {step : String}
    (none_before : targets before = []) (current : StepStatus) :
    NoFailingAdvance current (before ++ .advanced step :: after) ↔
      (lastStatus before).getD current ≠ .failed ∧
        NoFailingAdvance ((lastStatus before).getD current) after := by
  induction before generalizing current with
  | nil => exact Iff.rfl
  | cons next rest ih =>
      cases next with
      | advanced other => cases none_before
      | status next =>
          rw [getD_lastStatus_cons current (.status next) rest rfl]
          exact ih none_before next
      | openStatus next =>
          rw [getD_lastStatus_cons current (.openStatus next) rest rfl]
          exact ih none_before next

end JobMove

namespace JobCursor

open JobMove

/-- Every advance goes to one nonterminal step.  None of them comes while the
status last set, the log read in a circle, is a failure; and the first advance
leaves no trace that the rest of the log does not overwrite. -/
structure StaysOnStep (cursor : JobCursor) (moves : List JobMove) (step : String) : Prop where
  continues : isTerminalStep step = false
  single : ∀ target ∈ targets moves, target = step
  sound : NoFailingAdvance ((lastStatus moves).getD .pending) moves
  settled : cursor.step = step ∨ (lastStatus moves).getD .pending = .pending ∨
    ∃ before after, moves = before ++ .advanced step :: after ∧ lastStatus after ≠ none

/-- Every advance ends the job, and the status it leaves does not depend on
whether the job had ended before. -/
structure Ends (cursor : JobCursor) (moves : List JobMove) : Prop where
  ends : ∀ target ∈ targets moves, isTerminalStep target = true
  settled : (∃ first ∈ targets moves, ∃ second ∈ targets moves, first ≠ second) ∨
    (∃ before step after, moves = before ++ .advanced step :: after ∧ lastForced after ≠ none) ∨
    cursor.step ∈ targets moves ∨
    lastForced moves = none ∨ lastForced moves = some .failed ∨
    ∃ step ∈ targets moves, lastForced moves = some (enteredStatus step)

/-- When a log of moves may be run again. -/
def Rerunnable (cursor : JobCursor) (moves : List JobMove) : Prop :=
  targets moves = [] ∨ (∃ step, cursor.StaysOnStep moves step) ∨ cursor.Ends moves

/-! ## One advance -/

theorem advance_skip {cursor : JobCursor} {step : String} (here : cursor.step = step)
    (sound : cursor.status ≠ .failed) : cursor.advance step = cursor :=
  if_pos ⟨here, sound⟩

theorem advance_step (cursor : JobCursor) (step : String) : (cursor.advance step).step = step := by
  unfold advance
  split
  next skipped => exact skipped.1
  next => split <;> rfl

theorem advance_ends {cursor : JobCursor} {step : String} (ends : isTerminalStep step = true)
    (runs : ¬(cursor.step = step ∧ cursor.status ≠ .failed)) :
    cursor.advance step = { cursor with step, status := enteredStatus step } := by
  rw [advance, if_neg runs, if_pos ends]

theorem advance_continues {cursor : JobCursor} {step : String}
    (continues : isTerminalStep step = false)
    (runs : ¬(cursor.step = step ∧ cursor.status ≠ .failed)) :
    cursor.advance step =
      { step
        status := .pending
        names := cursor.names ++ [step]
        visits := cursor.visits.insert step ((cursor.visits[step]?).getD 0 + 1) } := by
  rw [advance, if_neg runs, continues]
  rfl

/-- Step records are never removed. -/
theorem names_le_move (cursor : JobCursor) (next : JobMove) :
    cursor.names.length ≤ (cursor.move next).names.length := by
  cases next with
  | advanced step =>
      change _ ≤ (cursor.advance step).names.length
      unfold advance
      split
      · exact Nat.le_refl _
      · split
        · exact Nat.le_refl _
        · simp
  | status status => exact Nat.le_refl _
  | openStatus status =>
      cases ended : isTerminalStep cursor.step <;> simp [move, ended]

theorem names_le_run (moves : List JobMove) (cursor : JobCursor) :
    cursor.names.length ≤ (moves.foldl move cursor).names.length := by
  induction moves generalizing cursor with
  | nil => exact Nat.le_refl _
  | cons next rest ih => exact Nat.le_trans (names_le_move cursor next) (ih _)

/-- A run that adds no step record finds the job on every nonterminal step it
advances to. -/
theorem quiet_run {moves : List JobMove} {cursor : JobCursor} {before after : List JobMove}
    {step : String} (quiet : (moves.foldl move cursor).names.length = cursor.names.length)
    (position : moves = before ++ .advanced step :: after)
    (continues : isTerminalStep step = false) :
    cursor.step = step ∧ ∀ target ∈ targets before, target = step := by
  subst position
  -- an advance to a nonterminal step is skipped, or it adds a record
  have skipped : ∀ (rest : List JobMove) (current : JobCursor),
      (rest.foldl move (current.move (.advanced step))).names.length = current.names.length →
      current.step = step ∧ current.status ≠ .failed := by
    intro rest current unchanged
    by_contra runs
    have grows := names_le_run rest (current.move (.advanced step))
    rw [unchanged] at grows
    change (current.advance step).names.length ≤ _ at grows
    rw [advance_continues continues runs, List.length_append] at grows
    exact absurd grows (by simp)
  induction before generalizing cursor with
  | nil => exact ⟨(skipped after cursor quiet).1, fun _ member => nomatch member⟩
  | cons next rest ih =>
      have lower := names_le_move cursor next
      have upper := names_le_run (rest ++ .advanced step :: after) (cursor.move next)
      rw [List.cons_append, List.foldl_cons] at quiet
      have same : (cursor.move next).names.length = cursor.names.length := by omega
      obtain ⟨here, earlier⟩ := ih (quiet.trans same.symm)
      cases next with
      | status status => exact ⟨here, earlier⟩
      | openStatus status =>
          refine ⟨?_, earlier⟩
          cases ended : isTerminalStep cursor.step <;> simpa [move, ended] using here
      | advanced target =>
          have arrived : target = step := (advance_step cursor target).symm.trans here
          subst arrived
          refine ⟨(skipped [] cursor same).1, ?_⟩
          intro other member
          rcases List.mem_cons.mp member with rfl | later
          · rfl
          · exact earlier other later

/-! ## Runs on one nonterminal step -/

theorem advance_succeeds {cursor : JobCursor} {step : String}
    (continues : isTerminalStep step = false) : (cursor.advance step).status ≠ .failed := by
  by_cases skipped : cursor.step = step ∧ cursor.status ≠ .failed
  · rw [advance_skip skipped.1 skipped.2]
    exact skipped.2
  · rw [advance_continues continues skipped]
    exact StepStatus.noConfusion

/-- Without an advance only the status changes. -/
theorem run_no_advance {moves : List JobMove} (advances : targets moves = [])
    (cursor : JobCursor) :
    moves.foldl move cursor =
      { cursor with
        status := (if isTerminalStep cursor.step then lastForced moves else lastStatus moves).getD
          cursor.status } := by
  induction moves using List.reverseRecOn with
  | nil => cases ended : isTerminalStep cursor.step <;> rfl
  | append_singleton rest next ih =>
      rw [targets_append, List.append_eq_nil_iff] at advances
      rw [List.foldl_append, ih advances.1, lastForced_append, lastStatus_append]
      cases next with
      | advanced step => cases advances.2
      | status next =>
          cases ended : isTerminalStep cursor.step <;>
            simp [move, lastForced, lastStatus, forced?, status?]
      | openStatus next =>
          cases ended : isTerminalStep cursor.step <;>
            simp [move, ended, lastForced, lastStatus, forced?, status?]

theorem run_ended {moves : List JobMove} {cursor : JobCursor} (advances : targets moves = [])
    (ended : isTerminalStep cursor.step = true) :
    moves.foldl move cursor =
      { cursor with status := (lastForced moves).getD cursor.status } := by
  rw [run_no_advance advances, ended]
  rfl

theorem run_open {moves : List JobMove} {cursor : JobCursor} (advances : targets moves = [])
    (continues : isTerminalStep cursor.step = false) :
    moves.foldl move cursor =
      { cursor with status := (lastStatus moves).getD cursor.status } := by
  rw [run_no_advance advances, continues]
  rfl

/-- Advances to the step where the job is do not move it. -/
theorem run_step {step : String} {moves : List JobMove} {cursor : JobCursor}
    (here : cursor.step = step) (single : ∀ target ∈ targets moves, target = step) :
    (moves.foldl move cursor).step = step := by
  induction moves generalizing cursor with
  | nil => exact here
  | cons next rest ih =>
      cases next with
      | advanced target =>
          have arrived : target = step := single target List.mem_cons_self
          subst arrived
          exact ih (advance_step cursor target) fun other member =>
            single other (List.mem_cons_of_mem _ member)
      | status next => exact @ih { cursor with status := next } here single
      | openStatus next =>
          refine ih ?_ single
          cases ended : isTerminalStep cursor.step <;> simpa [move, ended] using here

section OneStep

variable {step : String} (continues : isTerminalStep step = false)
include continues

/-- Where no advance comes after a failure, every advance is skipped. -/
theorem run_sound {moves : List JobMove} {cursor : JobCursor} (here : cursor.step = step)
    (single : ∀ target ∈ targets moves, target = step)
    (sound : NoFailingAdvance cursor.status moves) :
    moves.foldl move cursor =
      { cursor with status := (lastStatus moves).getD cursor.status } := by
  induction moves generalizing cursor with
  | nil => rfl
  | cons next rest ih =>
      cases next with
      | advanced target =>
          have arrived : target = step := single target List.mem_cons_self
          subst arrived
          change rest.foldl move (cursor.advance target) = _
          rw [advance_skip here sound.1]
          exact ih here (fun other member => single other (List.mem_cons_of_mem _ member)) sound.2
      | status next =>
          rw [getD_lastStatus_cons cursor.status (.status next) rest rfl]
          exact @ih { cursor with status := next } here single sound
      | openStatus next =>
          rw [getD_lastStatus_cons cursor.status (.openStatus next) rest rfl]
          have moved : cursor.move (.openStatus next) = { cursor with status := next } := by
            simp [move, here, continues]
          rw [List.foldl_cons, moved]
          exact @ih { cursor with status := next } here single sound

/-- A run that adds no step record meets no advance after a failure. -/
theorem sound_of_quiet {moves : List JobMove} {cursor : JobCursor} (here : cursor.step = step)
    (single : ∀ target ∈ targets moves, target = step)
    (quiet : (moves.foldl move cursor).names.length = cursor.names.length) :
    NoFailingAdvance cursor.status moves := by
  induction moves generalizing cursor with
  | nil => trivial
  | cons next rest ih =>
      cases next with
      | advanced target =>
          have arrived : target = step := single target List.mem_cons_self
          subst arrived
          have later := fun other member => single other (List.mem_cons_of_mem _ member)
          by_cases succeeds : cursor.status = .failed
          · have grows := names_le_run rest (cursor.advance target)
            have records : (cursor.advance target).names = cursor.names ++ [target] := by
              rw [advance_continues continues fun skipped => skipped.2 succeeds]
            change (rest.foldl move (cursor.advance target)).names.length = _ at quiet
            rw [quiet, records, List.length_append] at grows
            exact absurd grows (by simp)
          · refine ⟨succeeds, ?_⟩
            change (rest.foldl move (cursor.advance target)).names.length = _ at quiet
            rw [advance_skip here succeeds] at quiet
            exact ih here later quiet
      | status next => exact @ih { cursor with status := next } here single quiet
      | openStatus next =>
          have moved : cursor.move (.openStatus next) = { cursor with status := next } := by
            simp [move, here, continues]
          rw [List.foldl_cons, moved] at quiet
          exact @ih { cursor with status := next } here single quiet

/-- A run that starts on the step is at rest when no advance comes after a
failure and the last status is the one it started with. -/
theorem at_rest_iff {moves : List JobMove} {cursor : JobCursor} (here : cursor.step = step)
    (single : ∀ target ∈ targets moves, target = step) :
    moves.foldl move cursor = cursor ↔
      NoFailingAdvance cursor.status moves ∧
        (lastStatus moves).getD cursor.status = cursor.status := by
  constructor
  · intro rests
    have sound := sound_of_quiet continues here single (congrArg (·.names.length) rests)
    refine ⟨sound, ?_⟩
    rw [run_sound continues here single sound] at rests
    exact congrArg JobCursor.status rests
  · rintro ⟨sound, same⟩
    rw [run_sound continues here single sound, same]

/-- A log whose advances all go to one nonterminal step may be run again exactly
when it stays on that step. -/
theorem rerun_one_step_iff {moves : List JobMove} {cursor : JobCursor}
    (single : ∀ target ∈ targets moves, target = step) (advances : targets moves ≠ []) :
    moves.foldl move (moves.foldl move cursor) = moves.foldl move cursor ↔
      cursor.StaysOnStep moves step := by
  obtain ⟨before, first, after, position, none_before⟩ := exists_first_advance advances
  have arrived : first = step :=
    single first (by rw [position, targets_append]; simp [targets_advanced])
  subst arrived
  have single_after : ∀ target ∈ targets after, target = first := fun target member =>
    single target (by rw [position, targets_append, targets_advanced]; simp [member])
  -- the cursor after the first advance
  let entered := (before.foldl move cursor).advance first
  have entered_step : entered.step = first := advance_step _ first
  have entered_succeeds : entered.status ≠ .failed := advance_succeeds continues
  have run_eq : moves.foldl move cursor = after.foldl move entered := by
    rw [position, List.foldl_append, List.foldl_cons]
    rfl
  have status_eq : lastStatus moves = (lastStatus after).or (lastStatus before) := by
    rw [position, lastStatus_append, lastStatus_advanced]
  have split : ∀ current, NoFailingAdvance current moves ↔
      (lastStatus before).getD current ≠ .failed ∧
        NoFailingAdvance ((lastStatus before).getD current) after := by
    rw [position]
    exact noFailingAdvance_split none_before
  have there : (before.foldl move cursor).step = cursor.step :=
    run_step rfl (by rw [none_before]; exact fun _ member => nomatch member)
  -- from elsewhere the first advance runs
  have runs : cursor.step ≠ first → entered.status = .pending := by
    intro elsewhere
    have skips : ¬((before.foldl move cursor).step = first ∧
        (before.foldl move cursor).status ≠ .failed) :=
      fun skipped => elsewhere (there.symm.trans skipped.1)
    change ((before.foldl move cursor).advance first).status = .pending
    rw [advance_continues continues skips]
  -- a sound log leaves the last status set after the first advance
  have final : NoFailingAdvance ((lastStatus moves).getD .pending) moves →
      moves.foldl move cursor =
        { entered with status := (lastStatus after).getD entered.status } := by
    intro sound
    rw [run_eq]
    exact run_sound continues entered_step single_after
      (((split _).mp sound).2.mono entered_succeeds)
  have rest_step : (moves.foldl move cursor).step = first := by
    rw [run_eq]
    exact run_step entered_step single_after
  rw [at_rest_iff continues rest_step single]
  constructor
  · rintro ⟨sound, same⟩
    have sound' : NoFailingAdvance ((lastStatus moves).getD .pending) moves := by
      cases last : lastStatus moves with
      | none => exact sound.mono StepStatus.noConfusion
      | some status =>
          rw [last] at same
          rw [← same] at sound
          exact sound
    refine ⟨continues, single, sound', ?_⟩
    cases later : lastStatus after with
    | some status =>
        exact Or.inr (Or.inr ⟨before, after, position, by rw [later]; exact Option.some_ne_none status⟩)
    | none =>
        have kept : (moves.foldl move cursor).status = entered.status := by
          rw [final sound', later]
          rfl
        rw [kept] at same
        by_cases pending : (lastStatus moves).getD .pending = .pending
        · exact Or.inr (Or.inl pending)
        · -- the status set before the first advance has survived it
          refine Or.inl ?_
          by_contra elsewhere
          have left := runs elsewhere
          rw [left] at same
          exact pending same
  · rintro ⟨_, _, sound, settled⟩
    have run := final sound
    have same : (lastStatus moves).getD (moves.foldl move cursor).status =
        (moves.foldl move cursor).status := by
      rw [run]
      cases later : lastStatus after with
      | some status => rw [status_eq, later]; rfl
      | none =>
          rw [later, Option.none_or] at status_eq
          rw [status_eq]
          cases earlier : lastStatus before with
          | none => rfl
          | some status =>
              change status = entered.status
              rw [earlier] at status_eq
              by_cases here : cursor.step = first
              · have succeeds := ((split _).mp sound).1
                rw [earlier] at succeeds
                have prior : (before.foldl move cursor).status = status := by
                  rw [run_open none_before (by rw [here]; exact continues), earlier]
                  rfl
                have skipped : entered = before.foldl move cursor :=
                  advance_skip (there.trans here) (by rw [prior]; exact succeeds)
                rw [skipped, prior]
              · rw [runs here]
                rcases settled with same | pending | ⟨before', after', position', set⟩
                · exact absurd same here
                · rw [status_eq] at pending
                  exact pending
                · exfalso
                  obtain ⟨between, follows⟩ :=
                    suffix_of_first_advance (position.symm.trans position') none_before
                  rcases follows with rfl | rfl
                  · rw [lastStatus_append] at later
                    exact set (Option.or_eq_none_iff.mp later).1
                  · exact set later
    refine ⟨?_, same⟩
    cases last : lastStatus moves with
    | none =>
        rw [last] at sound
        refine sound.mono ?_
        rw [run]
        have unset : lastStatus after = none := by
          rw [status_eq] at last
          exact (Option.or_eq_none_iff.mp last).1
        rw [unset]
        exact entered_succeeds
    | some status =>
        rw [last] at same sound
        rw [← same]
        exact sound

end OneStep

/-! ## Runs that end the job -/

/-- Two cursors that differ in the status at most. -/
def SameRecord (left right : JobCursor) : Prop :=
  left.step = right.step ∧ left.names = right.names ∧ left.visits = right.visits

theorem SameRecord.eq {left right : JobCursor} (same : SameRecord left right)
    (status : left.status = right.status) : left = right := by
  obtain ⟨step, names, visits⟩ := same
  cases left
  cases right
  simp_all

theorem advance_terminal_record {step : String} (ends : isTerminalStep step = true)
    (cursor : JobCursor) :
    (cursor.advance step).names = cursor.names ∧ (cursor.advance step).visits = cursor.visits := by
  by_cases skipped : cursor.step = step ∧ cursor.status ≠ .failed
  · rw [advance_skip skipped.1 skipped.2]
    exact ⟨rfl, rfl⟩
  · rw [advance_ends ends skipped]
    exact ⟨rfl, rfl⟩

/-- Moves that end the job add no step record. -/
theorem run_terminal_record {moves : List JobMove}
    (ends : ∀ target ∈ targets moves, isTerminalStep target = true) (cursor : JobCursor) :
    (moves.foldl move cursor).names = cursor.names ∧
      (moves.foldl move cursor).visits = cursor.visits := by
  induction moves generalizing cursor with
  | nil => exact ⟨rfl, rfl⟩
  | cons next rest ih =>
      cases next with
      | advanced target =>
          have first := advance_terminal_record (ends target List.mem_cons_self) cursor
          have later := ih (fun other member => ends other (List.mem_cons_of_mem _ member))
            (cursor.advance target)
          exact ⟨later.1.trans first.1, later.2.trans first.2⟩
      | status next => exact ih ends { cursor with status := next }
      | openStatus next =>
          have later := ih ends (cursor.move (.openStatus next))
          cases ended : isTerminalStep cursor.step <;> simpa [move, ended] using later

theorem SameRecord.advance {left right : JobCursor} {step : String}
    (ends : isTerminalStep step = true) (same : SameRecord left right) :
    SameRecord (left.advance step) (right.advance step) := by
  have leftRecord := advance_terminal_record ends left
  have rightRecord := advance_terminal_record ends right
  refine ⟨(advance_step left step).trans (advance_step right step).symm, ?_, ?_⟩
  · rw [leftRecord.1, rightRecord.1, same.2.1]
  · rw [leftRecord.2, rightRecord.2, same.2.2]

theorem SameRecord.run {moves : List JobMove}
    (ends : ∀ target ∈ targets moves, isTerminalStep target = true) {left right : JobCursor}
    (same : SameRecord left right) : SameRecord (moves.foldl move left) (moves.foldl move right) := by
  induction moves generalizing left right with
  | nil => exact same
  | cons next rest ih =>
      cases next with
      | advanced target =>
          exact ih (fun other member => ends other (List.mem_cons_of_mem _ member))
            (same.advance (ends target List.mem_cons_self))
      | status next =>
          exact @ih ends { left with status := next } { right with status := next } same
      | openStatus next =>
          refine ih ends ?_
          change SameRecord
            (if isTerminalStep left.step then left else { left with status := next })
            (if isTerminalStep right.step then right else { right with status := next })
          rw [← same.1]
          split
          · exact same
          · exact ⟨rfl, same.2⟩

/-- A status set at any step, or a move to another step, makes the runs agree. -/
theorem SameRecord.run_eq {moves : List JobMove} {step : String}
    (ends : ∀ target ∈ targets moves, isTerminalStep target = true) {left right : JobCursor}
    (same : SameRecord left right) (here : left.step = step)
    (merges : lastForced moves ≠ none ∨ ∃ target ∈ targets moves, target ≠ step) :
    moves.foldl move left = moves.foldl move right := by
  induction moves generalizing left right with
  | nil =>
      rcases merges with forced | ⟨target, member, _⟩
      · exact absurd rfl forced
      · cases member
  | cons next rest ih =>
      cases next with
      | advanced target =>
          have later := fun other member => ends other (List.mem_cons_of_mem _ member)
          have ended := ends target List.mem_cons_self
          change rest.foldl move (left.advance target) = rest.foldl move (right.advance target)
          by_cases moved : target = step
          · subst moved
            refine ih later (same.advance ended) (advance_step left target) ?_
            rcases merges with forced | ⟨other, member, different⟩
            · exact Or.inl forced
            · rcases List.mem_cons.mp member with rfl | inside
              · exact absurd rfl different
              · exact Or.inr ⟨other, inside, different⟩
          · have leftRuns : ¬(left.step = target ∧ left.status ≠ .failed) :=
              fun skipped => moved (skipped.1.symm.trans here)
            have rightRuns : ¬(right.step = target ∧ right.status ≠ .failed) :=
              fun skipped => moved ((same.1.trans skipped.1).symm.trans here)
            have entered : left.advance target = right.advance target :=
              (same.advance ended).eq (by
                rw [advance_ends ended leftRuns, advance_ends ended rightRuns])
            rw [entered]
      | status next =>
          have joined : left.move (.status next) = right.move (.status next) :=
            SameRecord.eq same rfl
          rw [List.foldl_cons, List.foldl_cons, joined]
      | openStatus next =>
          have moved : SameRecord (left.move (.openStatus next)) (right.move (.openStatus next)) :=
            @SameRecord.run [.openStatus next] (fun _ member => nomatch member) _ _ same
          refine ih ends moved ?_ merges
          cases ended : isTerminalStep left.step <;> simpa [move, ended] using here

theorem advance_of_settled {cursor : JobCursor} {step : String}
    (ended : isTerminalStep step = true) (here : cursor.step = step)
    (settled : cursor.status ≠ .failed ∨ cursor.status = enteredStatus step) :
    cursor.advance step = cursor := by
  by_cases failed : cursor.status = .failed
  · rw [advance_ends ended fun skipped => skipped.2 failed]
    rcases settled with succeeds | same
    · exact absurd failed succeeds
    · rw [← same, ← here]
  · exact advance_skip here failed

/-- At a terminal step it has entered, a job stays as it is. -/
theorem run_settled {moves : List JobMove} {cursor : JobCursor} {step : String}
    (ended : isTerminalStep step = true) (here : cursor.step = step)
    (settled : cursor.status ≠ .failed ∨ cursor.status = enteredStatus step)
    (single : ∀ target ∈ targets moves, target = step) (unforced : lastForced moves = none) :
    moves.foldl move cursor = cursor := by
  induction moves with
  | nil => rfl
  | cons next rest ih =>
      cases next with
      | advanced target =>
          have arrived : target = step := single target List.mem_cons_self
          subst arrived
          change rest.foldl move (cursor.advance target) = cursor
          rw [advance_of_settled ended here settled]
          exact ih (fun other member => single other (List.mem_cons_of_mem _ member)) unforced
      | status next => cases List.getLast?_eq_none_iff.mp unforced
      | openStatus next =>
          have stays : cursor.move (.openStatus next) = cursor := by simp [move, here, ended]
          rw [List.foldl_cons, stays]
          exact ih single unforced

theorem advance_settled {cursor : JobCursor} {step : String} (ends : isTerminalStep step = true) :
    (cursor.advance step).status ≠ .failed ∨ (cursor.advance step).status = enteredStatus step := by
  by_cases skipped : cursor.step = step ∧ cursor.status ≠ .failed
  · rw [advance_skip skipped.1 skipped.2]
    exact Or.inl skipped.2
  · rw [advance_ends ends skipped]
    exact Or.inr rfl

/-- A log whose advances all end the job may be run again exactly when the status
it leaves does not depend on whether the job had ended before. -/
theorem rerun_ends_iff {moves : List JobMove} {cursor : JobCursor}
    (ends : ∀ target ∈ targets moves, isTerminalStep target = true)
    (advances : targets moves ≠ []) :
    moves.foldl move (moves.foldl move cursor) = moves.foldl move cursor ↔ cursor.Ends moves := by
  obtain ⟨before, first, after, position, none_before⟩ := exists_first_advance advances
  have targets_eq : targets moves = first :: targets after := by
    rw [position, targets_append, none_before, targets_advanced]
    rfl
  have ended : isTerminalStep first = true := ends first (by rw [targets_eq]; simp)
  have ends_after : ∀ target ∈ targets after, isTerminalStep target = true := fun target member =>
    ends target (by rw [targets_eq]; simp [member])
  have forced_eq : lastForced moves = (lastForced after).or (lastForced before) := by
    rw [position, lastForced_append, lastForced_advanced]
  -- the cursor after the first advance, in either run
  let entered := fun start : JobCursor => (before.foldl move start).advance first
  have run_eq : ∀ start, moves.foldl move start = after.foldl move (entered start) := by
    intro start
    rw [position, List.foldl_append, List.foldl_cons]
    rfl
  have entered_step : ∀ start, (entered start).step = first := fun start => advance_step _ first
  have record : ∀ start, (entered start).names = start.names ∧
      (entered start).visits = start.visits := by
    intro start
    have unmoved : (before.foldl move start).names = start.names ∧
        (before.foldl move start).visits = start.visits :=
      run_terminal_record (by rw [none_before]; exact fun _ member => nomatch member) start
    have unchanged := advance_terminal_record ended (before.foldl move start)
    exact ⟨unchanged.1.trans unmoved.1, unchanged.2.trans unmoved.2⟩
  let once := moves.foldl move cursor
  have once_record := run_terminal_record ends cursor
  have same : SameRecord (entered once) (entered cursor) :=
    ⟨(entered_step once).trans (entered_step cursor).symm,
      ((record once).1.trans once_record.1).trans (record cursor).1.symm,
      ((record once).2.trans once_record.2).trans (record cursor).2.symm⟩
  change moves.foldl move once = once ↔ _
  rw [run_eq once]
  change after.foldl move (entered once) = moves.foldl move cursor ↔ _
  rw [run_eq cursor]
  by_cases merges : lastForced after ≠ none ∨ ∃ target ∈ targets after, target ≠ first
  · refine iff_of_true (same.run_eq ends_after (entered_step once) merges) ⟨ends, ?_⟩
    rcases merges with forced | ⟨target, member, different⟩
    · exact Or.inr (Or.inl ⟨before, first, after, position, forced⟩)
    · exact Or.inl ⟨target, by rw [targets_eq]; exact List.mem_cons_of_mem _ member,
        first, by rw [targets_eq]; exact List.mem_cons_self, different⟩
  · obtain ⟨unforced, single⟩ := not_or.mp merges
    have unforced : lastForced after = none := not_not.mp unforced
    have single : ∀ target ∈ targets after, target = first := fun target member =>
      by_contra fun different => single ⟨target, member, different⟩
    have rests : ∀ start, after.foldl move (entered start) = entered start := fun start =>
      run_settled ended (entered_step start) (advance_settled ended) single unforced
    rw [rests once, rests cursor]
    have once_eq : once = entered cursor := (run_eq cursor).trans (rests cursor)
    have forced_before : lastForced moves = lastForced before := by rw [forced_eq, unforced]; rfl
    have all_first : ∀ target ∈ targets moves, target = first := by
      intro target member
      rw [targets_eq] at member
      rcases List.mem_cons.mp member with rfl | inside
      · rfl
      · exact single target inside
    have first_target : first ∈ targets moves := by rw [targets_eq]; exact List.mem_cons_self
    have arrives : entered once =
        ({ entered cursor with
          status := (lastForced before).getD (entered cursor).status } : JobCursor).advance first := by
      change (before.foldl move once).advance first = _
      rw [once_eq, run_ended none_before (by rw [entered_step]; exact ended)]
    -- from elsewhere the first advance runs
    have runs : cursor.step ≠ first → (entered cursor).status = enteredStatus first := by
      intro elsewhere
      have there : (before.foldl move cursor).step = cursor.step :=
        run_step rfl (by rw [none_before]; exact fun _ member => nomatch member)
      exact congrArg JobCursor.status
        (advance_ends ended fun skipped => elsewhere (there.symm.trans skipped.1))
    rw [arrives]
    cases last : lastForced before with
    | none =>
        refine iff_of_true
          (advance_of_settled ended (entered_step cursor) (advance_settled ended)) ⟨ends, ?_⟩
        exact Or.inr (Or.inr (Or.inr (Or.inl (forced_before.trans last))))
    | some status =>
        have forced := forced_before.trans last
        by_cases failed : status = .failed
        · subst failed
          refine iff_of_true ?_ ⟨ends, Or.inr (Or.inr (Or.inr (Or.inr (Or.inl forced))))⟩
          have left : (entered cursor).status = enteredStatus first := by
            by_cases here : cursor.step = first
            · have prior : (before.foldl move cursor).status = .failed := by
                rw [run_ended none_before (by rw [here]; exact ended), last]
                rfl
              exact congrArg JobCursor.status
                (advance_ends ended fun skipped => skipped.2 prior)
            · exact runs here
          rw [advance_ends ended fun skipped => skipped.2 rfl, ← left, ← entered_step cursor]
        · have skipped : ({ entered cursor with
              status := (some status).getD (entered cursor).status } : JobCursor).advance first =
                { entered cursor with status } :=
            advance_skip (entered_step cursor) failed
          rw [skipped]
          by_cases here : cursor.step = first
          · refine iff_of_true ?_ ⟨ends, Or.inr (Or.inr (Or.inl (here ▸ first_target)))⟩
            have prior : before.foldl move cursor = { cursor with status } := by
              rw [run_ended none_before (by rw [here]; exact ended), last]
              rfl
            have kept : entered cursor = { cursor with status } := by
              change (before.foldl move cursor).advance first = _
              rw [prior]
              exact advance_skip here failed
            rw [kept]
          · constructor
            · intro same
              have status_eq : status = (entered cursor).status := congrArg JobCursor.status same
              rw [runs here] at status_eq
              refine ⟨ends, Or.inr (Or.inr (Or.inr (Or.inr (Or.inr ⟨first, first_target, ?_⟩))))⟩
              rw [forced, status_eq]
            · rintro ⟨_, settled⟩
              have status_eq : status = enteredStatus first := by
                rcases settled with ⟨left, leftMember, right, rightMember, different⟩ |
                  ⟨before', step', after', position', set⟩ | there | unset | failing |
                  ⟨step, member, entering⟩
                · exact absurd ((all_first left leftMember).trans
                    (all_first right rightMember).symm) different
                · obtain ⟨between, follows⟩ :=
                    suffix_of_first_advance (position.symm.trans position') none_before
                  rcases follows with rfl | rfl
                  · rw [lastForced_append] at unforced
                    exact absurd (Option.or_eq_none_iff.mp unforced).1 set
                  · exact absurd unforced set
                · exact absurd (all_first _ there) here
                · rw [forced] at unset
                  cases unset
                · rw [forced] at failing
                  exact absurd (Option.some.inj failing) failed
                · rw [forced, all_first step member] at entering
                  exact Option.some.inj entering
              rw [status_eq, ← runs here]

/-! ## Any log -/

/-- A log of moves may be run again exactly when it never advances, stays on one
nonterminal step, or ends the job. -/
theorem rerun_iff (cursor : JobCursor) (moves : List JobMove) :
    moves.foldl move (moves.foldl move cursor) = moves.foldl move cursor ↔
      cursor.Rerunnable moves := by
  by_cases advances : targets moves = []
  · refine iff_of_true ?_ (Or.inl advances)
    rw [run_no_advance advances cursor, run_no_advance advances]
    cases ended : isTerminalStep cursor.step with
    | true => cases lastForced moves <;> simp
    | false => cases lastStatus moves <;> simp
  · by_cases ends : ∀ target ∈ targets moves, isTerminalStep target = true
    · rw [rerun_ends_iff ends advances]
      constructor
      · exact fun settled => Or.inr (Or.inr settled)
      · rintro (none_advance | ⟨step, stays⟩ | settled)
        · exact absurd none_advance advances
        · obtain ⟨target, member⟩ := List.exists_mem_of_ne_nil _ advances
          have ended := ends target member
          rw [stays.single target member, stays.continues] at ended
          cases ended
        · exact settled
    · obtain ⟨step, member, continues⟩ : ∃ step ∈ targets moves, isTerminalStep step = false := by
        by_contra all
        exact ends fun target member => by
          cases ended : isTerminalStep target with
          | true => rfl
          | false => exact absurd ⟨target, member, ended⟩ all
      constructor
      · intro again
        have quiet := congrArg (fun cursor : JobCursor => cursor.names.length) again
        -- the second run starts on the last target, which must be the nonterminal one
        obtain ⟨before, after, position⟩ :=
          List.append_of_mem (mem_targets.mp member)
        have start := (quiet_run quiet position continues).1
        obtain ⟨front, last, rest, ending, none_after⟩ := exists_last_advance advances
        have arrived : (moves.foldl move cursor).step = last := by
          rw [ending, List.foldl_append, List.foldl_cons]
          exact run_step (advance_step _ last)
            (by rw [none_after]; exact fun _ inside => nomatch inside)
        have same : last = step := arrived.symm.trans start
        subst same
        have single : ∀ target ∈ targets moves, target = last := by
          intro target inside
          rw [ending, targets_append, targets_advanced, none_after] at inside
          rcases List.mem_append.mp inside with earlier | only
          · exact (quiet_run quiet ending continues).2 target earlier
          · exact List.mem_singleton.mp only
        exact Or.inr (Or.inl ⟨last, (rerun_one_step_iff continues single advances).mp again⟩)
      · rintro (none_advance | ⟨single, stays⟩ | settled)
        · exact absurd none_advance advances
        · exact (rerun_one_step_iff stays.continues stays.single advances).mpr stays
        · have ended := settled.ends step member
          rw [continues] at ended
          cases ended

def moves (marks : List JobMark) : List JobMove :=
  marks.filterMap fun
    | .move next => some next
    | _ => none

/-- When a log of marks may be run again: it creates or deletes the job, or the
job, if there is one, may be moved again. -/
def Recoverable (cursor : Option JobCursor) (marks : List JobMark) : Prop :=
  (∃ initialStep, .created initialStep ∈ marks) ∨ .deleted ∈ marks ∨
    ∀ present, cursor = some present → present.Rerunnable (moves marks)

theorem marks_eq_moves {marks : List JobMark} (kept : ∀ initialStep, .created initialStep ∉ marks)
    (lives : .deleted ∉ marks) : marks = (moves marks).map .move := by
  induction marks with
  | nil => rfl
  | cons mark rest ih =>
      have restEq := ih (fun initialStep member => kept initialStep (List.mem_cons_of_mem _ member))
        (fun member => lives (List.mem_cons_of_mem _ member))
      cases mark with
      | created initialStep => exact absurd List.mem_cons_self (kept initialStep)
      | deleted => exact absurd List.mem_cons_self lives
      | move next => exact congrArg (JobMark.move next :: ·) restEq

theorem foldl_apply_moves (cursor : Option JobCursor) (moves : List JobMove) :
    (moves.map JobMark.move).foldl apply cursor = cursor.map fun present =>
      moves.foldl move present := by
  induction moves generalizing cursor with
  | nil => cases cursor <;> rfl
  | cons next rest ih =>
      rw [List.map_cons, List.foldl_cons, ih]
      cases cursor <;> rfl

theorem recoverable_iff (cursor : Option JobCursor) (marks : List JobMark) :
    marks.foldl apply (marks.foldl apply cursor) = marks.foldl apply cursor ↔
      Recoverable cursor marks := by
  by_cases created : ∃ initialStep, .created initialStep ∈ marks
  · obtain ⟨initialStep, member⟩ := created
    exact iff_of_true (Library.foldl_twice_of_reset apply member (fun _ _ => rfl) cursor)
      (Or.inl ⟨initialStep, member⟩)
  · by_cases deleted : .deleted ∈ marks
    · exact iff_of_true (Library.foldl_twice_of_reset apply deleted (fun _ _ => rfl) cursor)
        (Or.inr (Or.inl deleted))
    · have only_moves := marks_eq_moves (fun step member => created ⟨step, member⟩) deleted
      have fold : ∀ start, marks.foldl apply start = start.map fun present =>
          (moves marks).foldl move present := by
        intro start
        rw [only_moves, foldl_apply_moves, ← only_moves]
      rw [fold cursor, fold]
      cases cursor with
      | none =>
          refine iff_of_true rfl (Or.inr (Or.inr fun _ present => ?_))
          cases present
      | some present =>
          rw [Option.map_some, Option.map_some, Option.some.injEq, rerun_iff]
          constructor
          · intro again
            refine Or.inr (Or.inr fun other same => ?_)
            cases same
            exact again
          · rintro (made | removed | again)
            · exact absurd made created
            · exact absurd removed deleted
            · exact again present rfl

end JobCursor

end OddJobs
