import OddJobs.Library.Program

/-!
# Moves of programs

A program moves along a relation when it ends, with a value or an error, in a state
related to the one it started from.  Programs move along a closed relation when
their parts do.
-/

namespace OddJobs.Library

/-- Steps along the relation can be left out and put together. -/
structure Closed {σ : Type} (related : σ → σ → Prop) : Prop where
  refl : ∀ state, related state state
  trans : ∀ {first second third}, related first second → related second third →
    related first third

def Preserves {σ : Type} (holds : σ → Prop) (before after : σ) : Prop := holds before → holds after

theorem closed_preserves {σ : Type} (holds : σ → Prop) : Closed (Preserves holds) where
  refl := fun _ held => held
  trans := fun first second held => second (first held)

namespace Program

variable {σ ε α β : Type} {related : σ → σ → Prop}

/-- Wherever the program starts, it ends in a related state. -/
def Moves (related : σ → σ → Prop) (program : Program σ ε α) : Prop :=
  ∀ state, related state (program state).2

theorem Moves.weaken {other : σ → σ → Prop} {program : Program σ ε α}
    (moves : Moves related program) (within : ∀ before after, related before after →
      other before after) : Moves other program :=
  fun state => within _ _ (moves state)

/-- Where the program has ended is related to where it started. -/
theorem Moves.ended {program : Program σ ε α} (moves : Moves related program) {before after : σ}
    {result : Except ε α} (ran : program before = (result, after)) : related before after := by
  have moved := moves before
  rwa [ran] at moved

theorem Moves.attempt {ε' : Type} {program : Program σ ε α} (moves : Moves related program) :
    Moves related (program.attempt : Program σ ε' (Except ε α)) := by
  intro state
  have moved := moves state
  unfold Program.attempt
  cases ran : program state with
  | mk result after =>
      rw [ran] at moved
      exact moved

/-- A part that moves along one relation, and what comes after it along another one,
by which the first is absorbed. -/
theorem Moves.follow {later : σ → σ → Prop} {program : Program σ ε α} {next : α → Program σ ε β}
    (first : Moves related program)
    (stops : ∀ {before after}, related before after → later before after)
    (absorbs : ∀ {before between after}, related before between → later between after →
      later before after)
    (second : ∀ before value after, program before = (.ok value, after) →
      later after (next value after).2) : Moves later (program >>= next) := by
  intro state
  have moved := first state
  rw [run_bind]
  cases ran : program state with
  | mk result after =>
      rw [ran] at moved
      cases result with
      | ok value => exact absorbs moved (second state value after ran)
      | error error => exact stops moved

variable (closed : Closed related)

include closed

theorem moves_pure (value : α) : Moves related (Pure.pure value : Program σ ε α) :=
  fun state => closed.refl state

theorem moves_throw (error : ε) : Moves related (throw error : Program σ ε α) :=
  fun state => closed.refl state

theorem moves_read (view : σ → α) : Moves related (read view : Program σ ε α) :=
  fun state => closed.refl state

/-- The second part may rely on what the first returned, and where. -/
theorem Moves.bindOf {program : Program σ ε α} {next : α → Program σ ε β}
    (first : Moves related program)
    (second : ∀ before value after, program before = (.ok value, after) →
      related after (next value after).2) : Moves related (program >>= next) :=
  first.follow (fun moved => moved) closed.trans second

theorem Moves.bind {program : Program σ ε α} {next : α → Program σ ε β}
    (first : Moves related program) (second : ∀ value, Moves related (next value)) :
    Moves related (program >>= next) :=
  first.bindOf closed fun _ value after _ => second value after

/-- From where the first part ends, the whole moves as what comes after it. -/
theorem Moves.rest {next : α → Program σ ε β} (second : ∀ value, Moves related (next value))
    (program : Program σ ε α) (state : σ) :
    related (program state).2 ((program >>= next) state).2 := by
  rw [run_bind]
  cases program state with
  | mk result after =>
      cases result with
      | ok value => exact second value after
      | error error => exact closed.refl after

theorem Moves.forEach {body : α → Program σ ε Unit} {items : List α}
    (moves : ∀ item ∈ items, Moves related (body item)) : Moves related (forEach body items) := by
  induction items with
  | nil => exact moves_pure closed ()
  | cons item rest ih =>
      refine (moves item List.mem_cons_self).bind closed fun _ => ?_
      exact ih fun other member => moves other (List.mem_cons_of_mem item member)

end Program

end OddJobs.Library
