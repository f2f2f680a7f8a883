import Mathlib.Logic.Basic

/-!
# Programs with state and errors

A program reads and changes a state and returns a value or an error.  The state
that an error leaves behind is kept.  An invariant that every part of a program
keeps is kept by the whole.
-/

namespace OddJobs.Library

/-- A program over states `σ` that returns an `α` or fails with an `ε`. -/
def Program (σ ε α : Type) := σ → Except ε α × σ

namespace Program

variable {σ ε α β : Type}

def pure (value : α) : Program σ ε α := fun state => (.ok value, state)

def bind (program : Program σ ε α) (next : α → Program σ ε β) : Program σ ε β := fun state =>
  match program state with
  | (.ok value, state) => next value state
  | (.error error, state) => (.error error, state)

instance : Monad (Program σ ε) where
  pure := pure
  bind := bind

def throw (error : ε) : Program σ ε α := fun state => (.error error, state)

def read (view : σ → α) : Program σ ε α := fun state => (.ok (view state), state)

def modify (update : σ → σ) : Program σ ε Unit := fun state => (.ok (), update state)

/-- Run a program and hand on how it ended; the error is caught. -/
def attempt {ε' : Type} (program : Program σ ε α) : Program σ ε' (Except ε α) := fun state =>
  match program state with
  | (result, state) => (.ok result, state)

def ofExcept : Except ε α → Program σ ε α
  | .ok value => pure value
  | .error error => throw error

def forEach (body : α → Program σ ε Unit) : List α → Program σ ε Unit
  | [] => pure ()
  | item :: rest => bind (body item) fun _ => forEach body rest

@[simp] theorem run_pure (value : α) (state : σ) :
    (Pure.pure value : Program σ ε α) state = (.ok value, state) := rfl

theorem run_bind (program : Program σ ε α) (next : α → Program σ ε β) (state : σ) :
    (program >>= next) state =
      match program state with
      | (.ok value, state) => next value state
      | (.error error, state) => (.error error, state) := rfl

@[simp] theorem pure_bind (value : α) (next : α → Program σ ε β) :
    Pure.pure value >>= next = next value := rfl

@[simp] theorem bind_pure (program : Program σ ε α) : program >>= Pure.pure = program := by
  funext state
  rw [run_bind]
  rcases program state with ⟨_ | _, _⟩
  · rfl
  · rfl

theorem bind_assoc {γ : Type} (program : Program σ ε α) (next : α → Program σ ε β)
    (last : β → Program σ ε γ) :
    program >>= next >>= last = program >>= fun value => next value >>= last := by
  funext state
  rw [run_bind, run_bind, run_bind]
  rcases program state with ⟨_ | _, _⟩ <;> rfl

/-- A program that returned a value did so in two parts that both did. -/
theorem bind_eq_ok {program : Program σ ε α} {next : α → Program σ ε β} {before after : σ}
    {value : β} : (program >>= next) before = (.ok value, after) ↔
      ∃ first middle, program before = (.ok first, middle) ∧ next first middle = (.ok value, after) := by
  rw [run_bind]
  generalize program before = ran
  obtain ⟨result, middle⟩ := ran
  cases result with
  | ok first =>
      constructor
      · exact fun later => ⟨first, middle, rfl, later⟩
      · rintro ⟨_, _, same, later⟩
        cases same
        exact later
  | error error =>
      constructor
      · exact fun stopped => nomatch stopped
      · rintro ⟨_, _, same, _⟩
        exact nomatch same

/-- A program that failed did so in its first part, or in what came after it. -/
theorem bind_eq_error {program : Program σ ε α} {next : α → Program σ ε β} {before after : σ}
    {error : ε} : (program >>= next) before = (.error error, after) ↔
      program before = (.error error, after) ∨
        ∃ first middle, program before = (.ok first, middle) ∧
          next first middle = (.error error, after) := by
  rw [run_bind]
  generalize program before = ran
  obtain ⟨result, middle⟩ := ran
  cases result with
  | ok first =>
      constructor
      · exact fun later => Or.inr ⟨first, middle, rfl, later⟩
      · rintro (stopped | ⟨_, _, same, later⟩)
        · cases stopped
        · cases same
          exact later
  | error failed =>
      constructor
      · intro stopped
        cases stopped
        exact Or.inl rfl
      · rintro (stopped | ⟨_, _, same, _⟩)
        · cases stopped
          rfl
        · cases same

/-- A program that returned a value goes on with it. -/
theorem bind_ok {program : Program σ ε α} {next : α → Program σ ε β} {before after : σ} {value : α}
    (ran : program before = (.ok value, after)) : (program >>= next) before = next value after := by
  rw [run_bind, ran]

/-- A program that failed stops there. -/
theorem bind_error {program : Program σ ε α} {next : α → Program σ ε β} {before after : σ}
    {error : ε} (ran : program before = (.error error, after)) :
    (program >>= next) before = (.error error, after) := by
  rw [run_bind, ran]

/-- What is made of the value changes nothing of where the program ends. -/
theorem bind_pure_state (program : Program σ ε α) (use : α → β) (before : σ) :
    ((program >>= fun value => Pure.pure (use value)) before).2 = (program before).2 := by
  rw [run_bind]
  cases program before with
  | mk result after => cases result <;> rfl

theorem ofExcept_eq_ok {result : Except ε α} {before after : σ} {value : α} :
    ofExcept result before = (.ok value, after) ↔ result = .ok value ∧ after = before := by
  cases result with
  | ok found =>
      constructor
      · rintro ⟨⟩
        exact ⟨rfl, rfl⟩
      · rintro ⟨⟨⟩, rfl⟩
        rfl
  | error error =>
      constructor
      · rintro ⟨⟩
      · rintro ⟨⟨⟩, -⟩

def outcome (program : Program σ ε α) (before : σ) : Except ε (α × σ) :=
  match program before with
  | (.ok value, after) => .ok (value, after)
  | (.error error, _) => .error error

@[simp] theorem outcome_pure (value : α) (before : σ) :
    (Pure.pure value : Program σ ε α).outcome before = .ok (value, before) := rfl

theorem outcome_bind (program : Program σ ε α) (next : α → Program σ ε β) (before : σ) :
    (program >>= next).outcome before =
      program.outcome before >>= fun ran => (next ran.1).outcome ran.2 := by
  unfold outcome
  rw [run_bind]
  rcases program before with ⟨_ | _, _⟩ <;> rfl

/-- Compute a value and a state; an error leaves the state as it was. -/
def keeping (compute : σ → Except ε (α × σ)) : Program σ ε α := fun before =>
  match compute before with
  | .ok (value, after) => (.ok value, after)
  | .error error => (.error error, before)

@[simp] theorem outcome_keeping (compute : σ → Except ε (α × σ)) (before : σ) :
    (keeping compute).outcome before = compute before := by
  unfold outcome keeping
  rcases compute before with _ | ⟨_, _⟩ <;> rfl

/-- The program returns a value, and where it ends satisfies the condition. -/
def Returns (program : Program σ ε α) (before : σ) (post : σ → Prop) : Prop :=
  ∃ value after, program before = (.ok value, after) ∧ post after

def Fails (program : Program σ ε α) (before : σ) : Prop :=
  ∃ error after, program before = (.error error, after)

theorem returns_bind {program : Program σ ε α} {next : α → Program σ ε β} {before after : σ}
    {value : α} {post : σ → Prop} (ran : program before = (.ok value, after)) :
    Returns (program >>= next) before post ↔ Returns (next value) after post := by
  rw [Returns, bind_ok ran]
  rfl

theorem fails_bind {program : Program σ ε α} {next : α → Program σ ε β} {before after : σ}
    {value : α} (ran : program before = (.ok value, after)) :
    Fails (program >>= next) before ↔ Fails (next value) after := by
  rw [Fails, bind_ok ran]
  rfl

/-- What fails first fails as a whole. -/
theorem Fails.first {program : Program σ ε α} {before : σ} (fails : Fails program before)
    (next : α → Program σ ε β) : Fails (program >>= next) before := by
  obtain ⟨error, after, ran⟩ := fails
  exact ⟨error, after, bind_error ran⟩

theorem Returns.not_fails {program : Program σ ε α} {before : σ} {post : σ → Prop}
    (returns : Returns program before post) : ¬Fails program before := by
  obtain ⟨value, after, ran, _⟩ := returns
  rintro ⟨error, stopped, failed⟩
  rw [ran] at failed
  cases failed

def ErrsOnly (allowed : ε → Prop) (program : Program σ ε α) : Prop :=
  ∀ before error after, program before = (.error error, after) → allowed error

theorem errsOnly_pure {allowed : ε → Prop} (value : α) :
    ErrsOnly allowed (Pure.pure value : Program σ ε α) := by
  intro before error after ran
  cases ran

theorem errsOnly_throw {allowed : ε → Prop} {error : ε} (allows : allowed error) :
    ErrsOnly allowed (throw error : Program σ ε α) := by
  intro before other after ran
  cases ran
  exact allows

theorem errsOnly_read {allowed : ε → Prop} (view : σ → α) :
    ErrsOnly allowed (read view : Program σ ε α) := by
  intro before error after ran
  cases ran

theorem ErrsOnly.bind {allowed : ε → Prop} {program : Program σ ε α} {next : α → Program σ ε β}
    (first : ErrsOnly allowed program) (second : ∀ value, ErrsOnly allowed (next value)) :
    ErrsOnly allowed (program >>= next) := by
  intro before error after ran
  rw [run_bind] at ran
  cases started : program before with
  | mk result middle =>
      rw [started] at ran
      cases result with
      | ok value => exact second value middle error after ran
      | error failed =>
          cases (Prod.mk.inj ran).1
          exact first before _ middle started

@[simp] theorem run_throw (error : ε) (state : σ) :
    (throw error : Program σ ε α) state = (.error error, state) := rfl

@[simp] theorem run_read (view : σ → α) (state : σ) :
    (read view : Program σ ε α) state = (.ok (view state), state) := rfl

@[simp] theorem run_modify (update : σ → σ) (state : σ) :
    (modify update : Program σ ε Unit) state = (.ok (), update state) := rfl

end Program

end OddJobs.Library
