import Mathlib.Logic.Basic

/-!
# Runs of steps

A system takes steps where it can.  What is asked of every step of a run can be read off
the states before the steps when it can for a single step.
-/

namespace OddJobs.Library

variable {σ α : Type} (step : σ → α → Option σ)

/-- The state after some steps, if all of them can be taken. -/
def runSteps : σ → List α → Option σ
  | state, [] => some state
  | state, action :: rest => (step state action).bind fun next => runSteps next rest

def Along (holds : σ → α → Prop) : σ → List α → Prop
  | _, [] => True
  | state, action :: rest =>
      ∀ next, step state action = some next → holds state action ∧ Along holds next rest

/-- A step that is taken leads to a good state. -/
def Leads (good : σ → Prop) (state : σ) (action : α) : Prop :=
  ∀ next, step state action = some next → good next

variable {step} {good : σ → Prop} {meets : σ → α → Prop}

/-- When a step from a good state leads to a good state exactly where it meets a
condition, a run goes through good states exactly when all of its steps meet it. -/
theorem along_leads_iff (exact : ∀ {state action next}, good state →
    step state action = some next → (good next ↔ meets state action))
    {state : σ} (initial : good state) (actions : List α) :
    Along step (Leads step good) state actions ↔ Along step meets state actions := by
  induction actions generalizing state with
  | nil => exact Iff.rfl
  | cons action rest ih =>
      refine forall_congr' fun next => imp_congr_right fun stepped => ?_
      have now := exact initial stepped
      constructor
      · rintro ⟨leads, later⟩
        have after := leads next stepped
        exact ⟨now.mp after, (ih after).mp later⟩
      · rintro ⟨met, later⟩
        have after := now.mpr met
        refine ⟨?_, (ih after).mpr later⟩
        intro other also
        cases stepped.symm.trans also
        exact after

end OddJobs.Library
