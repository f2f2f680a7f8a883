import Mathlib.Data.List.Basic

/-!
# Folding a log

A state built by folding a log, seen through a view of one entity, and what
happens when the same log is folded a second time over its own result.
-/

namespace OddJobs.Library

variable {S E A M : Type}

/-- A log that holds an event after which the earlier state is forgotten may be
folded again: the second fold forgets the first. -/
theorem foldl_twice_of_reset (step : S → E → S) {log : List E} {reset : E} (held : reset ∈ log)
    (forgets : ∀ left right, step left reset = step right reset) (state : S) :
    log.foldl step (log.foldl step state) = log.foldl step state := by
  obtain ⟨before, after, rfl⟩ := List.append_of_mem held
  rw [List.foldl_append, List.foldl_append, List.foldl_cons, List.foldl_cons]
  rw [forgets (before.foldl step _) (before.foldl step state)]

end OddJobs.Library
