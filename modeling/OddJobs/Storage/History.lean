import OddJobs.Storage.Frames

/-!
# Coherence of job histories

The step records of a job, its current step and its visit counters are three
views of one history.  Every event keeps them in agreement.
-/

namespace OddJobs

open Library

namespace Job

/-- The records, the step and the counters of a job tell the same history. -/
structure Coherent (job : Job) : Prop where
  begun : job.stepHistory ≠ []
  /-- All records but the last are finished. -/
  finished : ∀ record ∈ job.stepHistory.dropLast, record.finishedAtMs.isSome = true
  /-- The last record is about the step the job is at. -/
  current : job.isTerminal = false → (job.stepHistory.getLast?).map (·.name) = some job.step
  /-- The records after the first are the visits. -/
  visited : ∀ step, job.getStepVisits step =
    (job.stepHistory.tail.map (·.name)).count step

theorem dropLast_updateOpenRecord (update : StepRecord → StepRecord) (history : List StepRecord) :
    (updateOpenRecord update history).dropLast = history.dropLast := by
  induction history using List.reverseRecOn with
  | nil => rfl
  | append_singleton init record _ =>
      rw [updateOpenRecord_concat, List.dropLast_concat, List.dropLast_concat]

theorem lastName_updateOpenRecord {update : StepRecord → StepRecord} (history : List StepRecord)
    (keepsName : ∀ record, (update record).name = record.name) :
    ((updateOpenRecord update history).getLast?).map (·.name) =
      (history.getLast?).map (·.name) := by
  rw [← List.getLast?_map, ← List.getLast?_map, updateOpenRecord_names update history keepsName]

theorem tailNames_updateOpenRecord {update : StepRecord → StepRecord} (history : List StepRecord)
    (keepsName : ∀ record, (update record).name = record.name) :
    (updateOpenRecord update history).tail.map (·.name) = history.tail.map (·.name) := by
  rw [List.map_tail, List.map_tail, updateOpenRecord_names update history keepsName]

theorem updateOpenRecord_ne_nil (update : StepRecord → StepRecord) {history : List StepRecord}
    (begun : history ≠ []) : updateOpenRecord update history ≠ [] := by
  induction history using List.reverseRecOn with
  | nil => exact absurd rfl begun
  | append_singleton init record _ =>
      rw [updateOpenRecord_concat]
      exact List.concat_ne_nil _ _

theorem Coherent.keep {before after : Job} (coherent : before.Coherent)
    (same : SameHistory before after) : after.Coherent := by
  obtain ⟨update, keepsName, records⟩ := same.records
  constructor
  · rw [records]
    exact updateOpenRecord_ne_nil update coherent.begun
  · intro record member
    rw [records, dropLast_updateOpenRecord] at member
    exact coherent.finished record member
  · intro continues
    rw [isTerminal, same.step] at continues
    rw [records, lastName_updateOpenRecord _ keepsName, same.step]
    exact coherent.current continues
  · intro step
    rw [getStepVisits, same.visits, records, tailNames_updateOpenRecord _ keepsName]
    exact coherent.visited step

theorem newWithEpochMs_coherent (config : JobConfig) (epochMs instant : Nat) :
    (newWithEpochMs config epochMs instant).Coherent where
  begun := List.cons_ne_nil _ _
  finished := by
    intro record member
    cases member
  current := fun _ => rfl
  visited := by
    intro step
    simp [newWithEpochMs, getStepVisits]

/-- Every record is finished once the open one has been closed. -/
theorem finished_close {history : List StepRecord} (update : StepRecord → StepRecord)
    (finished : ∀ record ∈ history.dropLast, record.finishedAtMs.isSome = true)
    (closes : ∀ record, (update record).finishedAtMs.isSome = true) :
    ∀ record ∈ updateOpenRecord update history, record.finishedAtMs.isSome = true := by
  induction history using List.reverseRecOn with
  | nil =>
      intro record member
      cases member
  | append_singleton init last _ =>
      rw [List.dropLast_concat] at finished
      rw [updateOpenRecord_concat]
      intro record member
      rcases List.mem_append.mp member with early | final
      · exact finished record early
      · rw [List.mem_singleton.mp final]
        cases state : last.finishedAtMs with
        | none => exact closes last
        | some epochMs =>
            rw [Option.isNone_some, if_neg Bool.false_ne_true, state]
            rfl

theorem Coherent.advanced {job : Job} (coherent : job.Coherent) (epochMs : Nat) (step : String) :
    (job.applyAdvanced epochMs step).Coherent := by
  let close : StepRecord → StepRecord := fun record => { record with
    finishedAtMs := some epochMs
    outcome := job.advanceOutcome step }
  have closed := finished_close close coherent.finished fun _ => rfl
  have begun := updateOpenRecord_ne_nil close coherent.begun
  have names := @tailNames_updateOpenRecord close job.stepHistory fun _ => rfl
  rw [applyAdvanced_eq]
  cases ends : isTerminalStep step with
  | true =>
      constructor
      · simp only [↓reduceIte, List.append_nil]
        exact begun
      · simp only [↓reduceIte, List.append_nil]
        exact fun record member => closed record (List.dropLast_subset _ member)
      · intro continues
        exact absurd (continues.symm.trans ends) Bool.false_ne_true
      · intro other
        simp only [↓reduceIte, List.append_nil]
        exact (coherent.visited other).trans (congrArg (List.count other) names.symm)
  | false =>
      constructor
      · exact List.concat_ne_nil _ _
      · simp only [Bool.false_eq_true, ↓reduceIte, List.dropLast_concat]
        exact closed
      · intro _
        simp only [Bool.false_eq_true, ↓reduceIte, List.getLast?_concat, Option.map_some]
      · intro other
        simp only [Bool.false_eq_true, ↓reduceIte, getStepVisits, Table.lookup_insert]
        rw [List.tail_append_of_ne_nil begun, List.map_append, List.count_append, names,
          ← coherent.visited other]
        simp only [List.map_singleton, List.count_singleton]
        rcases Decidable.em (step = other) with rfl | differs
        · simp [getStepVisits]
        · simp [differs, getStepVisits]

end Job

namespace MaterializedState

def CoherentJobs (state : MaterializedState) : Prop :=
  Table.Every (fun _ job => job.Coherent) state.jobs

theorem coherentJobs_advanced {state : MaterializedState} (coherent : state.CoherentJobs)
    (clock : Clock) (id : JobId) (step : String) :
    (state.applyJobAdvanced clock id step).CoherentJobs := by
  have advanced : (state.updateJob id (Job.applyAdvanced clock.epochMs step)).CoherentJobs :=
    coherent.modify id fun _ held => held.advanced clock.epochMs step
  unfold applyJobAdvanced
  split
  · exact coherent
  · dsimp only
    split
    · exact advanced
    · exact advanced

/-- Every event keeps the jobs coherent. -/
theorem coherentJobs_applyEvent (order : WalkOrder) (clock : Clock) (state : MaterializedState)
    (event : Event) (coherent : state.CoherentJobs) :
    (state.applyEvent order clock event).CoherentJobs := by
  cases moves : event.movesJob with
  | false =>
      exact coherent.pointwise (applyEvent_sameHistory order clock state moves)
        fun _ _ _ same held => held.keep same
  | true =>
      cases event with
      | jobCreated id kind name runbookHash cwd vars initialStep createdAtEpochMs ns cronName =>
          exact coherent.insert (Job.newWithEpochMs_coherent _ createdAtEpochMs clock.instant)
      | jobAdvanced id step => exact coherentJobs_advanced coherent clock id step
      | jobDeleted id => exact coherent.erase id
      | _ => cases moves

/-- In every state that events lead to, the records of each job, its step and its
visit counters agree. -/
theorem replay_coherent (orders : Nat → WalkOrder) (clocks : Nat → Clock) (events : List Event) :
    let state := ({} : MaterializedState).replay orders clocks 0 events
    ∀ (id : JobId) (job : Job), state.jobs[id]? = some job →
      (∀ record ∈ job.stepHistory.dropLast, record.finishedAtMs.isSome = true) ∧
      (isTerminalStep job.step = false →
        (job.stepHistory.getLast?).map (·.name) = some job.step) ∧
      ∀ step, job.getStepVisits step = (job.stepHistory.tail.map (·.name)).count step := by
  intro state id job found
  have coherent : state.CoherentJobs :=
    replay_invariant coherentJobs_applyEvent orders clocks events 0 Table.every_empty
  have held := coherent id job found
  exact ⟨held.finished, held.current, held.visited⟩

/-- A job that went from its first step to another one. -/
theorem replay_coherent_advanced :
    let state := ({} : MaterializedState).replay (fun _ => .byKey) (fun _ => ⟨0, 0⟩) 0
      [.jobCreated "j" "build" "build" "hash" "/" ∅ "plan" 0 "" none, .jobAdvanced "j" "code"]
    ∃ job : Job, state.jobs["j"]? = some job ∧
      (isTerminalStep job.step = false →
        (job.stepHistory.getLast?).map (·.name) = some job.step) ∧
      job.getStepVisits "code" = (job.stepHistory.tail.map (·.name)).count "code" := by
  intro state
  have created : (state.jobs["j"]?).isSome = true := by decide +kernel
  obtain ⟨job, found⟩ := Option.isSome_iff_exists.mp created
  have coherent := replay_coherent (fun _ => .byKey) (fun _ => ⟨0, 0⟩)
    [.jobCreated "j" "build" "build" "hash" "/" ∅ "plan" 0 "" none, .jobAdvanced "j" "code"]
    "j" job found
  exact ⟨job, found, coherent.2.1, coherent.2.2 "code"⟩

end MaterializedState

end OddJobs
