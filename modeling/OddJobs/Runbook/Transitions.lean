import Mathlib.Data.List.Nodup
import OddJobs.Library.Reach
import OddJobs.Library.Results
import OddJobs.Runbook.Imports

/-!
# Transitions of steps

The checks of a runbook file that look at the steps of a job: their names are different,
what the transitions refer to is there, and every step but the first one is referred to.
-/

namespace OddJobs

open Library Relation

inductive TransitionField where
  | onDone
  | onFail
  | onCancel
  deriving DecidableEq, Repr

namespace TransitionField

def all : List TransitionField := [onDone, onFail, onCancel]

def name : TransitionField → String
  | onDone => "on_done"
  | onFail => "on_fail"
  | onCancel => "on_cancel"

end TransitionField

def StepDef.transition (step : StepDef) : TransitionField → Option StepTransition
  | .onDone => step.onDone
  | .onFail => step.onFail
  | .onCancel => step.onCancel

def JobDef.transition (job : JobDef) : TransitionField → Option StepTransition
  | .onDone => job.onDone
  | .onFail => job.onFail
  | .onCancel => job.onCancel

/-! ## Checks -/

namespace JobDef

variable (jobName : String) (job : JobDef)

def stepLocation (step : StepDef) (index : Nat) : String :=
  "job." ++ jobName ++ ".step[" ++ toString index ++ "](" ++ step.name ++ ")"

def checkStepNames : List String → List (StepDef × Nat) → Except ParseError Unit
  | _, [] => .ok ()
  | seen, (step, index) :: later =>
      if step.name ∈ seen then
        .error (.invalidFormat (stepLocation jobName step index)
          ("duplicate step name '" ++ step.name ++ "'"))
      else checkStepNames (step.name :: seen) later

def stepNames : List String := job.steps.map (·.name)

def sortedNames (names : List String) : String :=
  ", ".intercalate (names.mergeSort fun left right => decide (left ≤ right))

def checkTransition (location : String) (transition : Option StepTransition) :
    Except ParseError Unit :=
  match transition with
  | none => .ok ()
  | some transition =>
      if transition.stepName ∈ job.stepNames then .ok ()
      else
        .error (.invalidFormat location
          ("references unknown step '" ++ transition.stepName ++ "'; available steps: " ++
            sortedNames job.stepNames))

def checkTransitions : Except ParseError Unit := do
  TransitionField.all.forM fun field =>
    job.checkTransition ("job." ++ jobName ++ "." ++ field.name) (job.transition field)
  job.steps.zipIdx.forM fun (step, index) => TransitionField.all.forM fun field =>
    job.checkTransition (stepLocation jobName step index ++ "." ++ field.name)
      (step.transition field)

def referenced : List String :=
  (TransitionField.all.filterMap job.transition ++
    job.steps.flatMap fun step => TransitionField.all.filterMap step.transition).map (·.stepName)

def checkReferenced : Except ParseError Unit :=
  if job.steps.length ≤ 1 then .ok ()
  else
    (job.steps.drop 1).forM fun step =>
      if step.name ∈ job.referenced then .ok ()
      else
        .error (.invalidFormat ("job." ++ jobName ++ ".step." ++ step.name)
          ("step '" ++ step.name ++
            "' is unreachable (not referenced by any on_done/on_fail/on_cancel)"))

end JobDef

def checkSteps (runbook : SourceRunbook) : Except ParseError Unit := do
  checkEach (fun name job => JobDef.checkStepNames name [] job.steps.zipIdx) runbook.jobs
  checkEach (fun name job => job.checkTransitions name) runbook.jobs
  checkEach (fun name job => job.checkReferenced name) runbook.jobs

/-- Validate cross-references, unless the file is still to be merged with others. -/
def checkRefs (validateRefs : Bool) (runbook : SourceRunbook) : Except ParseError Unit :=
  if validateRefs then validateCrossRefs runbook else .ok ()

def parseRunbookInner (front : Format → List Char → Except ParseError SourceRunbook)
    (content : List Char) (format : Format) (validateRefs : Bool) :
    Except ParseError SourceRunbook := do
  let runbook ← front format content
  checkSteps runbook
  checkRefs validateRefs runbook
  return runbook

/-! ## What the checks say -/

namespace JobDef

variable {jobName : String} {job : JobDef}

theorem checkStepNames_ok_iff (seen : List String) (steps : List (StepDef × Nat)) :
    checkStepNames jobName seen steps = .ok () ↔
      (steps.map (·.1.name)).Nodup ∧ ∀ entry ∈ steps, entry.1.name ∉ seen := by
  induction steps generalizing seen with
  | nil => simp [checkStepNames]
  | cons entry later ih =>
      obtain ⟨step, index⟩ := entry
      rw [checkStepNames]
      by_cases known : step.name ∈ seen
      · simp [known]
      · rw [if_neg known, ih, List.map_cons, List.nodup_cons, List.forall_mem_cons]
        constructor
        · rintro ⟨distinct, fresh⟩
          refine ⟨⟨?_, distinct⟩, known, fun entry member seen =>
            fresh entry member (List.mem_cons_of_mem _ seen)⟩
          intro again
          obtain ⟨entry, member, same⟩ := List.mem_map.mp again
          exact fresh entry member (by rw [same]; exact List.mem_cons_self)
        · rintro ⟨⟨apart, distinct⟩, -, fresh⟩
          refine ⟨distinct, fun entry member seen => ?_⟩
          rcases List.mem_cons.mp seen with same | before
          · exact apart (List.mem_map.mpr ⟨entry, member, same⟩)
          · exact fresh entry member before

theorem checkReferenced_ok_iff : job.checkReferenced jobName = .ok () ↔
    ∀ step ∈ job.steps.drop 1, step.name ∈ job.referenced := by
  unfold checkReferenced
  split
  · rename_i few
    have none : job.steps.drop 1 = [] := List.drop_eq_nil_iff.mpr few
    rw [none]
    exact iff_of_true rfl (List.forall_mem_nil _)
  · rw [forM_ok_iff]
    refine forall₂_congr fun step _ => ?_
    split
    · rename_i named
      exact iff_of_true rfl named
    · rename_i unnamed
      refine iff_of_false ?_ unnamed
      rintro ⟨⟩

/-- What holds of the steps of a job that is accepted. -/
structure Checked (job : JobDef) : Prop where
  distinct : job.stepNames.Nodup
  referenced : ∀ step ∈ job.steps.drop 1, step.name ∈ job.referenced

theorem Checked.getStep (checked : job.Checked) {step : StepDef} (member : step ∈ job.steps) :
    job.getStep step.name = some step := by
  have unique := List.inj_on_of_nodup_map checked.distinct
  have found : (job.getStep step.name).isSome :=
    List.find?_isSome.mpr ⟨step, member, beq_self_eq_true _⟩
  obtain ⟨other, same⟩ := Option.isSome_iff_exists.mp found
  rw [same, unique (JobDef.getStep_mem same) member (JobDef.getStep_name same)]

theorem mem_referenced {name : String} : name ∈ job.referenced ↔
    (∃ field transition, job.transition field = some transition ∧ transition.stepName = name) ∨
      ∃ step ∈ job.steps, ∃ field transition, step.transition field = some transition ∧
        transition.stepName = name := by
  have all : ∀ field, field ∈ TransitionField.all := by
    intro field
    cases field <;> decide
  simp only [referenced, List.mem_map, List.mem_append, List.mem_filterMap, List.mem_flatMap]
  constructor
  · rintro ⟨transition, ⟨field, -, own⟩ | ⟨step, member, field, -, own⟩, rfl⟩
    · exact .inl ⟨field, transition, own, rfl⟩
    · exact .inr ⟨step, member, field, transition, own, rfl⟩
  · rintro (⟨field, transition, own, rfl⟩ | ⟨step, member, field, transition, own, rfl⟩)
    · exact ⟨transition, .inl ⟨field, all field, own⟩, rfl⟩
    · exact ⟨transition, .inr ⟨step, member, field, all field, own⟩, rfl⟩

end JobDef

theorem checked_of_accepted {front : Format → List Char → Except ParseError SourceRunbook}
    {content : List Char} {format : Format} {validateRefs : Bool} {runbook : SourceRunbook}
    {name : String} {job : JobDef}
    (accepted : parseRunbookInner front content format validateRefs = .ok runbook)
    (listed : runbook.jobs[name]? = some job) : job.Checked := by
  unfold parseRunbookInner at accepted
  obtain ⟨found, -, later⟩ := bind_eq_ok.mp accepted
  obtain ⟨⟨⟩, checks, rest⟩ := bind_eq_ok.mp later
  obtain ⟨⟨⟩, -, returned⟩ := bind_eq_ok.mp rest
  cases returned
  obtain ⟨names, others⟩ := (check_then_ok_iff _ _).mp checks
  obtain ⟨-, references⟩ := (check_then_ok_iff _ _).mp others
  rw [checkEach_ok_iff] at names references
  have distinct := ((JobDef.checkStepNames_ok_iff _ _).mp (names name job listed)).1
  rw [show (fun entry : StepDef × Nat => entry.1.name) = StepDef.name ∘ Prod.fst from rfl,
    ← List.map_map, List.zipIdx_map_fst] at distinct
  exact ⟨distinct, JobDef.checkReferenced_ok_iff.mp (references name job listed)⟩

/-! ## Paths -/

namespace JobDef

variable {job : JobDef}

def nextOf (job : JobDef) (step : StepDef) (field : TransitionField) : Option StepTransition :=
  (step.transition field).orElse fun _ => job.transition field

def Follows (job : JobDef) (step next : StepDef) : Prop :=
  step ∈ job.steps ∧ ∃ field transition, job.nextOf step field = some transition ∧
    job.getStep transition.stepName = some next

def Reaches (job : JobDef) (target : StepDef) : Prop :=
  ∃ first, job.firstStep = some first ∧ ReflTransGen job.Follows first target

/-- A group of steps without the first one that is closed off: every transition that is
followed into it comes from one of its own steps. -/
structure ClosedOff (job : JobDef) (group : Set StepDef) : Prop where
  some : group.Nonempty
  among : ∀ step ∈ group, step ∈ job.steps ∧ job.firstStep ≠ Option.some step
  closed : ∀ step next, job.Follows step next → next ∈ group → step ∈ group

/-- Each step of the group is named by a transition of one of them, or by one of the job,
which hides that it is closed off. -/
def Hidden (job : JobDef) (group : Set StepDef) : Prop :=
  ∀ step ∈ group, (∃ field transition, job.transition field = some transition ∧
      transition.stepName = step.name) ∨
    ∃ other ∈ group, ∃ field transition, other.transition field = some transition ∧
      transition.stepName = step.name

theorem reaches_all_iff_open (job : JobDef) :
    (∀ step ∈ job.steps, job.Reaches step) ↔ ¬∃ group, job.ClosedOff group := by
  cases started : job.firstStep with
  | none =>
      have none : job.steps = [] := List.head?_eq_none_iff.mp started
      refine iff_of_true (by rw [none]; exact List.forall_mem_nil _) ?_
      rintro ⟨group, ⟨⟨step, member⟩, among, -⟩⟩
      have listed := (among step member).1
      rw [none] at listed
      cases listed
  | some first =>
      have reaches : ∀ step, job.Reaches step ↔ ReflTransGen job.Follows first step := by
        intro step
        constructor
        · rintro ⟨found, same, path⟩
          rw [started] at same
          cases same
          exact path
        · exact fun path => ⟨first, started, path⟩
      have cuts := @Library.reaches_all_iff _ job.Follows first {step | step ∈ job.steps}
        fun step _ follows => follows.1
      simp only [reaches]
      refine cuts.trans ?_
      constructor
      · rintro entered ⟨group, ⟨some, among, closed⟩⟩
        obtain ⟨step, outside, next, inside, follows⟩ :=
          entered group (fun step member => (among step member).1) some
            fun member => (among first member).2 started
        exact outside (closed step next follows inside)
      · intro open_ group among some without
        by_contra closed
        refine open_ ⟨group, ⟨some, fun step member => ⟨among member, ?_⟩, ?_⟩⟩
        · intro same
          rw [started] at same
          cases same
          exact without member
        · intro step next follows inside
          by_contra outside
          exact closed ⟨step, outside, next, inside, follows⟩

/-- A closed-off group of a job that is accepted is hidden. -/
theorem ClosedOff.hidden {job : JobDef} {group : Set StepDef} (checked : job.Checked)
    (closedOff : job.ClosedOff group) : job.Hidden group := by
  intro step member
  obtain ⟨listed, notFirst⟩ := closedOff.among step member
  have later : step ∈ job.steps.drop 1 := by
    unfold firstStep at notFirst
    cases steps : job.steps with
    | nil =>
        rw [steps] at listed
        cases listed
    | cons first rest =>
        rw [steps] at listed notFirst
        rcases List.mem_cons.mp listed with same | later
        · exact absurd (congrArg Option.some same.symm) notFirst
        · exact later
  rcases mem_referenced.mp (checked.referenced step later) with
    ofJob | ⟨other, present, field, transition, own, named⟩
  · exact .inl ofJob
  · refine .inr ⟨other, closedOff.closed other step ⟨present, field, transition, ?_, ?_⟩ member,
      field, transition, own, named⟩
    · unfold nextOf
      rw [own]
      rfl
    · rw [named, checked.getStep listed]

end JobDef

/-- The steps of a job that is accepted can all be reached exactly where no group of them is closed
off.  That such a group is hidden follows (`ClosedOff.hidden`): it is why the check passes. -/
theorem steps_reached_iff (front : Format → List Char → Except ParseError SourceRunbook)
    {content : List Char} {format : Format} {runbook : SourceRunbook} {name : String}
    {job : JobDef} (accepted : parseRunbookInner front content format true = .ok runbook)
    (listed : runbook.jobs[name]? = some job) :
    (∀ step ∈ job.steps, job.Reaches step) ↔
      ¬∃ group, job.ClosedOff group ∧ job.Hidden group := by
  rw [job.reaches_all_iff_open, not_iff_not]
  constructor
  · rintro ⟨group, closedOff⟩
    exact ⟨group, closedOff, closedOff.hidden (checked_of_accepted accepted listed)⟩
  · rintro ⟨group, closedOff, -⟩
    exact ⟨group, closedOff⟩

/-- A job whose first step goes on to the second one when it fails. -/
def mendingJob : JobDef where
  kind := "build"
  steps := [
    { name := "start", run := .shell "true", onFail := some ⟨"fix"⟩ },
    { name := "fix", run := .shell "true" }]

theorem mending_open : ¬∃ group, mendingJob.ClosedOff group ∧ mendingJob.Hidden group := by
  have accepted : parseRunbookInner
      (fun _ _ => .ok { jobs := (∅ : HashMap JobDef).insert "build" mendingJob }) [] .toml true =
        .ok { jobs := (∅ : HashMap JobDef).insert "build" mendingJob } := by
    rfl
  have listed : ((∅ : HashMap JobDef).insert "build" mendingJob)["build"]? = some mendingJob := by
    rfl
  refine (steps_reached_iff _ accepted listed).mp fun step member => ?_
  have steps : mendingJob.firstStep = some _ := rfl
  refine ⟨_, steps, ?_⟩
  rcases List.mem_cons.mp member with rfl | later
  · exact .refl
  · obtain rfl := List.mem_singleton.mp later
    refine .single ⟨List.mem_cons_self, .onFail, ⟨"fix"⟩, rfl, ?_⟩
    rfl

/-! ## Two steps that refer to one another -/

def circleJob : JobDef where
  kind := "build"
  steps := [
    { name := "start", run := .shell "true" },
    { name := "fix", run := .shell "true", onDone := some ⟨"retry"⟩ },
    { name := "retry", run := .shell "true", onDone := some ⟨"fix"⟩ }]

/-- Its other steps are accepted, and are closed off. -/
theorem circle_unreached :
    ¬∀ (front : Format → List Char → Except ParseError SourceRunbook) (content : List Char)
      (format : Format) (runbook : SourceRunbook) (name : String) (job : JobDef),
      parseRunbookInner front content format true = .ok runbook →
        runbook.jobs[name]? = some job → ∀ step ∈ job.steps, job.Reaches step := by
  intro reached
  have accepted : parseRunbookInner
      (fun _ _ => .ok { jobs := (∅ : HashMap JobDef).insert "build" circleJob }) [] .toml true =
        .ok { jobs := (∅ : HashMap JobDef).insert "build" circleJob } := by
    rfl
  have all := reached _ [] .toml _ "build" circleJob accepted rfl
  refine circleJob.reaches_all_iff_open.mp all
    ⟨{step | step ∈ circleJob.steps.drop 1}, ⟨⟨_, List.mem_cons_self⟩, ?_, ?_⟩⟩
  · intro step member
    refine ⟨List.mem_of_mem_drop member, fun first => ?_⟩
    cases first
    revert member
    decide
  · rintro step next ⟨present, field, transition, follows, found⟩ member
    rcases List.mem_cons.mp present with rfl | later
    · cases field <;> cases follows
    · exact later

end OddJobs
