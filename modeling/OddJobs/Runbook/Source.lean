import OddJobs.Engine.Runbook
import OddJobs.Library.Results

/-!
# Runbooks as they are written

A runbook file also has commands, imports and consts.  The names that its
entities use for one another are cross-checked once the file is complete.
-/

namespace OddJobs

namespace RunDirective

def jobName : RunDirective → Option String
  | job target => some target
  | _ => none

def agentName : RunDirective → Option String
  | agent target _ => some target
  | _ => none

end RunDirective

/-- A command definition.  Its arguments and their defaults go with it unread. -/
structure CommandDef where
  name : String
  description : Option String := none
  run : RunDirective
  deriving DecidableEq, Repr

structure ConstDef where
  default : Option String := none
  deriving DecidableEq, Repr

structure ImportConst where
  value : String
  deriving DecidableEq, Repr

structure ImportDef where
  importAlias : Option String := none
  consts : HashMap ImportConst := ∅

def ImportDef.constValues (importDef : ImportDef) : HashMap String :=
  importDef.consts.map fun _ const => const.value

/-- What went wrong with a runbook.  The errors of the file formats and of the
shell are texts. -/
inductive ParseError where
  | invalidFormat (location message : String)
  | unreadable (message : String)
  deriving DecidableEq, Repr

structure SourceRunbook where
  imports : HashMap ImportDef := ∅
  consts : HashMap ConstDef := ∅
  commands : HashMap CommandDef := ∅
  jobs : HashMap JobDef := ∅
  agents : HashMap AgentDef := ∅
  queues : HashMap QueueDef := ∅
  workers : HashMap WorkerDef := ∅
  crons : HashMap CronDef := ∅

namespace SourceRunbook

def clearMetadata (runbook : SourceRunbook) : SourceRunbook :=
  { runbook with
    imports := ∅
    consts := ∅ }

end SourceRunbook

/-! ## Cross-references -/

section CrossRefs

variable {V : Type}

def sortedKeys (table : HashMap V) : String := ", ".intercalate table.keys

/-- A name has to be one of the keys of a table.  The kind is how the message
calls the entities of the table. -/
def checkRef (location kind name : String) (table : HashMap V) : Except ParseError Unit :=
  if table.contains name then .ok ()
  else
    .error (.invalidFormat location
      ("references unknown " ++ kind ++ " '" ++ name ++ "'; available " ++ kind ++ "s: " ++
        sortedKeys table))

def checkRefIfAny (location kind : String) (name : Option String) (table : HashMap V) :
    Except ParseError Unit :=
  match name with
  | some name => checkRef location kind name table
  | none => .ok ()

def checkWorker (runbook : SourceRunbook) (name : String) (worker : WorkerDef) :
    Except ParseError Unit := do
  checkRef ("worker." ++ name ++ ".source.queue") "queue" worker.queue runbook.queues
  checkRef ("worker." ++ name ++ ".handler.job") "job" worker.job runbook.jobs

def checkCron (runbook : SourceRunbook) (name : String) (cron : CronDef) : Except ParseError Unit :=
  match cron.run with
  | .job job => checkRef ("cron." ++ name ++ ".run") "job" job runbook.jobs
  | .agent agent _ => checkRef ("cron." ++ name ++ ".run") "agent" agent runbook.agents
  | .shell _ =>
      .error (.invalidFormat ("cron." ++ name ++ ".run") "cron run must reference a job or agent")

def checkDirective (runbook : SourceRunbook) (location : String) (run : RunDirective) :
    Except ParseError Unit := do
  checkRefIfAny location "agent" run.agentName runbook.agents
  checkRefIfAny location "job" run.jobName runbook.jobs

def checkStep (runbook : SourceRunbook) (jobName : String) (step : StepDef × Nat) :
    Except ParseError Unit :=
  checkDirective runbook
    ("job." ++ jobName ++ ".step[" ++ toString step.2 ++ "](" ++ step.1.name ++ ").run") step.1.run

def checkJob (runbook : SourceRunbook) (name : String) (job : JobDef) : Except ParseError Unit :=
  job.steps.zipIdx.forM (checkStep runbook name)

def checkCommand (runbook : SourceRunbook) (name : String) (command : CommandDef) :
    Except ParseError Unit :=
  checkDirective runbook ("command." ++ name ++ ".run") command.run

def checkEach (check : String → V → Except ParseError Unit) (table : HashMap V) :
    Except ParseError Unit :=
  table.toList.forM fun entry => check entry.1 entry.2

end CrossRefs

def validateCrossRefs (runbook : SourceRunbook) : Except ParseError Unit := do
  checkEach (checkWorker runbook) runbook.workers
  checkEach (checkCron runbook) runbook.crons
  checkEach (checkJob runbook) runbook.jobs
  checkEach (checkCommand runbook) runbook.commands

/-! ## What the cross-references say -/

/-- The names of each kind that may be referred to. -/
structure Names where
  queues : String → Prop
  jobs : String → Prop
  agents : String → Prop

def SourceRunbook.names (runbook : SourceRunbook) : Names where
  queues name := (runbook.queues[name]?).isSome
  jobs name := (runbook.jobs[name]?).isSome
  agents name := (runbook.agents[name]?).isSome

namespace Names

variable (names : Names)

def Directs : RunDirective → Prop
  | .shell _ => True
  | .job job => names.jobs job
  | .agent agent _ => names.agents agent

def Schedules (cron : CronDef) : Prop := names.Directs cron.run ∧ ∀ line, cron.run ≠ .shell line

/-- The entities of a runbook refer to these names only. -/
structure Resolves (runbook : SourceRunbook) : Prop where
  workers : ∀ (name : String) (worker : WorkerDef), runbook.workers[name]? = some worker →
    names.queues worker.queue ∧ names.jobs worker.job
  crons : ∀ (name : String) (cron : CronDef), runbook.crons[name]? = some cron →
    names.Schedules cron
  jobs : ∀ (name : String) (job : JobDef), runbook.jobs[name]? = some job →
    ∀ step ∈ job.steps, names.Directs step.run
  commands : ∀ (name : String) (command : CommandDef), runbook.commands[name]? = some command →
    names.Directs command.run

end Names

section Specs

variable {V : Type}

theorem checkRef_ok_iff (location kind name : String) (table : HashMap V) :
    checkRef location kind name table = .ok () ↔ (table[name]?).isSome := by
  rw [checkRef, Library.Table.contains_eq_isSome]
  by_cases present : (table[name]?).isSome
  · simp [present]
  · simp [present]

theorem check_then_ok_iff (first : Except ParseError Unit) (next : Unit → Except ParseError Unit) :
    first >>= next = .ok () ↔ first = .ok () ∧ next () = .ok () := by
  rw [Library.bind_eq_ok]
  exact ⟨fun ⟨_, passed, rest⟩ => ⟨passed, rest⟩, fun ⟨passed, rest⟩ => ⟨(), passed, rest⟩⟩

theorem forM_ok_iff {A : Type} (check : A → Except ParseError Unit) (entries : List A) :
    entries.forM check = .ok () ↔ ∀ entry ∈ entries, check entry = .ok () := by
  induction entries with
  | nil => exact ⟨fun _ entry member => absurd member List.not_mem_nil, fun _ => rfl⟩
  | cons entry rest ih =>
      change check entry >>= (fun _ => rest.forM check) = .ok () ↔ _
      rw [check_then_ok_iff, ih, List.forall_mem_cons]

theorem checkEach_ok_iff (check : String → V → Except ParseError Unit) (table : HashMap V) :
    checkEach check table = .ok () ↔
      ∀ name value, table[name]? = some value → check name value = .ok () := by
  rw [checkEach, forM_ok_iff]
  constructor
  · intro passed name value present
    exact passed (name, value) (Std.ExtTreeMap.mem_toList_iff_getElem?_eq_some.mpr present)
  · intro passed entry member
    exact passed entry.1 entry.2 (Std.ExtTreeMap.mem_toList_iff_getElem?_eq_some.mp member)

variable (runbook : SourceRunbook)

theorem checkDirective_ok_iff (location : String) (run : RunDirective) :
    checkDirective runbook location run = .ok () ↔ runbook.names.Directs run := by
  rw [checkDirective, check_then_ok_iff]
  cases run with
  | shell line => exact ⟨fun _ => trivial, fun _ => ⟨rfl, rfl⟩⟩
  | job job =>
      change _ ∧ checkRef location "job" job runbook.jobs = .ok () ↔ _
      rw [checkRef_ok_iff]
      exact ⟨fun passed => passed.2, fun named => ⟨rfl, named⟩⟩
  | agent agent attach =>
      change checkRef location "agent" agent runbook.agents = .ok () ∧ _ ↔ _
      rw [checkRef_ok_iff]
      exact ⟨fun passed => passed.1, fun named => ⟨named, rfl⟩⟩

theorem checkWorker_ok_iff (name : String) (worker : WorkerDef) :
    checkWorker runbook name worker = .ok () ↔
      runbook.names.queues worker.queue ∧ runbook.names.jobs worker.job := by
  rw [checkWorker, check_then_ok_iff, checkRef_ok_iff, checkRef_ok_iff]
  rfl

theorem checkCron_ok_iff (name : String) (cron : CronDef) :
    checkCron runbook name cron = .ok () ↔ runbook.names.Schedules cron := by
  rw [checkCron, Names.Schedules]
  cases cron.run with
  | shell line =>
      constructor
      · intro passed
        cases passed
      · intro scheduled
        exact absurd rfl (scheduled.2 line)
  | job job =>
      rw [checkRef_ok_iff]
      exact ⟨fun named => ⟨named, fun line same => (by cases same)⟩, fun scheduled => scheduled.1⟩
  | agent agent attach =>
      rw [checkRef_ok_iff]
      exact ⟨fun named => ⟨named, fun line same => (by cases same)⟩, fun scheduled => scheduled.1⟩

theorem checkJob_ok_iff (name : String) (job : JobDef) :
    checkJob runbook name job = .ok () ↔ ∀ step ∈ job.steps, runbook.names.Directs step.run := by
  rw [checkJob, forM_ok_iff]
  constructor
  · intro passed step member
    obtain ⟨index, bound, found⟩ := List.getElem_of_mem member
    have listed : (step, index) ∈ job.steps.zipIdx :=
      List.mem_zipIdx_iff_getElem?.mpr (List.getElem?_eq_some_iff.mpr ⟨bound, found⟩)
    exact (checkDirective_ok_iff runbook _ _).mp (passed _ listed)
  · intro directed entry listed
    apply (checkDirective_ok_iff runbook _ _).mpr
    exact directed entry.1 (List.fst_mem_of_mem_zipIdx listed)

end Specs

/-- Cross-references are valid where every entity refers to what the runbook
defines. -/
theorem validateCrossRefs_ok_iff (runbook : SourceRunbook) :
    validateCrossRefs runbook = .ok () ↔ runbook.names.Resolves runbook := by
  simp only [validateCrossRefs, check_then_ok_iff, checkEach_ok_iff, checkWorker_ok_iff,
    checkCron_ok_iff, checkJob_ok_iff, checkCommand, checkDirective_ok_iff]
  constructor
  · rintro ⟨workers, crons, jobs, commands⟩
    exact ⟨workers, crons, jobs, commands⟩
  · intro resolved
    exact ⟨resolved.workers, resolved.crons, resolved.jobs, resolved.commands⟩

end OddJobs
