import OddJobs.Runbook.Merging

/-!
# Runbooks under an alias

An alias gives every entity of a runbook a new name, and whatever referred to an entity
refers to its new name.
-/

namespace OddJobs

open Library

def RunDirective.under (aliasName : String) : RunDirective → RunDirective
  | job target => job (prefixed aliasName target)
  | agent target attach => agent (prefixed aliasName target) attach
  | shell line => shell line

/-- An entity of a name under an alias: its own name and all it refers to have the prefix. -/
def EntityKind.under (aliasName name : String) : (kind : EntityKind) → kind.Def → kind.Def
  | command, definition =>
      { definition with
        name := prefixed aliasName name
        run := definition.run.under aliasName }
  | job, definition =>
      { definition with
        kind := prefixed aliasName name
        steps := definition.steps.map fun step => { step with run := step.run.under aliasName } }
  | agent, definition => { definition with name := prefixed aliasName name }
  | queue, definition => { definition with name := prefixed aliasName name }
  | worker, definition =>
      { definition with
        name := prefixed aliasName name
        queue := prefixed aliasName definition.queue
        job := prefixed aliasName definition.job }
  | cron, definition =>
      { definition with
        name := prefixed aliasName name
        run := definition.run.under aliasName }

/-- An alias keeps the entities of a runbook and what they refer to. -/
structure KeepsReferences (runbook : SourceRunbook) (aliasName : String) : Prop where
  /-- Every entity is there under its new name, with the new names of what it refers to. -/
  entities : ∀ (kind : EntityKind) (name : String),
    ((prefixNames runbook aliasName).entities kind)[prefixed aliasName name]? =
      ((runbook.entities kind)[name]?).map (kind.under aliasName name)
  /-- There is nothing else. -/
  only : ∀ (kind : EntityKind) (name : String),
    (((prefixNames runbook aliasName).entities kind)[name]?).isSome →
      ∃ old, name = prefixed aliasName old ∧ ((runbook.entities kind)[old]?).isSome
  valid : validateCrossRefs (prefixNames runbook aliasName) = .ok ()
  merged : ∀ (target : SourceRunbook) (importSource : String), validateCrossRefs target = .ok () →
    validateCrossRefs (mergeRunbook target runbook (some aliasName) importSource).1 = .ok ()

section Prefix

variable {V : Type} {aliasName : String} {runbook : SourceRunbook}

/-- The table of a kind with its keys renamed and its entries updated. -/
theorem lookup_renameKeys_map {table : HashMap V} {update : String → V → V} (name : String) :
    ((renameKeys table (renames aliasName table)).map update)[prefixed aliasName name]? =
      (table[name]?).map (update (prefixed aliasName name)) := by
  rcases stored : table[name]? with _ | value
  · rw [Option.map_none, Option.eq_none_iff_forall_ne_some]
    intro value found
    obtain ⟨old, present, named, listed, -⟩ := (lookup_renameKeys_map_iff aliasName).mp found
    rw [← prefixed_injective aliasName named, stored] at listed
    cases listed
  · exact (lookup_renameKeys_map_iff aliasName).mpr ⟨name, value, rfl, stored, rfl⟩

theorem renameRunDirective_under {run : RunDirective} (directed : runbook.names.Directs run) :
    renameRunDirective (renames aliasName runbook.jobs) (renames aliasName runbook.agents) run =
      run.under aliasName := by
  cases run with
  | shell line => rfl
  | job target => exact congrArg RunDirective.job (renamed_of_mem aliasName directed)
  | agent target attach =>
      exact congrArg (RunDirective.agent · attach) (renamed_of_mem aliasName directed)

/-- What resolves is renamed entity by entity. -/
theorem lookup_prefixNames (resolved : runbook.names.Resolves runbook) (kind : EntityKind)
    (name : String) :
    ((prefixNames runbook aliasName).entities kind)[prefixed aliasName name]? =
      ((runbook.entities kind)[name]?).map (kind.under aliasName name) := by
  cases kind with
  | command =>
      refine (lookup_renameKeys_map name).trans (Option.map_congr fun definition stored => ?_)
      rw [renameRunDirective_under (resolved.commands name definition stored)]
      rfl
  | job =>
      refine (lookup_renameKeys_map name).trans (Option.map_congr fun definition stored => ?_)
      have steps : definition.steps.map
          (renameStep (renames aliasName runbook.jobs) (renames aliasName runbook.agents)) =
            definition.steps.map fun step => { step with run := step.run.under aliasName } := by
        refine List.map_congr_left fun step member => ?_
        rw [renameStep,
          renameRunDirective_under (resolved.jobs name definition stored step member)]
      rw [steps]
      rfl
  | agent => exact lookup_renameKeys_map name
  | queue => exact lookup_renameKeys_map name
  | worker =>
      refine (lookup_renameKeys_map name).trans (Option.map_congr fun definition stored => ?_)
      obtain ⟨queue, job⟩ := resolved.workers name definition stored
      rw [renamed_of_mem aliasName queue, renamed_of_mem aliasName job]
      rfl
  | cron =>
      refine (lookup_renameKeys_map name).trans (Option.map_congr fun definition stored => ?_)
      rw [renameRunDirective_under (resolved.crons name definition stored).1]
      rfl

theorem mem_prefixNames (kind : EntityKind) {name : String}
    (present : (((prefixNames runbook aliasName).entities kind)[name]?).isSome) :
    ∃ old, name = prefixed aliasName old ∧ ((runbook.entities kind)[old]?).isSome := by
  obtain ⟨value, found⟩ := Option.isSome_iff_exists.mp present
  have moved {table : HashMap kind.Def} {update : String → kind.Def → kind.Def}
      (found : ((renameKeys table (renames aliasName table)).map update)[name]? = some value) :
      ∃ old, name = prefixed aliasName old ∧ (table[old]?).isSome := by
    obtain ⟨old, stored, named, listed, -⟩ := (lookup_renameKeys_map_iff aliasName).mp found
    exact ⟨old, named, Option.isSome_of_eq_some listed⟩
  cases kind <;> exact moved found

end Prefix

/-- What two runbooks refer to is in what their merge defines. -/
theorem mergeRunbook_resolves {target source : SourceRunbook} {aliasName : Option String}
    {importSource : String} (own : target.names.Resolves target)
    (imported : (underAlias source aliasName).names.Resolves (underAlias source aliasName)) :
    (mergeRunbook target source aliasName importSource).1.names.Resolves
      (mergeRunbook target source aliasName importSource).1 := by
  have lookups := lookup_mergeRunbook target source aliasName importSource
  have kept (kind : EntityKind) {name : String}
      (present : ((target.entities kind)[name]?).isSome) :
      (((mergeRunbook target source aliasName importSource).1.entities kind)[name]?).isSome := by
    rw [lookups, Option.isSome_or, present, Bool.true_or]
  have brought (kind : EntityKind) {name : String}
      (present : (((underAlias source aliasName).entities kind)[name]?).isSome) :
      (((mergeRunbook target source aliasName importSource).1.entities kind)[name]?).isSome := by
    rw [lookups, Option.isSome_or, present, Bool.or_true]
  have fewer : target.names.Within (mergeRunbook target source aliasName importSource).1.names :=
    ⟨fun _ => kept .queue, fun _ => kept .job, fun _ => kept .agent⟩
  have others : (underAlias source aliasName).names.Within
      (mergeRunbook target source aliasName importSource).1.names :=
    ⟨fun _ => brought .queue, fun _ => brought .job, fun _ => brought .agent⟩
  refine Names.resolves_of_sources fun kind name value found => ?_
  rw [lookups] at found
  rcases Option.or_eq_some_iff.mp found with stored | ⟨-, stored⟩
  · exact ⟨target, stored, fewer.resolves own⟩
  · exact ⟨underAlias source aliasName, stored, others.resolves imported⟩

/-- An alias keeps the references of every runbook whose references are valid. -/
theorem prefixNames_keepsReferences {runbook : SourceRunbook}
    (valid : validateCrossRefs runbook = .ok ()) (aliasName : String) :
    KeepsReferences runbook aliasName := by
  have resolved := (validateCrossRefs_ok_iff runbook).mp valid
  have renamed := prefixNames_resolves aliasName runbook resolved
  refine ⟨lookup_prefixNames resolved, fun kind _ => mem_prefixNames kind,
    (validateCrossRefs_ok_iff _).mpr renamed, ?_⟩
  intro target importSource validTarget
  rw [validateCrossRefs_ok_iff] at validTarget ⊢
  exact mergeRunbook_resolves validTarget renamed

def issueLibrary : SourceRunbook where
  commands := (∅ : HashMap CommandDef).insert "fix" { name := "fix", run := .job "fix" }
  jobs := (∅ : HashMap JobDef).insert "fix"
    { kind := "fix", steps := [{ name := "work", run := .agent "fixer" none }] }
  agents := (∅ : HashMap AgentDef).insert "fixer" { name := "fixer" }
  queues := (∅ : HashMap QueueDef).insert "issues" { name := "issues" }
  workers := (∅ : HashMap WorkerDef).insert "issues"
    { name := "issues", queue := "issues", job := "fix" }
  crons := (∅ : HashMap CronDef).insert "nightly"
    { name := "nightly", interval := "24h", run := .agent "fixer" none }

theorem issueLibrary_keepsReferences : KeepsReferences issueLibrary "oj" :=
  prefixNames_keepsReferences (by decide +kernel) "oj"

end OddJobs
