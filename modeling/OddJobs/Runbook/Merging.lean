import OddJobs.Library.Map
import OddJobs.Runbook.Imports

/-!
# Merged and renamed runbooks

What a merge and an alias do to the entities of a runbook, for every kind of
entity at once: the first runbook with an entity of a name gives it, and an
alias renames the entities together with the references to them.
-/

namespace OddJobs

open Library

inductive EntityKind where
  | command
  | job
  | agent
  | queue
  | worker
  | cron
  deriving DecidableEq, Repr

abbrev EntityKind.Def : EntityKind → Type
  | command => CommandDef
  | job => JobDef
  | agent => AgentDef
  | queue => QueueDef
  | worker => WorkerDef
  | cron => CronDef

namespace SourceRunbook

def entities (runbook : SourceRunbook) : (kind : EntityKind) → HashMap kind.Def
  | .command => runbook.commands
  | .job => runbook.jobs
  | .agent => runbook.agents
  | .queue => runbook.queues
  | .worker => runbook.workers
  | .cron => runbook.crons

/-- Runbooks are equal where their imports, consts and entities are. -/
theorem ext_entities {left right : SourceRunbook} (imports : left.imports = right.imports)
    (consts : left.consts = right.consts)
    (entities : ∀ kind, left.entities kind = right.entities kind) : left = right := by
  cases left
  cases right
  have commands := entities .command
  have jobs := entities .job
  have agents := entities .agent
  have queues := entities .queue
  have workers := entities .worker
  have crons := entities .cron
  dsimp only [SourceRunbook.entities] at commands jobs agents queues workers crons imports consts
  rw [commands, jobs, agents, queues, workers, crons, imports, consts]

end SourceRunbook

/-! ## Merging -/

section Merge

variable {V : Type}

theorem lookup_mergeEntries (entityType importSource : String) (entries : List (String × V))
    (merged : HashMap V × List ImportWarning) (name : String) :
    (entries.foldl (mergeEntry entityType importSource) merged).1[name]? =
      (merged.1[name]?).or ((entries.find? (·.1 == name)).map Prod.snd) := by
  induction entries generalizing merged with
  | nil => simp
  | cons entry rest ih =>
      rw [List.foldl_cons, ih, List.find?_cons]
      rw [mergeEntry, Table.contains_eq_isSome]
      by_cases same : entry.1 = name
      · subst same
        cases stored : merged.1[entry.1]? <;> simp [stored]
      · have passed : (entry.1 == name) = false := beq_false_of_ne same
        rw [passed]
        split
        · rfl
        · rw [Table.lookup_insert, if_neg same]

/-- The target keeps what it has, and takes the rest from the source. -/
theorem lookup_mergeMap (target source : HashMap V) (entityType importSource name : String) :
    (mergeMap target source entityType importSource).1[name]? =
      (target[name]?).or source[name]? := by
  rw [mergeMap, lookup_mergeEntries]
  congr 1
  cases found : source.toList.find? (·.1 == name) with
  | none =>
      rw [Option.map_none, eq_comm, Option.eq_none_iff_forall_ne_some]
      intro value present
      have listed := Std.ExtTreeMap.mem_toList_iff_getElem?_eq_some.mpr present
      exact absurd (beq_self_eq_true name) (List.find?_eq_none.mp found _ listed)
  | some entry =>
      have named := List.find?_some found
      have listed := List.mem_of_find?_eq_some found
      rw [← beq_iff_eq.mp named]
      exact (Std.ExtTreeMap.mem_toList_iff_getElem?_eq_some.mp listed).symm

end Merge

section Runbooks

variable (target source : SourceRunbook) (aliasName : Option String) (importSource : String)

theorem lookup_mergeRunbook (kind : EntityKind) (name : String) :
    ((mergeRunbook target source aliasName importSource).1.entities kind)[name]? =
      ((target.entities kind)[name]?).or
        (((underAlias source aliasName).entities kind)[name]?) := by
  cases kind <;> exact lookup_mergeMap _ _ _ importSource name

/-- Imports can be grouped, and one that is made again adds nothing. -/
theorem mergeRunbook_grouped (later : SourceRunbook) (laterAlias : Option String)
    (laterSource : String) :
    let merged := (mergeRunbook target source aliasName importSource).1
    (mergeRunbook merged later laterAlias laterSource).1 =
        (mergeRunbook target (mergeRunbook (underAlias source aliasName) later laterAlias
          laterSource).1 none importSource).1 ∧
      (mergeRunbook merged source aliasName laterSource).1 = merged := by
  intro merged
  constructor <;> refine SourceRunbook.ext_entities rfl rfl fun kind => Table.ext fun name => ?_
  · rw [lookup_mergeRunbook, lookup_mergeRunbook, lookup_mergeRunbook, Option.or_assoc, underAlias,
      lookup_mergeRunbook]
  · rw [lookup_mergeRunbook, lookup_mergeRunbook, Option.or_assoc, Option.or_self]

end Runbooks

/-! ## Aliases -/

theorem prefixed_injective (aliasName : String) {first second : String}
    (same : prefixed aliasName first = prefixed aliasName second) : first = second := by
  have chars := congrArg String.toList same
  simp only [prefixed, String.toList_append, List.append_cancel_left_eq] at chars
  exact String.toList_inj.mp chars

section Prefix

variable {V W : Type} (aliasName : String)

theorem renamed_of_mem {table : HashMap V} {name : String} (present : (table[name]?).isSome) :
    renamed (renames aliasName table) name = prefixed aliasName name := by
  rw [renamed, renames, Table.lookup_map]
  obtain ⟨value, found⟩ := Option.isSome_iff_exists.mp present
  rw [found]
  rfl

/-- Renaming the keys moves every entry to the new name of its key. -/
theorem lookup_renameKeys_iff {table : HashMap V} {name : String} {value : V} :
    (renameKeys table (renames aliasName table))[name]? = some value ↔
      ∃ old, name = prefixed aliasName old ∧ table[old]? = some value := by
  rw [renameKeys, Table.lookup_foldl_rekey, Table.lookup_empty, Option.or_none]
  have moved : ∀ entry ∈ table.toList,
      renamed (renames aliasName table) entry.1 = prefixed aliasName entry.1 := by
    intro entry listed
    have present := Std.ExtTreeMap.mem_toList_iff_getElem?_eq_some.mp listed
    exact renamed_of_mem aliasName (Option.isSome_of_eq_some present)
  constructor
  · intro found
    obtain ⟨entry, search, rfl⟩ := Option.map_eq_some_iff.mp found
    have listed := List.mem_reverse.mp (List.mem_of_find?_eq_some search)
    have named := List.find?_some search
    rw [moved entry listed, decide_eq_true_eq] at named
    exact ⟨entry.1, named.symm, Std.ExtTreeMap.mem_toList_iff_getElem?_eq_some.mp listed⟩
  · rintro ⟨old, rfl, present⟩
    have listed := Std.ExtTreeMap.mem_toList_iff_getElem?_eq_some.mpr present
    cases search : table.toList.reverse.find? fun entry =>
        decide (renamed (renames aliasName table) entry.1 = prefixed aliasName old) with
    | none =>
        have missed := List.find?_eq_none.mp search _ (List.mem_reverse.mpr listed)
        rw [moved _ listed, decide_eq_true_eq] at missed
        exact absurd rfl missed
    | some entry =>
        have found := List.mem_reverse.mp (List.mem_of_find?_eq_some search)
        have named := List.find?_some search
        rw [moved entry found, decide_eq_true_eq] at named
        have stored := Std.ExtTreeMap.mem_toList_iff_getElem?_eq_some.mp found
        rw [prefixed_injective aliasName named, present] at stored
        rw [Option.map_some, stored]

/-- The same for a table whose entries are updated with their new key. -/
theorem lookup_renameKeys_map_iff {table : HashMap V} {update : String → V → W} {name : String}
    {value : W} :
    ((renameKeys table (renames aliasName table)).map update)[name]? = some value ↔
      ∃ old stored, name = prefixed aliasName old ∧ table[old]? = some stored ∧
        update name stored = value := by
  rw [Table.lookup_map, Option.map_eq_some_iff]
  constructor
  · rintro ⟨stored, found, updated⟩
    obtain ⟨old, named, present⟩ := (lookup_renameKeys_iff aliasName).mp found
    exact ⟨old, stored, named, present, updated⟩
  · rintro ⟨old, stored, named, present, updated⟩
    exact ⟨stored, (lookup_renameKeys_iff aliasName).mpr ⟨old, named, present⟩, updated⟩

theorem isSome_renameKeys {table : HashMap V} {name : String} (present : (table[name]?).isSome) :
    ((renameKeys table (renames aliasName table))[prefixed aliasName name]?).isSome := by
  obtain ⟨value, found⟩ := Option.isSome_iff_exists.mp present
  exact Option.isSome_of_eq_some
    ((lookup_renameKeys_iff aliasName).mpr ⟨name, rfl, found⟩)

variable (runbook : SourceRunbook)

theorem prefixNames_queues {name : String} (named : runbook.names.queues name) :
    (prefixNames runbook aliasName).names.queues
      (renamed (renames aliasName runbook.queues) name) := by
  rw [renamed_of_mem aliasName named]
  have present := isSome_renameKeys aliasName named
  simpa [SourceRunbook.names, prefixNames, Table.lookup_map] using present

theorem prefixNames_jobs {name : String} (named : runbook.names.jobs name) :
    (prefixNames runbook aliasName).names.jobs
      (renamed (renames aliasName runbook.jobs) name) := by
  rw [renamed_of_mem aliasName named]
  have present := isSome_renameKeys aliasName named
  simpa [SourceRunbook.names, prefixNames, Table.lookup_map] using present

theorem prefixNames_agents {name : String} (named : runbook.names.agents name) :
    (prefixNames runbook aliasName).names.agents
      (renamed (renames aliasName runbook.agents) name) := by
  rw [renamed_of_mem aliasName named]
  have present := isSome_renameKeys aliasName named
  simpa [SourceRunbook.names, prefixNames, Table.lookup_map] using present

/-- A renamed directive refers to the renamed entity. -/
theorem prefixNames_directs {run : RunDirective} (directed : runbook.names.Directs run) :
    (prefixNames runbook aliasName).names.Directs
      (renameRunDirective (renames aliasName runbook.jobs) (renames aliasName runbook.agents)
        run) := by
  cases run with
  | shell line => trivial
  | job target => exact prefixNames_jobs aliasName runbook directed
  | agent target attach => exact prefixNames_agents aliasName runbook directed

theorem prefixNames_schedules {cron : CronDef} (name : String)
    (scheduled : runbook.names.Schedules cron) :
    (prefixNames runbook aliasName).names.Schedules { cron with
      name
      run := renameRunDirective (renames aliasName runbook.jobs) (renames aliasName runbook.agents)
        cron.run } := by
  refine ⟨prefixNames_directs aliasName runbook scheduled.1, ?_⟩
  intro line same
  cases run : cron.run with
  | shell own => exact scheduled.2 own run
  | job target =>
      rw [run] at same
      cases same
  | agent target attach =>
      rw [run] at same
      cases same

/-- An alias keeps the references of a runbook. -/
theorem prefixNames_resolves (resolved : runbook.names.Resolves runbook) :
    (prefixNames runbook aliasName).names.Resolves (prefixNames runbook aliasName) where
  workers := by
    intro name worker present
    obtain ⟨old, stored, -, found, rfl⟩ := (lookup_renameKeys_map_iff aliasName).mp present
    obtain ⟨queue, job⟩ := resolved.workers old stored found
    exact ⟨prefixNames_queues aliasName runbook queue, prefixNames_jobs aliasName runbook job⟩
  crons := by
    intro name cron present
    obtain ⟨old, stored, -, found, rfl⟩ := (lookup_renameKeys_map_iff aliasName).mp present
    exact prefixNames_schedules aliasName runbook name (resolved.crons old stored found)
  jobs := by
    intro name job present step member
    obtain ⟨old, stored, -, found, rfl⟩ := (lookup_renameKeys_map_iff aliasName).mp present
    obtain ⟨source, listed, rfl⟩ := List.mem_map.mp member
    exact prefixNames_directs aliasName runbook (resolved.jobs old stored found source listed)
  commands := by
    intro name command present
    obtain ⟨old, stored, -, found, rfl⟩ := (lookup_renameKeys_map_iff aliasName).mp present
    exact prefixNames_directs aliasName runbook (resolved.commands old stored found)

end Prefix

theorem underAlias_resolves {runbook : SourceRunbook} (aliasName : Option String)
    (resolved : runbook.names.Resolves runbook) :
    (underAlias runbook aliasName).names.Resolves (underAlias runbook aliasName) := by
  cases aliasName with
  | none => exact resolved
  | some aliasName => exact prefixNames_resolves aliasName runbook resolved

/-! ## References among more names -/

namespace Names

/-- Every name of one collection is in another. -/
structure Within (few many : Names) : Prop where
  queues : ∀ name, few.queues name → many.queues name
  jobs : ∀ name, few.jobs name → many.jobs name
  agents : ∀ name, few.agents name → many.agents name

variable {few many : Names}

theorem Within.directs (within : few.Within many) {run : RunDirective}
    (directed : few.Directs run) : many.Directs run := by
  cases run with
  | shell line => trivial
  | job target => exact within.jobs target directed
  | agent target attach => exact within.agents target directed

theorem Within.resolves (within : few.Within many) {runbook : SourceRunbook}
    (resolved : few.Resolves runbook) : many.Resolves runbook where
  workers name worker present :=
    (resolved.workers name worker present).imp (within.queues _) (within.jobs _)
  crons name cron present := (resolved.crons name cron present).imp_left within.directs
  jobs name job present step member := within.directs (resolved.jobs name job present step member)
  commands name command present := within.directs (resolved.commands name command present)

/-- References are checked entity by entity: a runbook all of whose entities
come from runbooks that resolve does so itself. -/
theorem resolves_of_sources {names : Names} {runbook : SourceRunbook}
    (sources : ∀ kind (name : String) (value : EntityKind.Def kind),
      (runbook.entities kind)[name]? = some value →
      ∃ source : SourceRunbook, (source.entities kind)[name]? = some value ∧
        names.Resolves source) : names.Resolves runbook where
  workers name worker present := by
    obtain ⟨source, found, resolved⟩ := sources .worker name worker present
    exact resolved.workers name worker found
  crons name cron present := by
    obtain ⟨source, found, resolved⟩ := sources .cron name cron present
    exact resolved.crons name cron found
  jobs name job present := by
    obtain ⟨source, found, resolved⟩ := sources .job name job present
    exact resolved.jobs name job found
  commands name command present := by
    obtain ⟨source, found, resolved⟩ := sources .command name command present
    exact resolved.commands name command found

end Names

end OddJobs
