import OddJobs.Runbook.Merging

/-!
# The order of imports

The imports of a runbook are a hash map.  Whether they are accepted does not
depend on the order in which the map is walked; what they amount to does, where
two of them bring in an entity of the same kind and name.
-/

namespace OddJobs

open Library

namespace LibraryReader

variable (reader : LibraryReader) (runbook : SourceRunbook)

def loaded (entry : String × ImportDef) : Option SourceRunbook :=
  (reader.loadImport entry.1 entry.2).toOption.map fun result =>
    underAlias result.1 entry.2.importAlias

def brings (kind : EntityKind) (name : String) (entry : String × ImportDef) : Option kind.Def :=
  (reader.loaded entry).bind fun library => (library.entities kind)[name]?

/-- The runbook defines an entity of the name, or one of its imports brings it in. -/
def Offers (kind : EntityKind) (name : String) : Prop :=
  ((runbook.entities kind)[name]?).isSome ∨
    ∃ source importDef, runbook.imports[source]? = some importDef ∧
      (reader.brings kind name (source, importDef)).isSome

def offeredNames : Names where
  queues := reader.Offers runbook .queue
  jobs := reader.Offers runbook .job
  agents := reader.Offers runbook .agent

/-- Every import loads, and the runbook refers to what is defined or brought in. -/
structure Accepts : Prop where
  loads : ∀ (source : String) (importDef : ImportDef), runbook.imports[source]? = some importDef →
    (reader.loaded (source, importDef)).isSome
  resolves : (reader.offeredNames runbook).Resolves runbook

/-- Two imports bring in an entity of the same kind and name, and the runbook
itself has none. -/
def Conflict : Prop :=
  ∃ kind name first second firstDef secondDef, first ≠ second ∧
    runbook.imports[first]? = some firstDef ∧ runbook.imports[second]? = some secondDef ∧
    (reader.brings kind name (first, firstDef)).isSome ∧
    (reader.brings kind name (second, secondDef)).isSome ∧
    (runbook.entities kind)[name]? = none

/-- The imports of a runbook, resolved one after the other. -/
def MergesTo (order : WalkOrder) (result : SourceRunbook × List ImportWarning) : Prop :=
  (walkImports order runbook.imports).foldlM reader.resolveImport (runbook.clearMetadata, []) =
    .ok result

/-! ## Loading -/

variable {reader runbook}

/-- The references of a library are checked before it is renamed and merged. -/
theorem loaded_resolves {entry : String × ImportDef} {library : SourceRunbook}
    (loads : reader.loaded entry = some library) : library.names.Resolves library := by
  obtain ⟨⟨source, warnings⟩, loading, rfl⟩ := Option.map_eq_some_iff.mp loads
  cases result : reader.loadImport entry.1 entry.2 with
  | error reason =>
      rw [result] at loading
      cases loading
  | ok pair =>
      rw [result] at loading
      cases loading
      apply underAlias_resolves
      obtain ⟨files, -, rest⟩ := bind_eq_ok.mp result
      obtain ⟨defs, -, rest⟩ := bind_eq_ok.mp rest
      obtain ⟨⟨values, unknown⟩, -, rest⟩ := bind_eq_ok.mp rest
      obtain ⟨merged, -, rest⟩ := bind_eq_ok.mp rest
      obtain ⟨checked, passed, rest⟩ := bind_eq_ok.mp rest
      cases rest
      exact (validateCrossRefs_ok_iff source).mp passed

theorem resolveImport_ok {merged result : SourceRunbook × List ImportWarning}
    {entry : String × ImportDef} (resolved : reader.resolveImport merged entry = .ok result) :
    (reader.loaded entry).isSome ∧ result.1.imports = merged.1.imports ∧
      result.1.consts = merged.1.consts ∧
      ∀ kind name, (result.1.entities kind)[name]? =
        ((merged.1.entities kind)[name]?).or (reader.brings kind name entry) := by
  obtain ⟨⟨library, warnings⟩, loading, rest⟩ := bind_eq_ok.mp resolved
  have loads : reader.loaded entry = some (underAlias library entry.2.importAlias) := by
    rw [loaded, loading]
    rfl
  cases rest
  refine ⟨Option.isSome_of_eq_some loads, rfl, rfl, ?_⟩
  intro kind name
  rw [brings, loads]
  exact lookup_mergeRunbook merged.1 library entry.2.importAlias entry.1 kind name

theorem resolveImport_total (merged : SourceRunbook × List ImportWarning)
    {entry : String × ImportDef} (loads : (reader.loaded entry).isSome) :
    ∃ result, reader.resolveImport merged entry = .ok result := by
  rw [resolveImport]
  cases loading : reader.loadImport entry.1 entry.2 with
  | error reason =>
      rw [loaded, loading] at loads
      cases loads
  | ok pair => exact ⟨_, rfl⟩

/-- Imports that are resolved one after the other: of several entities of one
name the first stays. -/
theorem resolveImports_ok {entries : List (String × ImportDef)}
    {start result : SourceRunbook × List ImportWarning}
    (resolved : entries.foldlM reader.resolveImport start = .ok result) :
    (∀ entry ∈ entries, (reader.loaded entry).isSome) ∧
      result.1.imports = start.1.imports ∧ result.1.consts = start.1.consts ∧
      ∀ kind name, (result.1.entities kind)[name]? =
        ((start.1.entities kind)[name]?).or (entries.findSome? (reader.brings kind name)) := by
  induction entries generalizing start with
  | nil =>
      cases resolved
      exact ⟨fun entry member => absurd member List.not_mem_nil, rfl, rfl, fun kind name => by simp⟩
  | cons entry rest ih =>
      rw [List.foldlM_cons] at resolved
      obtain ⟨next, step, later⟩ := bind_eq_ok.mp resolved
      obtain ⟨loads, imports, consts, lookups⟩ := resolveImport_ok step
      obtain ⟨loadRest, importsRest, constsRest, lookupsRest⟩ := ih later
      refine ⟨List.forall_mem_cons.mpr ⟨loads, loadRest⟩, importsRest.trans imports,
        constsRest.trans consts, ?_⟩
      intro kind name
      rw [lookupsRest, lookups, List.findSome?_cons, Option.or_assoc]
      cases reader.brings kind name entry <;> rfl

theorem resolveImports_total {entries : List (String × ImportDef)}
    (loads : ∀ entry ∈ entries, (reader.loaded entry).isSome)
    (start : SourceRunbook × List ImportWarning) :
    ∃ result, entries.foldlM reader.resolveImport start = .ok result := by
  induction entries generalizing start with
  | nil => exact ⟨start, rfl⟩
  | cons entry rest ih =>
      obtain ⟨first, others⟩ := List.forall_mem_cons.mp loads
      obtain ⟨next, step⟩ := resolveImport_total start first
      obtain ⟨result, later⟩ := ih others next
      rw [List.foldlM_cons]
      exact ⟨result, bind_eq_ok.mpr ⟨next, step, later⟩⟩

/-! ## Walking the imports -/

theorem mem_walkImports (order : WalkOrder) (imports : HashMap ImportDef)
    (entry : String × ImportDef) :
    entry ∈ walkImports order imports ↔ imports[entry.1]? = some entry.2 := by
  rw [walkImports, List.mem_filterMap]
  constructor
  · rintro ⟨source, -, found⟩
    obtain ⟨importDef, present, rfl⟩ := Option.map_eq_some_iff.mp found
    exact present
  · intro present
    refine ⟨entry.1, ?_, Option.map_eq_some_iff.mpr ⟨entry.2, present, rfl⟩⟩
    rw [order.mem_walk, Std.ExtTreeMap.mem_keys, Std.ExtTreeMap.mem_iff_isSome_getElem?]
    exact Option.isSome_of_eq_some present

theorem walkImports_perm (first second : WalkOrder) (imports : HashMap ImportDef) :
    (walkImports first imports).Perm (walkImports second imports) :=
  ((first.perm imports.keys).trans (second.perm imports.keys).symm).filterMap _

theorem walkImports_empty (order : WalkOrder) {imports : HashMap ImportDef}
    (empty : imports.isEmpty) : walkImports order imports = [] := by
  rw [List.eq_nil_iff_forall_not_mem]
  intro entry member
  have present := (mem_walkImports order imports entry).mp member
  rw [Std.ExtTreeMap.isEmpty_iff.mp empty, Table.lookup_empty] at present
  cases present

/-! ## What is accepted -/

section Parse

variable {format : Format} {content : List Char} {order : WalkOrder}
  {result : SourceRunbook × List ImportWarning}

/-- A runbook without imports is one all of whose imports are resolved. -/
theorem parseWithImports_ok_iff
    (parsed : reader.parseRunbookNoXref format content = .ok runbook) :
    reader.parseWithImports order format content = .ok result ↔
      reader.MergesTo runbook order result ∧ result.1.names.Resolves result.1 := by
  rw [← validateCrossRefs_ok_iff, parseWithImports, parsed, MergesTo]
  change (if runbook.imports.isEmpty then _ else _) = _ ↔ _
  split
  next empty =>
      rw [walkImports_empty order empty]
      constructor
      · intro passed
        obtain ⟨checked, valid, rest⟩ := bind_eq_ok.mp passed
        cases rest
        exact ⟨rfl, valid⟩
      · rintro ⟨resolved, valid⟩
        cases resolved
        exact bind_eq_ok.mpr ⟨(), valid, rfl⟩
  next =>
      constructor
      · intro passed
        obtain ⟨middle, resolved, rest⟩ := bind_eq_ok.mp passed
        obtain ⟨checked, valid, rest⟩ := bind_eq_ok.mp rest
        cases rest
        exact ⟨resolved, valid⟩
      · rintro ⟨resolved, valid⟩
        exact bind_eq_ok.mpr ⟨result, resolved, bind_eq_ok.mpr ⟨(), valid, rfl⟩⟩

theorem entities_clearMetadata (kind : EntityKind) :
    runbook.clearMetadata.entities kind = runbook.entities kind := by
  cases kind <;> rfl

theorem lookup_resolved (resolved : reader.MergesTo runbook order result) (kind : EntityKind)
    (name : String) :
    (result.1.entities kind)[name]? = ((runbook.entities kind)[name]?).or
      ((walkImports order runbook.imports).findSome? (reader.brings kind name)) := by
  obtain ⟨-, -, -, lookups⟩ := resolveImports_ok resolved
  rw [lookups, entities_clearMetadata]

/-- The entities on offer are those that the merged runbook has. -/
theorem offers_iff (resolved : reader.MergesTo runbook order result) (kind : EntityKind)
    (name : String) :
    reader.Offers runbook kind name ↔ ((result.1.entities kind)[name]?).isSome := by
  rw [lookup_resolved resolved, Option.isSome_or, Bool.or_eq_true, Offers]
  apply or_congr_right
  rw [List.findSome?_isSome_iff]
  constructor
  · rintro ⟨source, importDef, present, brought⟩
    exact ⟨(source, importDef), (mem_walkImports order _ _).mpr present, brought⟩
  · rintro ⟨entry, member, brought⟩
    exact ⟨entry.1, entry.2, (mem_walkImports order _ _).mp member, brought⟩

theorem offered_within (resolved : reader.MergesTo runbook order result) :
    (reader.offeredNames runbook).Within result.1.names where
  queues name := (offers_iff resolved .queue name).mp
  jobs name := (offers_iff resolved .job name).mp
  agents name := (offers_iff resolved .agent name).mp

theorem within_offered (resolved : reader.MergesTo runbook order result) :
    result.1.names.Within (reader.offeredNames runbook) where
  queues name := (offers_iff resolved .queue name).mpr
  jobs name := (offers_iff resolved .job name).mpr
  agents name := (offers_iff resolved .agent name).mpr

theorem library_within (resolved : reader.MergesTo runbook order result)
    {entry : String × ImportDef} {library : SourceRunbook}
    (member : entry ∈ walkImports order runbook.imports)
    (loads : reader.loaded entry = some library) : library.names.Within result.1.names := by
  have offered : ∀ kind (name : String), ((library.entities kind)[name]?).isSome →
      ((result.1.entities kind)[name]?).isSome := by
    intro kind name present
    rw [← offers_iff resolved]
    refine .inr ⟨entry.1, entry.2, (mem_walkImports order _ _).mp member, ?_⟩
    rw [brings, loads]
    exact present
  exact ⟨offered .queue, offered .job, offered .agent⟩

/-- The merged runbook resolves where the importing runbook does: the libraries
have been checked, and an alias keeps their references. -/
theorem resolves_iff (resolved : reader.MergesTo runbook order result) :
    result.1.names.Resolves result.1 ↔ (reader.offeredNames runbook).Resolves runbook := by
  constructor
  · intro valid
    apply Names.resolves_of_sources
    intro kind name value present
    refine ⟨result.1, ?_, (within_offered resolved).resolves valid⟩
    rw [lookup_resolved resolved, present, Option.some_or]
  · intro valid
    apply Names.resolves_of_sources
    intro kind name value present
    rw [lookup_resolved resolved] at present
    rcases Option.or_eq_some_iff.mp present with own | ⟨-, imported⟩
    · exact ⟨runbook, own, (offered_within resolved).resolves valid⟩
    · obtain ⟨entry, member, brought⟩ := List.exists_of_findSome?_eq_some imported
      obtain ⟨library, loads, found⟩ := Option.bind_eq_some_iff.mp brought
      have within := library_within resolved member loads
      exact ⟨library, found, within.resolves (loaded_resolves loads)⟩

end Parse

variable {format : Format} {content : List Char}

/-- A runbook is accepted in one order exactly when it is in any other. -/
theorem parseWithImports_returns_iff (order : WalkOrder)
    (parsed : reader.parseRunbookNoXref format content = .ok runbook) :
    (∃ result, reader.parseWithImports order format content = .ok result) ↔
      reader.Accepts runbook := by
  constructor
  · rintro ⟨result, accepted⟩
    obtain ⟨resolved, valid⟩ := (parseWithImports_ok_iff parsed).mp accepted
    refine ⟨?_, (resolves_iff resolved).mp valid⟩
    intro source importDef present
    have walked := (mem_walkImports order _ (source, importDef)).mpr present
    exact (resolveImports_ok resolved).1 _ walked
  · intro accepts
    have loads : ∀ entry ∈ walkImports order runbook.imports, (reader.loaded entry).isSome :=
      fun entry member => accepts.loads entry.1 entry.2 ((mem_walkImports order _ _).mp member)
    obtain ⟨result, resolved⟩ := resolveImports_total loads (runbook.clearMetadata, [])
    exact ⟨result, (parseWithImports_ok_iff parsed).mpr
      ⟨resolved, (resolves_iff resolved).mpr accepts.resolves⟩⟩

/-! ## The order -/

def SameOutcome : (first second : Except ParseError (SourceRunbook × List ImportWarning)) → Prop
  | .ok first, .ok second => first.1 = second.1
  | .error _, .error _ => True
  | _, _ => False

/-- Without a conflict every order gives the same entities. -/
theorem same_of_no_conflict (free : ¬ reader.Conflict runbook) {first second : WalkOrder}
    {left right : SourceRunbook × List ImportWarning}
    (leftResolved : reader.MergesTo runbook first left)
    (rightResolved : reader.MergesTo runbook second right) : left.1 = right.1 := by
  obtain ⟨-, leftImports, leftConsts, -⟩ := resolveImports_ok leftResolved
  obtain ⟨-, rightImports, rightConsts, -⟩ := resolveImports_ok rightResolved
  apply SourceRunbook.ext_entities (leftImports.trans rightImports.symm)
    (leftConsts.trans rightConsts.symm)
  intro kind
  apply Table.ext
  intro name
  rw [lookup_resolved leftResolved, lookup_resolved rightResolved]
  cases own : (runbook.entities kind)[name]? with
  | some value => rfl
  | none =>
      rw [Option.none_or, Option.none_or]
      apply WalkOrder.findSome?_perm (walkImports_perm first second runbook.imports)
      intro entry member other listed brought broughtToo
      have present := (mem_walkImports first _ _).mp member
      have presentToo := (mem_walkImports first _ _).mp listed
      by_cases same : entry.1 = other.1
      · rw [same, presentToo] at present
        exact Prod.ext same (Option.some.inj present).symm
      · exact absurd ⟨kind, name, entry.1, other.1, entry.2, other.2, same, present, presentToo,
          brought, broughtToo, own⟩ free

variable (reader) (format) (content)

/-- Every order of the imports gives the same runbook or none, and a conflict
between two imports is an error. -/
structure OrderFree : Prop where
  same : ∀ first second, SameOutcome (reader.parseWithImports first format content)
    (reader.parseWithImports second format content)
  reported : ∀ runbook, reader.parseRunbookNoXref format content = .ok runbook →
    reader.Conflict runbook →
    ∀ order, ∃ reason, reader.parseWithImports order format content = .error reason

variable {reader format content}

theorem orderFree_of_rejected
    (rejected : ∀ order, ∃ reason, reader.parseWithImports order format content = .error reason) :
    reader.OrderFree format content where
  same first second := by
    obtain ⟨left, leftRejected⟩ := rejected first
    obtain ⟨right, rightRejected⟩ := rejected second
    rw [leftRejected, rightRejected]
    trivial
  reported _ _ _ := rejected

theorem rejected_of_not_accepts
    (parsed : reader.parseRunbookNoXref format content = .ok runbook)
    (refused : ¬ reader.Accepts runbook) (order : WalkOrder) :
    ∃ reason, reader.parseWithImports order format content = .error reason := by
  cases outcome : reader.parseWithImports order format content with
  | error reason => exact ⟨reason, rfl⟩
  | ok result =>
      have accepts := (parseWithImports_returns_iff order parsed).mp ⟨result, outcome⟩
      exact absurd accepts refused

/-- An accepted runbook without a conflict is order free. -/
theorem orderFree_of_no_conflict
    (parsed : reader.parseRunbookNoXref format content = .ok runbook)
    (accepts : reader.Accepts runbook) (free : ¬ reader.Conflict runbook) :
    reader.OrderFree format content where
  same first second := by
    obtain ⟨left, leftParsed⟩ := (parseWithImports_returns_iff first parsed).mpr accepts
    obtain ⟨right, rightParsed⟩ := (parseWithImports_returns_iff second parsed).mpr accepts
    have leftResolved := ((parseWithImports_ok_iff parsed).mp leftParsed).1
    have rightResolved := ((parseWithImports_ok_iff parsed).mp rightParsed).1
    rw [leftParsed, rightParsed]
    exact same_of_no_conflict free leftResolved rightResolved
  reported other read conflict := by
    rw [parsed] at read
    cases read
    exact absurd conflict free

variable (reader format content)

/-- Imports do not depend on the order of their map, and no conflict between
them passes, exactly when a runbook in which two of them conflict is rejected for
another reason. -/
theorem importsOrderFree_iff :
    reader.OrderFree format content ↔
      ∀ runbook, reader.parseRunbookNoXref format content = .ok runbook →
        reader.Accepts runbook → ¬ reader.Conflict runbook := by
  constructor
  · intro free runbook parsed accepts conflict
    obtain ⟨result, accepted⟩ := (parseWithImports_returns_iff .byKey parsed).mpr accepts
    obtain ⟨reason, rejected⟩ := free.reported runbook parsed conflict .byKey
    rw [rejected] at accepted
    cases accepted
  · intro spared
    cases parsed : reader.parseRunbookNoXref format content with
    | error reason =>
        apply orderFree_of_rejected
        intro order
        rw [parseWithImports, parsed]
        exact ⟨reason, rfl⟩
    | ok runbook =>
        by_cases accepts : reader.Accepts runbook
        · exact orderFree_of_no_conflict parsed accepts (spared runbook parsed accepts)
        · exact orderFree_of_rejected (rejected_of_not_accepts parsed accepts)

end LibraryReader

section TwoPlans

def claudeLibrary : SourceRunbook where
  commands := (∅ : HashMap CommandDef).insert "plan" { name := "plan", run := .job "plan" }
  jobs := (∅ : HashMap JobDef).insert "plan"
    { kind := "plan", steps := [{ name := "build", run := .agent "claude" none }] }
  agents := (∅ : HashMap AgentDef).insert "claude" { name := "claude" }

def wokLibrary : SourceRunbook where
  consts := (∅ : HashMap ConstDef).insert "prefix" {}
  commands := (∅ : HashMap CommandDef).insert "plan"
    { name := "plan", run := .shell "wok label plan:needed" }

def importingRunbook : SourceRunbook where
  imports := ((∅ : HashMap ImportDef).insert "oj/claude" {}).insert "oj/wok"
    { consts := (∅ : HashMap ImportConst).insert "prefix" { value := "x" } }

def twoPlans : LibraryReader where
  builtinLibraries :=
    [{ source := "oj/claude", files := [{ filename := "plan.hcl", content := ['c'] }] },
      { source := "oj/wok", files := [{ filename := "epic.hcl", content := ['w'] }] }]
  parseRunbookNoXref _ content :=
    if content = ['c'] then .ok claudeLibrary
    else if content = ['w'] then .ok wokLibrary
    else .ok importingRunbook

/-- What the command `plan` runs after a parse. -/
def planRuns (outcome : Except ParseError (SourceRunbook × List ImportWarning)) :
    Option RunDirective :=
  outcome.toOption.bind fun result => (result.1.commands["plan"]?).map CommandDef.run

/-- The command of one library or of the other, by the order of the imports. -/
theorem conflict_depends_on_order : ¬ twoPlans.OrderFree .hcl [] := by
  intro free
  have same := free.same .byKey ⟨List.reverse, List.reverse_perm⟩
  have forward : planRuns (twoPlans.parseWithImports .byKey .hcl []) = some (.job "plan") := by
    decide +kernel
  have backward : planRuns (twoPlans.parseWithImports ⟨List.reverse, List.reverse_perm⟩ .hcl []) =
      some (.shell "wok label plan:needed") := by
    decide +kernel
  cases first : twoPlans.parseWithImports .byKey .hcl [] with
  | error reason =>
      rw [first] at forward
      cases forward
  | ok left =>
      cases second : twoPlans.parseWithImports ⟨List.reverse, List.reverse_perm⟩ .hcl [] with
      | error reason =>
          rw [second] at backward
          cases backward
      | ok right =>
          rw [first, second] at same
          have equal : left.1 = right.1 := same
          rw [first] at forward
          rw [second] at backward
          change (left.1.commands["plan"]?).map CommandDef.run = _ at forward
          change (right.1.commands["plan"]?).map CommandDef.run = _ at backward
          rw [equal, backward] at forward
          cases forward

end TwoPlans

end OddJobs
