import Mathlib.Algebra.Order.BigOperators.Group.List
import Mathlib.Algebra.Order.Group.Nat
import OddJobs.Engine.EagerLocals
import OddJobs.Engine.Handlers
import OddJobs.Library.Evaluation
import OddJobs.Runbook.Template

/-!
# Locals in some order

The locals of a job are walked in the order of a hash map, and each is put among the variables
that the templates of the later ones see.  The order does not show when no reference of one local
to another does.
-/

namespace OddJobs

open Library

/-- Surroundings that interpolate templates as the runbook crate does. -/
def Outside.templated (env : Template.Environment) (outside : Outside) : Outside :=
  { outside with
    interpolate := Template.interpolate env
    interpolateShell := Template.interpolateShell env }

namespace Locals

abbrev Scope := HashMap String × HashMap String

theorem name_ne {key other : String} (different : other ≠ key) :
    "local." ++ other ≠ "local." ++ key := by
  intro same
  have texts := congrArg String.toList same
  rw [String.toList_append, String.toList_append, List.append_right_inj] at texts
  exact different (String.toList_inj.mp texts)

def store : Store Scope String String where
  put scope key value :=
    (scope.1.insert ("local." ++ key) value, scope.2.insert ("local." ++ key) value)
  read scope key := scope.2["local." ++ key]?
  read_put scope key value := by
    rw [Table.lookup_insert, if_pos rfl]
  read_put_of_ne scope value different := by
    rw [Table.lookup_insert, if_neg (name_ne different).symm]
  put_comm scope value otherValue different := by
    rw [Table.insert_comm _ (name_ne different), Table.insert_comm _ (name_ne different)]

section Evaluating

variable (outside : Outside) (bash : String → PathBuf → Except String ShellOutput)
  (locals : HashMap String)

abbrev templateOf (key : String) : String := (locals[key]?).getD ""

def value (key : String) (scope : Scope) : Option String :=
  let template := templateOf locals key
  if hasSubstitution template then
    match bash (localCommand (outside.interpolateShell template scope.1))
      (Handler.invokeDir outside scope.2) with
    | .ok output =>
        if output.success then some (String.ofList (Text.trimNewlines output.stdout.toList))
        else none
    | .error _ => none
  else some (outside.interpolate template scope.1)

variable {bash} {runtime : Runtime}

/-- What the handler evaluates, where the shell is a function of the command. -/
theorem evaluateLocal_eq (steady : ∀ n, (runtime.readings n).bash = bash) (key : String)
    (scope : Scope) :
    let ran := Handler.evaluateLocal outside key ((locals[key]?).getD "") scope.1 scope.2 runtime
    ran.1.toOption = value outside bash locals key scope ∧
      ∀ n, (ran.2.readings n).bash = bash := by
  unfold value Handler.evaluateLocal Handler.evaluateShell
  dsimp only
  split
  · rw [Program.run_bind, Handler.nextReading]
    dsimp only
    rw [steady 0]
    rcases bash _ _ with _ | output
    · exact ⟨rfl, fun n => steady (n + 1)⟩
    · dsimp only
      split <;> exact ⟨rfl, fun n => steady (n + 1)⟩
  · exact ⟨rfl, steady⟩

/-- The handler evaluates the locals one after the other. -/
theorem evaluateLocals_eq (steady : ∀ n, (runtime.readings n).bash = bash) (names : List String)
    (scope : Scope) :
    (Handler.evaluateLocals outside locals names scope.1 scope.2 runtime).1.toOption =
      (store.evaluateAll (value outside bash locals) names scope).map Prod.snd := by
  induction names generalizing scope runtime with
  | nil => rfl
  | cons key rest ih =>
      obtain ⟨valued, stays⟩ := evaluateLocal_eq outside locals steady key scope
      rw [Handler.evaluateLocals, Program.run_bind, Store.evaluateAll, ← valued]
      revert stays
      rcases Handler.evaluateLocal outside key _ scope.1 scope.2 runtime with ⟨_ | found, after⟩
      · intro _
        rfl
      · intro stays
        exact ih stays (store.put scope key found)

end Evaluating

/-! ## What a template comes to -/

section Templates

variable (env : Template.Environment) {template name : String} {vars others : HashMap String}

/-- The text of a template, or the command that prints it. -/
def comesTo (template : String) (lookup : HashMap String) : String :=
  if hasSubstitution template then localCommand (Template.interpolateShell env template lookup)
  else Template.interpolate env template lookup

/-- Whatever the value is, nothing of it is shown. -/
def ShowsNothing (reference : Template.Reference) : Prop :=
  (reference.offset.bind Template.parseUsize).isSome = true ∧
    reference.length.bind Template.parseUsize = some 0

theorem ShowsNothing.render {reference : Template.Reference} (nothing : ShowsNothing reference)
    (stands : vars.contains (String.ofList reference.name) = true) (shellEscape : Bool) :
    reference.render shellEscape vars = [] := by
  obtain ⟨value, found⟩ := Option.isSome_iff_exists.mp (Table.contains_eq_isSome vars _ ▸ stands)
  obtain ⟨offset, begins⟩ := Option.isSome_iff_exists.mp nothing.1
  rw [Template.Reference.render, found]
  simp only [Template.Reference.part, begins, nothing.2, List.take_zero]
  split <;> rfl

theorem comesTo_congr (alike : ∀ shellEscape, ∀ reference ∈ Template.references env template,
    reference.render shellEscape vars = reference.render shellEscape others) :
    comesTo env template vars = comesTo env template others := by
  have same (shellEscape : Bool) :=
    @Template.interpolateInner_congr env template vars others shellEscape (alike shellEscape)
  unfold comesTo Template.interpolateShell Template.interpolate
  rw [same, same]

/-- Neither the `$(` and the `)` that are taken off nor the `printf` hold a brace. -/
theorem count_localCommand (value : String) :
    (localCommand value).toList.count '\x7b' = value.toList.count '\x7b' := by
  have blank {space : List Char} (white : ∀ c ∈ space, Text.isWhiteSpace c = true) :
      space.count '\x7b' = 0 :=
    List.count_eq_zero.mpr fun member => absurd (white _ member) (by decide)
  rw [EagerLocal.localCommand_eq, EagerLocal.shellCommand]
  split
  · rename_i wraps
    obtain ⟨before, after, split, first, last⟩ := Text.exists_trim value.toList
    obtain ⟨inner, shape⟩ := EagerLocal.shape_of_wrapped wraps
    rw [shape] at split
    rw [shape, split, EagerLocal.ShellCommand.text, String.toList_ofList, List.drop_succ_cons,
      List.drop_succ_cons, List.drop_zero, List.dropLast_concat]
    simp [List.count_append, blank first, blank last]
  · simp [EagerLocal.ShellCommand.text, List.count_append]

theorem count_comesTo (template : String) : ∃ between, ∀ vars,
    (comesTo env template vars).toList.count '\x7b' = between +
      ((Template.references env template).map fun reference =>
        (reference.render (hasSubstitution template) vars).count '\x7b').sum := by
  obtain ⟨between, counts⟩ := Pattern.count_replaceAll (Template.varPattern env)
    (Template.expandEnvironment env template.toList) '\x7b'
  refine ⟨between, fun vars => ?_⟩
  have each (shellEscape : Bool) : (Template.interpolateInner env template vars
      shellEscape).toList.count '\x7b' = between +
        ((Template.references env template).map fun reference =>
          (reference.render shellEscape vars).count '\x7b').sum := by
    rw [Template.interpolateInner, String.toList_ofList, counts, Template.references]
  unfold comesTo
  cases hasSubstitution template with
  | true =>
      rw [if_pos rfl, count_localCommand]
      exact each true
  | false =>
      rw [if_neg Bool.false_ne_true]
      exact each false

/-- Where a template comes to the same, and no reference shows fewer braces, each shows as many. -/
theorem count_render_eq (same : comesTo env template vars = comesTo env template others)
    (grows : ∀ reference ∈ Template.references env template,
      (reference.render (hasSubstitution template) vars).count '\x7b' ≤
        (reference.render (hasSubstitution template) others).count '\x7b')
    {reference : Template.Reference} (member : reference ∈ Template.references env template) :
    (reference.render (hasSubstitution template) vars).count '\x7b' =
      (reference.render (hasSubstitution template) others).count '\x7b' := by
  obtain ⟨between, counts⟩ := count_comesTo env template
  have total := congrArg (fun text : String => text.toList.count '\x7b') same
  rw [counts, counts, Nat.add_left_cancel_iff] at total
  by_contra differs
  have less := List.sum_lt_sum _ _ grows
    ⟨reference, member, Nat.lt_of_le_of_ne (grows reference member) differs⟩
  exact absurd total (Nat.ne_of_lt less)

def braces (n : Nat) : String := String.ofList (List.replicate n '\x7b')

/-- As many braces as are needed to see one of them. -/
def enough (reference : Template.Reference) : Nat :=
  (reference.offset.bind Template.parseUsize).getD 0 + 1

theorem render_of_lookup {reference : Template.Reference} {value : String}
    (found : vars[String.ofList reference.name]? = some value) (shellEscape : Bool) :
    (reference.render shellEscape vars).count '\x7b' =
      (reference.part value.toList).count '\x7b' := by
  have escaped (text : List Char) : (escapeForShell text).count '\x7b' = text.count '\x7b' := by
    induction text with
    | nil => rfl
    | cons c rest ih =>
        rw [escapeForShell, List.flatMap_cons, List.count_append, List.count_cons, Nat.add_comm]
        refine congrArg₂ (· + ·) ih ?_
        unfold escapeChar
        split
        · rename_i special
          rcases special with rfl | rfl | rfl | rfl <;> decide
        · exact List.count_singleton
  rw [Template.Reference.render, found]
  cases shellEscape with
  | true => exact escaped _
  | false => rfl

/-- A reference that shows no brace of enough shows nothing. -/
theorem showsNothing_of_count {reference : Template.Reference}
    (unseen : (reference.part (braces (enough reference)).toList).count '\x7b' = 0) :
    ShowsNothing reference := by
  rw [braces, String.toList_ofList, enough, Template.Reference.part] at unseen
  unfold ShowsNothing
  cases begins : reference.offset.bind Template.parseUsize with
  | none =>
      simp [begins] at unseen
  | some offset =>
      cases ends : reference.length.bind Template.parseUsize with
      | none => simp [begins, ends] at unseen
      | some length =>
          simp only [begins, ends, Option.getD_some, List.drop_replicate, List.take_replicate,
            List.count_replicate_self, Nat.add_sub_cancel_left] at unseen
          exact ⟨rfl, congrArg some (by omega)⟩

end Templates

/-! ## Locals that show nothing of one another -/

section Linking

variable (env : Template.Environment) (locals lookup : HashMap String)

/-- The variables, with the values of those of the locals that no command prints. -/
def withPlain (others : List String) : HashMap String :=
  (others.filter fun other => !hasSubstitution (templateOf locals other)).foldl
    (fun vars other => vars.insert ("local." ++ other)
      (Template.interpolate env (templateOf locals other) lookup)) lookup

/-- The template of each local comes to the same once values of others stand among the variables.
What a command prints can be any text, so nothing of it may be shown. -/
structure Unlinked : Prop where
  plain : ∀ key ∈ locals.keys, ∀ others ⊆ locals.keys, key ∉ others → others.Nodup →
    comesTo env (templateOf locals key) (withPlain env locals lookup others) =
      comesTo env (templateOf locals key) lookup
  printed : ∀ key ∈ locals.keys, ∀ other ∈ locals.keys, other ≠ key →
    hasSubstitution (templateOf locals other) = true →
    ∀ reference ∈ Template.references env (templateOf locals key),
      String.ofList reference.name = "local." ++ other →
        ShowsNothing reference ∧ lookup.contains ("local." ++ other) = true

variable {env locals lookup}
variable (outside : Outside) (bash : String → PathBuf → Except String ShellOutput)

theorem value_congr {key : String} {first second : Scope}
    (text : comesTo env (templateOf locals key) first.1 =
      comesTo env (templateOf locals key) second.1)
    (directory : Handler.invokeDir outside first.2 = Handler.invokeDir outside second.2) :
    value (outside.templated env) bash locals key first =
      value (outside.templated env) bash locals key second := by
  unfold value
  unfold comesTo at text
  dsimp only at text ⊢
  cases substituted : hasSubstitution (templateOf locals key) with
  | true =>
      rw [substituted, if_pos rfl, if_pos rfl] at text
      rw [if_pos rfl, if_pos rfl]
      change (match bash (localCommand (Template.interpolateShell env _ _))
        (Handler.invokeDir outside _) with | .ok _ => _ | .error _ => _) = _
      rw [text, directory]
      rfl
  | false =>
      rw [substituted, if_neg Bool.false_ne_true, if_neg Bool.false_ne_true] at text
      exact congrArg some text

/-- A variable that no command prints has the value that it has without commands. -/
theorem lookup_putAll (scope : Scope) {others : List String} {name : String}
    (unprinted : ∀ other ∈ others, hasSubstitution (templateOf locals other) = true →
      name ≠ "local." ++ other) :
    (store.putAll (value (outside.templated env) bash locals) scope others scope).1[name]? =
      (withPlain env locals scope.1 others)[name]? := by
  have each (first : Scope) (second : HashMap String) (same : first.1[name]? = second[name]?) :
      (store.putAll (value (outside.templated env) bash locals) scope others first).1[name]? =
        ((others.filter fun other => !hasSubstitution (templateOf locals other)).foldl
          (fun vars other => vars.insert ("local." ++ other)
            (Template.interpolate env (templateOf locals other) scope.1)) second)[name]? := by
    induction others generalizing first second with
    | nil => exact same
    | cons other rest ih =>
        obtain ⟨apart, later⟩ := List.forall_mem_cons.mp unprinted
        rw [Store.putAll, List.foldl_cons]
        cases substituted : hasSubstitution (templateOf locals other) with
        | true =>
            rw [List.filter_cons_of_neg (by simp [substituted])]
            refine ih later _ _ ?_
            cases value (outside.templated env) bash locals other scope with
            | none => exact same
            | some found =>
                rw [← same]
                exact (Table.lookup_insert _ _ _ _).trans (if_neg (apart substituted).symm)
        | false =>
            have valued : value (outside.templated env) bash locals other scope =
                some (Template.interpolate env (templateOf locals other) scope.1) := by
              rw [value, substituted]
              rfl
            rw [List.filter_cons_of_pos (by simp [substituted]), List.foldl_cons, valued]
            refine ih later _ _ ?_
            change (first.1.insert _ _)[name]? = _
            rw [Table.lookup_insert, Table.lookup_insert, same]
  exact each scope scope.1 rfl

/-- What stands among the variables goes on standing there. -/
theorem contains_putAll (scope : Scope) (others : List String) {name : String}
    (stands : scope.1.contains name = true) :
    (store.putAll (value (outside.templated env) bash locals) scope others scope).1.contains name =
        true ∧ (withPlain env locals scope.1 others).contains name = true := by
  constructor
  · refine List.foldlRecOn (motive := fun now : Scope => now.1.contains name = true) others _
      stands fun now stands other _ => ?_
    cases value (outside.templated env) bash locals other scope with
    | none => exact stands
    | some found => exact (Table.contains_insert_iff _ _ _ _).mpr (.inr stands)
  · exact List.foldlRecOn (motive := fun vars : HashMap String => vars.contains name = true) _ _
      stands fun vars stands other _ => (Table.contains_insert_iff _ _ _ _).mpr (.inr stands)

theorem invokeDir_putAll (scope : Scope) (others : List String) :
    Handler.invokeDir outside
        (store.putAll (value (outside.templated env) bash locals) scope others scope).2 =
      Handler.invokeDir outside scope.2 := by
  refine List.foldlRecOn (motive := fun now : Scope =>
    Handler.invokeDir outside now.2 = Handler.invokeDir outside scope.2) others _ rfl
    fun now same other _ => ?_
  cases value (outside.templated env) bash locals other scope with
  | none => exact same
  | some found =>
      have apart : "local." ++ other ≠ "invoke.dir" := by
        intro itself
        have texts := congrArg String.toList itself
        rw [String.toList_append] at texts
        cases texts
      rw [← same, Handler.invokeDir, Handler.invokeDir]
      change ((now.2.insert _ _)["invoke.dir"]?).getD _ = _
      rw [Table.lookup_insert, if_neg apart]

/-- Locals that show nothing of one another keep the values that they have at the start. -/
theorem Unlinked.stable (unlinked : Unlinked env locals lookup) (vars : HashMap String)
    {key : String} (member : key ∈ locals.keys) {others : List String}
    (within : others ⊆ locals.keys) (fresh : key ∉ others) (distinct : others.Nodup) :
    value (outside.templated env) bash locals key
        (store.putAll (value (outside.templated env) bash locals) (lookup, vars) others
          (lookup, vars)) =
      value (outside.templated env) bash locals key (lookup, vars) := by
  refine value_congr outside bash ?_ (invokeDir_putAll outside bash (lookup, vars) others)
  refine Eq.trans (comesTo_congr env fun shellEscape reference referred => ?_)
    (unlinked.plain key member others within fresh distinct)
  by_cases printed : ∃ other ∈ others, hasSubstitution (templateOf locals other) = true ∧
      String.ofList reference.name = "local." ++ other
  · obtain ⟨other, listed, substituted, named⟩ := printed
    have apart : other ≠ key := fun itself => fresh (itself ▸ listed)
    obtain ⟨nothing, stands⟩ :=
      unlinked.printed key member other (within listed) apart substituted reference referred named
    rw [← named] at stands
    obtain ⟨real, plain⟩ := contains_putAll outside bash (lookup, vars) others stands
    rw [nothing.render real, nothing.render plain]
  · have same := @lookup_putAll env locals outside bash (lookup, vars) others
      (String.ofList reference.name) fun other listed substituted named =>
        printed ⟨other, listed, substituted, named⟩
    rw [Template.Reference.render, same, Template.Reference.render]

/-! ## What the order tells -/

/-- The shell in which each command prints its text. -/
def printing (out : String → String) (command : String) (_ : PathBuf) : Except String ShellOutput :=
  .ok ⟨true, out command, ""⟩

variable {outside} {vars : HashMap String} {out : String → String}

theorem value_printing (lineless : ∀ command, '\n' ∉ (out command).toList) (key : String)
    (scope : Scope) : value (outside.templated env) (printing out) locals key scope =
      some (if hasSubstitution (templateOf locals key) = true then
        out (comesTo env (templateOf locals key) scope.1)
      else comesTo env (templateOf locals key) scope.1) := by
  unfold value comesTo printing
  dsimp only
  split
  · have kept {text : List Char} (inside : '\n' ∉ text) : Text.trimNewlines text = text := by
      rw [Text.trimNewlines, List.dropWhile_eq_self_iff.mpr, List.reverse_reverse]
      intro long newline
      exact inside (beq_iff_eq.mp newline ▸ List.mem_reverse.mp (List.get_mem _ ⟨0, long⟩))
    rw [if_pos rfl, kept (lineless _), String.ofList_toList]
    rfl
  · rfl

/-- Where the values are settled, a template comes to the same among values of others, if its
command prints what no other does. -/
theorem comesTo_of_settled (lineless : ∀ command, '\n' ∉ (out command).toList)
    (settled : store.Settled (value (outside.templated env) (printing out) locals) locals.keys
      (lookup, vars)) {key : String} (member : key ∈ locals.keys)
    (tells : ∀ command, out command = out (comesTo env (templateOf locals key) lookup) →
      command = comesTo env (templateOf locals key) lookup)
    {others : List String} (within : others ⊆ locals.keys) (fresh : key ∉ others)
    (distinct : others.Nodup) :
    comesTo env (templateOf locals key) (store.putAll (value (outside.templated env) (printing out)
      locals) (lookup, vars) others (lookup, vars)).1 =
        comesTo env (templateOf locals key) lookup := by
  have keeps := (settled key member).2 others within fresh distinct
  rw [value_printing lineless, value_printing lineless] at keeps
  have same := Option.some.inj keeps
  split at same
  · exact tells _ same
  · exact same

/-- What a command prints is put among the variables of another template, and does not show. -/
theorem comesTo_insert_braces (settled : ∀ out : String → String,
    (∀ command, '\n' ∉ (out command).toList) → store.Settled (value (outside.templated env)
      (printing out) locals) locals.keys (lookup, vars)) {key other : String}
    (member : key ∈ locals.keys) (listed : other ∈ locals.keys) (apart : other ≠ key)
    (substituted : hasSubstitution (templateOf locals other) = true) (n : Nat) :
    comesTo env (templateOf locals key) (lookup.insert ("local." ++ other) (braces n)) =
      comesTo env (templateOf locals key) lookup := by
  let bare := comesTo env (templateOf locals key) lookup
  let printer := comesTo env (templateOf locals other) lookup
  -- the two commands print braces, and are told apart from all others
  let tag (command : String) : String :=
    if command = printer then "" else if command = bare then "b" else "c"
  let out (command : String) : String := braces n ++ tag command
  have lineless (command : String) : '\n' ∉ (out command).toList := by
    rw [String.toList_append, braces, String.toList_ofList, List.mem_append, not_or]
    refine ⟨fun inside => absurd (List.eq_of_mem_replicate inside) (by decide), ?_⟩
    unfold tag
    repeat' split
    all_goals decide
  have tells (command : String) (same : out command = out bare) : command = bare := by
    have tags : tag command = tag bare := by simpa [out] using same
    by_contra differs
    by_cases itself : bare = printer
    · simp [tag, itself, itself ▸ differs] at tags
    · by_cases prints : command = printer <;> simp [tag, itself, differs, prints] at tags
  have kept := comesTo_of_settled lineless (settled out lineless) member tells
    (fun name single => List.mem_singleton.mp single ▸ listed)
    (fun itself => apart (List.mem_singleton.mp itself).symm) (List.nodup_singleton other)
  have valued : value (outside.templated env) (printing out) locals other (lookup, vars) =
      some (braces n) := by
    rw [value_printing lineless, if_pos substituted]
    simp [out, tag, printer]
  rw [Store.putAll, List.foldl_cons, List.foldl_nil, valued] at kept
  exact kept

/-- How many braces a reference shows, where the variable of a local is made of braces. -/
theorem count_render_braces (reference : Template.Reference) (shellEscape : Bool) (other : String)
    (n : Nat) :
    (reference.render shellEscape (lookup.insert ("local." ++ other) (braces n))).count '\x7b' =
      if String.ofList reference.name = "local." ++ other then
        (reference.part (braces n).toList).count '\x7b'
      else (reference.render shellEscape lookup).count '\x7b' := by
  split
  · rename_i named
    refine render_of_lookup ?_ _
    rw [named, Table.lookup_insert, if_pos rfl]
  · rename_i apart
    rw [Template.Reference.render, Template.Reference.render, Table.lookup_insert,
      if_neg (Ne.symm apart)]

theorem count_part_braces (reference : Template.Reference) :
    (reference.part (braces 0).toList).count '\x7b' = 0 := by
  rw [braces, String.toList_ofList, Template.Reference.part]
  split <;> simp

theorem unlinked_of_settled (settled : ∀ out : String → String,
    (∀ command, '\n' ∉ (out command).toList) → store.Settled (value (outside.templated env)
      (printing out) locals) locals.keys (lookup, vars)) : Unlinked env locals lookup where
  plain := by
    intro key member others within fresh distinct
    let bare := comesTo env (templateOf locals key) lookup
    let out (command : String) : String := if command = bare then "" else "x"
    have lineless (command : String) : '\n' ∉ (out command).toList := by
      unfold out
      split <;> decide
    have tells (command : String) (same : out command = out bare) : command = bare := by
      by_contra differs
      simp [out, differs] at same
    let unprinted := others.filter fun other => !hasSubstitution (templateOf locals other)
    have inOthers {name : String} (listed : name ∈ unprinted) : name ∈ others :=
      (List.mem_filter.mp listed).1
    have kept := comesTo_of_settled lineless (settled out lineless) member tells
      (fun name (listed : name ∈ unprinted) => within (inOthers listed))
      (fun listed => fresh (inOthers listed)) (distinct.filter _)
    refine Eq.trans (comesTo_congr env fun shellEscape reference _ => ?_) kept
    have same := @lookup_putAll env locals outside (printing out) (lookup, vars) unprinted
      (String.ofList reference.name) fun other listed substituted => by
        have without := (List.mem_filter.mp listed).2
        rw [substituted] at without
        cases without
    have filtered : withPlain env locals lookup unprinted = withPlain env locals lookup others := by
      simp only [withPlain, unprinted, List.filter_filter, Bool.and_self]
    rw [filtered] at same
    rw [Template.Reference.render, ← same, Template.Reference.render]
  printed := by
    intro key member other listed apart substituted reference referred named
    have kept := comesTo_insert_braces settled member listed apart substituted
    constructor
    · have counts := count_render_eq env ((kept 0).trans (kept (enough reference)).symm)
        (fun seen _ => ?_) referred
      · rw [count_render_braces, count_render_braces, if_pos named, if_pos named,
          count_part_braces] at counts
        exact showsNothing_of_count counts.symm
      · rw [count_render_braces, count_render_braces, count_part_braces]
        split
        · exact Nat.zero_le _
        · exact Nat.le_refl _
    · by_contra absent
      have missing : lookup["local." ++ other]? = none := by
        rwa [Table.contains_eq_isSome, Bool.not_eq_true, Option.isSome_eq_false_iff,
          Option.isNone_iff_eq_none] at absent
      have counts := count_render_eq env (kept 0) (fun seen _ => ?_) referred
      · rw [count_render_braces, if_pos named, count_part_braces, Template.Reference.render, named,
          missing] at counts
        obtain ⟨here, remaining, read⟩ := Pattern.mem_replaced referred
        exact absurd (Template.brace_mem_whole env read) (List.count_eq_zero.mp counts.symm)
      · rw [count_render_braces, count_part_braces]
        split
        · exact Nat.zero_le _
        · exact Nat.le_refl _

/-- Locals are not linked where no template names another. -/
theorem unlinked_of_unreferenced (unreferenced : ∀ key ∈ locals.keys, ∀ other ∈ locals.keys,
    other ≠ key → ∀ reference ∈ Template.references env (templateOf locals key),
      String.ofList reference.name ≠ "local." ++ other) : Unlinked env locals lookup where
  plain := by
    intro key member others within fresh _
    refine comesTo_congr env fun shellEscape reference referred => ?_
    have same : (withPlain env locals lookup others)[String.ofList reference.name]? =
        lookup[String.ofList reference.name]? := by
      refine List.foldlRecOn (motive := fun vars : HashMap String =>
        vars[String.ofList reference.name]? = lookup[String.ofList reference.name]?) _ _ rfl
        fun vars same other listed => ?_
      have inOthers := (List.mem_filter.mp listed).1
      have differs := unreferenced key member other (within inOthers)
        (fun itself => fresh (itself ▸ inOthers)) reference referred
      exact (Table.lookup_insert _ _ _ _).trans ((if_neg differs.symm).trans same)
    rw [Template.Reference.render, same, Template.Reference.render]
  printed := fun key member other listed apart _ reference referred named =>
    absurd named (unreferenced key member other listed apart reference referred)

end Linking

/-! ## Whichever order is walked -/

/-- Surroundings without environment variables, where ASCII characters alone make words. -/
def surroundings : Outside :=
  (Outside.plain {}).templated ⟨fun _ => none, Template.isNameChar, Char.isDigit⟩

def titledJob : JobDef where
  kind := "build"
  steps := []
  locals := ((∅ : HashMap String).insert "branch" "$(git branch)").insert "title" "${var.name}"

def branchJob : JobDef where
  kind := "build"
  steps := []
  locals := ((∅ : HashMap String).insert "branch" "${local.title}").insert "title" "x"

end Locals

end OddJobs
