import OddJobs.Daemon.EngineLoop
import OddJobs.Engine.Dispatch

/-!
# Polled items

A poll turns each waiting item into one flat object, with the id and the data side by
side.  The dispatch reads the id and the variables of the job back from it.
-/

namespace OddJobs

open Library

/-! ## Objects -/

namespace Value

theorem lookup_insertField (fields : List (String × Value)) (key other : String) (value : Value) :
    (insertField fields key value).lookup other =
      if key = other then some value else fields.lookup other := by
  induction fields with
  | nil =>
      by_cases same : key = other
      · subst same
        simp [insertField]
      · simp [insertField, List.lookup_cons, same, beq_false_of_ne (Ne.symm same)]
  | cons field rest ih =>
      rw [insertField]
      by_cases found : field.1 = key
      · rw [if_pos found]
        by_cases same : key = other
        · subst same
          simp
        · rw [List.lookup_cons, List.lookup_cons, found, beq_false_of_ne (Ne.symm same),
            if_neg same]
      · rw [if_neg found]
        split
        · by_cases same : key = other
          · subst same
            simp
          · rw [List.lookup_cons, beq_false_of_ne (Ne.symm same), if_neg same]
        · rw [List.lookup_cons, List.lookup_cons, ih]
          by_cases same : key = other
          · subst same
            simp [beq_false_of_ne (Ne.symm found)]
          · simp [same]

/-- The fields stand in the order of their names, each name once. -/
def Sorted (fields : List (String × Value)) : Prop :=
  fields.Pairwise fun left right => left.1 < right.1

theorem mem_insertField {fields : List (String × Value)} {key : String} {value : Value}
    {field : String × Value} (member : field ∈ insertField fields key value) :
    field = (key, value) ∨ field ∈ fields := by
  induction fields with
  | nil => exact .inl (List.mem_singleton.mp member)
  | cons first rest ih =>
      rw [insertField] at member
      split at member
      · rcases List.mem_cons.mp member with new | old
        · exact .inl new
        · exact .inr (List.mem_cons_of_mem first old)
      · split at member
        · rcases List.mem_cons.mp member with new | old
          · exact .inl new
          · exact .inr old
        · rcases List.mem_cons.mp member with rfl | later
          · exact .inr List.mem_cons_self
          · exact (ih later).imp_right (List.mem_cons_of_mem first)

theorem sorted_insertField {fields : List (String × Value)} (sorted : Sorted fields)
    (key : String) (value : Value) : Sorted (insertField fields key value) := by
  induction fields with
  | nil => exact List.pairwise_singleton _ _
  | cons first rest ih =>
      obtain ⟨below, later⟩ := List.pairwise_cons.mp sorted
      rw [insertField]
      by_cases found : first.1 = key
      · rw [if_pos found]
        exact List.pairwise_cons.mpr ⟨fun field member => found ▸ below field member, later⟩
      · rw [if_neg found]
        split
        · rename_i before
          refine List.pairwise_cons.mpr ⟨fun field member => ?_, sorted⟩
          rcases List.mem_cons.mp member with rfl | inRest
          · exact before
          · exact String.lt_trans before (below field inRest)
        · rename_i notBefore
          refine List.pairwise_cons.mpr ⟨fun field member => ?_, ih later⟩
          rcases mem_insertField member with rfl | inRest
          · by_contra notAfter
            exact found (String.le_antisymm (String.not_lt.mp notBefore) (String.not_lt.mp notAfter))
          · exact below field inRest

theorem lookup_of_mem {fields : List (String × Value)} (sorted : Sorted fields)
    {field : String × Value} (member : field ∈ fields) : fields.lookup field.1 = some field.2 := by
  induction fields with
  | nil => cases member
  | cons first rest ih =>
      obtain ⟨below, later⟩ := List.pairwise_cons.mp sorted
      rw [List.lookup_cons]
      rcases List.mem_cons.mp member with rfl | inRest
      · simp
      · have differs : field.1 ≠ first.1 := fun same =>
          String.lt_irrefl _ (same ▸ below field inRest)
        rw [beq_false_of_ne differs]
        exact ih later inRest

theorem mem_of_lookup {fields : List (String × Value)} {key : String} {value : Value}
    (found : fields.lookup key = some value) : (key, value) ∈ fields := by
  induction fields with
  | nil => cases found
  | cons first rest ih =>
      rw [List.lookup_cons] at found
      by_cases same : key = first.1
      · subst same
        simp only [beq_self_eq_true, Option.some.injEq] at found
        subst found
        exact List.mem_cons_self
      · rw [beq_false_of_ne same] at found
        exact List.mem_cons_of_mem first (ih found)

end Value

/-! ## The object of an item -/

namespace QueueItem

def text (item : QueueItem) (key : String) : Option String :=
  (item.data[key]?).or (if key = "id" then some item.id else none)

/-- No data stands in the place of the id, unless it is the id. -/
def IdKept (item : QueueItem) : Prop :=
  ∀ value, item.data["id"]? = some value → value = item.id

theorem text_data {item : QueueItem} {key value : String}
    (stored : item.data[key]? = some value) : item.text key = some value := by
  rw [text, stored]
  rfl

variable (order : WalkOrder) (item : QueueItem)

theorem sorted_fields : Value.Sorted (item.fields order) := by
  have puts : ∀ (keys : List String) (fields : List (String × Value)), Value.Sorted fields →
      Value.Sorted (keys.foldl (fun fields key =>
        Value.insertField fields key (.string ((item.data[key]?).getD ""))) fields) := by
    intro keys
    induction keys with
    | nil => exact fun fields sorted => sorted
    | cons key rest ih => exact fun fields sorted => ih _ (Value.sorted_insertField sorted _ _)
  exact puts _ _ (List.pairwise_singleton _ _)

theorem lookup_fields (key : String) :
    (item.fields order).lookup key = (item.text key).map Value.string := by
  have puts : ∀ (keys : List String) (fields : List (String × Value)),
      (keys.foldl (fun fields key =>
        Value.insertField fields key (.string ((item.data[key]?).getD ""))) fields).lookup key =
        if key ∈ keys then some (.string ((item.data[key]?).getD "")) else fields.lookup key := by
    intro keys
    induction keys with
    | nil => simp
    | cons first rest ih =>
        intro fields
        rw [List.foldl_cons, ih, Value.lookup_insertField]
        by_cases later : key ∈ rest
        · rw [if_pos later, if_pos (List.mem_cons_of_mem first later)]
        · rw [if_neg later]
          by_cases same : first = key
          · subst same
            rw [if_pos rfl, if_pos List.mem_cons_self]
          · rw [if_neg same, if_neg]
            intro member
            rcases List.mem_cons.mp member with found | found
            · exact same found.symm
            · exact later found
  have walked : key ∈ order.walk item.data.keys ↔ (item.data[key]?).isSome = true := by
    rw [Library.WalkOrder.mem_walk, Std.ExtTreeMap.mem_keys,
      Std.ExtTreeMap.mem_iff_isSome_getElem?]
  rw [fields, puts, text]
  cases stored : item.data[key]? with
  | some value =>
      rw [stored] at walked
      rw [if_pos (walked.mpr rfl)]
      rfl
  | none =>
      rw [stored] at walked
      have absent : key ∉ order.walk item.data.keys := fun member => nomatch walked.mp member
      rw [if_neg absent, List.lookup_cons]
      by_cases isId : key = "id"
      · subst isId
        rfl
      · rw [beq_false_of_ne isId, if_neg isId]
        rfl

/-- The id that a dispatch reads is the data under `id`, where there is any. -/
theorem itemIdOf_polled : itemIdOf (item.polled order) = (item.data["id"]?).getD item.id := by
  unfold itemIdOf polled Value.get
  dsimp only
  rw [lookup_fields, text]
  cases item.data["id"]? with
  | some value => rfl
  | none => rfl

theorem itemIdOf_polled_iff : itemIdOf (item.polled order) = item.id ↔ item.IdKept := by
  rw [itemIdOf_polled, IdKept]
  cases item.data["id"]? with
  | some value => simp
  | none => simp

end QueueItem

/-! ## The variables of the job -/

def SetBy (first : Option String) (variable_ name : String) : Prop :=
  "item." ++ name = variable_ ∨ ∃ scope, first = some scope ∧ scope ++ "." ++ name = variable_

/-- Put a field under `item.` and under the first variable of the job. -/
def putField (first : Option String) (input : HashMap String) (field : String × String) :
    HashMap String :=
  let input := input.insert ("item." ++ field.1) field.2
  match first with
  | some first => input.insert (first ++ "." ++ field.1) field.2
  | none => input

theorem jobInput_eq (outside : Outside) (jobDef : JobDef) (cwd : PathBuf) (item : Value) :
    Handler.jobInput outside jobDef cwd item =
      (Handler.itemFields outside item).foldl (putField jobDef.vars.head?)
        ((∅ : HashMap String).insert "invoke.dir" cwd) := rfl

section Fill

variable {first : Option String} {key : String}

theorem putField_set (input : HashMap String) {field : String × String}
    (sets : SetBy first key field.1) : (putField first input field)[key]? = some field.2 := by
  unfold putField
  cases first with
  | none =>
      rcases sets with rfl | ⟨scope, chosen, _⟩
      · exact (Table.lookup_insert _ _ _ _).trans (if_pos rfl)
      · cases chosen
  | some scope =>
      dsimp only
      rw [Table.lookup_insert]
      split
      · rfl
      · rename_i other
        rcases sets with rfl | ⟨_, chosen, same⟩
        · exact (Table.lookup_insert _ _ _ _).trans (if_pos rfl)
        · cases chosen
          exact absurd same other

theorem putField_unset (input : HashMap String) {field : String × String}
    (unset : ¬SetBy first key field.1) : (putField first input field)[key]? = input[key]? := by
  unfold putField
  cases first with
  | none => exact (Table.lookup_insert _ _ _ _).trans (if_neg fun same => unset (.inl same))
  | some scope =>
      dsimp only
      rw [Table.lookup_insert, if_neg fun same => unset (.inr ⟨scope, rfl, same⟩),
        Table.lookup_insert, if_neg fun same => unset (.inl same)]

/-- What is set keeps its value when every later field that sets it has that value. -/
theorem putFields_keep {fields : List (String × String)} {input : HashMap String} {value : String}
    (set : input[key]? = some value)
    (same : ∀ field ∈ fields, SetBy first key field.1 → field.2 = value) :
    (fields.foldl (putField first) input)[key]? = some value := by
  induction fields generalizing input with
  | nil => exact set
  | cons field rest ih =>
      refine ih ?_ fun later member => same later (List.mem_cons_of_mem field member)
      rcases Classical.em (SetBy first key field.1) with sets | unset
      · rw [putField_set input sets, same field List.mem_cons_self sets]
      · rw [putField_unset input unset, set]

/-- The last field that sets a variable decides it. -/
theorem putFields_last {fields : List (String × String)} (input : HashMap String)
    {last : String × String} (sorted : fields.Pairwise fun left right => left.1 < right.1)
    (member : last ∈ fields) (sets : SetBy first key last.1)
    (same : ∀ field ∈ fields, last.1 < field.1 → SetBy first key field.1 → field.2 = last.2) :
    (fields.foldl (putField first) input)[key]? = some last.2 := by
  induction fields generalizing input with
  | nil => cases member
  | cons field rest ih =>
      obtain ⟨below, later⟩ := List.pairwise_cons.mp sorted
      rcases List.mem_cons.mp member with rfl | inRest
      · rw [List.foldl_cons]
        refine putFields_keep (putField_set input sets) fun other present => ?_
        exact same other (List.mem_cons_of_mem _ present) (below other present)
      · exact ih _ later inRest fun other present =>
          same other (List.mem_cons_of_mem field present)

end Fill

namespace QueueItem

variable (item : QueueItem)

/-- No field of the item is put over another one, with the first variable of the job
as its scope. -/
def DataKept (jobDef : JobDef) : Prop :=
  ∀ scope key value other text, jobDef.vars.head? = some scope → item.data[key]? = some value →
    item.text other = some text → key < other → scope ++ "." ++ other = "item." ++ key →
      text = value

def Carried (outside : Outside) (jobDef : JobDef) : Prop :=
  ∀ cwd key value, item.data[key]? = some value →
    (Handler.jobInput outside jobDef cwd (item.polled outside.order))["item." ++ key]? = some value

theorem itemFields_polled (outside : Outside) :
    Handler.itemFields outside (item.polled outside.order) =
      (item.fields outside.order).map fun field =>
        (field.1, (field.2.asStr).getD (outside.renderValue field.2)) := rfl

theorem mem_itemFields {outside : Outside} {field : String × String} :
    field ∈ Handler.itemFields outside (item.polled outside.order) ↔
      item.text field.1 = some field.2 := by
  rw [itemFields_polled, List.mem_map]
  have looked := lookup_fields outside.order item field.1
  constructor
  · rintro ⟨⟨key, value⟩, member, rfl⟩
    have found := Value.lookup_of_mem (sorted_fields outside.order item) member
    dsimp only at looked found ⊢
    rw [looked] at found
    obtain ⟨text, stored, rfl⟩ := Option.map_eq_some_iff.mp found
    exact stored
  · intro stored
    rw [stored] at looked
    exact ⟨(field.1, .string field.2), Value.mem_of_lookup looked, rfl⟩

theorem sorted_itemFields (outside : Outside) :
    (Handler.itemFields outside (item.polled outside.order)).Pairwise
      fun left right => left.1 < right.1 := by
  rw [itemFields_polled, List.pairwise_map]
  exact sorted_fields outside.order item

theorem carried_iff (outside : Outside) (jobDef : JobDef) :
    item.Carried outside jobDef ↔ item.DataKept jobDef := by
  have sorted := item.sorted_itemFields outside
  constructor
  · intro carried scope key value other text chosen stored told later clash
    have final := carried "" key value stored
    rw [jobInput_eq, chosen] at final
    have last : ((Handler.itemFields outside (item.polled outside.order)).foldl
        (putField (some scope)) ((∅ : HashMap String).insert "invoke.dir" ""))["item." ++ key]? =
        some text := by
      refine @putFields_last (some scope) ("item." ++ key) _ _ (other, text) sorted
        (item.mem_itemFields.mpr told) (.inr ⟨scope, rfl, clash⟩) fun field _ after sets => ?_
      -- nothing else sets the variable
      rcases sets with same | ⟨_, chosen', same⟩
      · have isKey : field.1 = key := String.append_right_inj _ |>.mp same
        exact absurd (String.lt_trans later (isKey ▸ after)) (String.lt_irrefl _)
      · cases chosen'
        have isOther : field.1 = other := String.append_right_inj _ |>.mp (same.trans clash.symm)
        exact absurd (isOther ▸ after) (String.lt_irrefl _)
    rw [last] at final
    exact Option.some.inj final
  · intro kept cwd key value stored
    rw [jobInput_eq]
    refine @putFields_last jobDef.vars.head? ("item." ++ key) _ _ (key, value) sorted
      (item.mem_itemFields.mpr (text_data stored)) (.inl rfl) fun field member after sets => ?_
    rcases sets with same | ⟨scope, chosen, same⟩
    · have isKey : field.1 = key := String.append_right_inj _ |>.mp same
      exact absurd (isKey ▸ after) (String.lt_irrefl _)
    · exact kept scope key value field.1 field.2 chosen stored (item.mem_itemFields.mp member) after
        same

end QueueItem

/-! ## The variables that are recorded -/

theorem ne_item {name : String} (start : name.toList.head? ≠ some 'i') (key : String) :
    name ≠ "item." ++ key := by
  rintro rfl
  rw [String.toList_append] at start
  exact start rfl

theorem hasScopePrefix_item (key : String) : hasScopePrefix ("item." ++ key) = true := by
  rw [hasScopePrefix, List.any_eq_true]
  refine ⟨"item.", by decide, ?_⟩
  rw [String.toList_append, List.isPrefixOf_iff_prefix]
  exact List.prefix_append _ _

/-- Variables of an item keep their names and values. -/
theorem lookup_namespaceVars (order : WalkOrder) (vars : HashMap String) (key : String) :
    (namespaceVars order vars)["item." ++ key]? = vars["item." ++ key]? := by
  have puts : ∀ (names : List String) (table : HashMap String),
      (names.foldl (fun table name => table.insert
        (if hasScopePrefix name then name else "var." ++ name) ((vars[name]?).getD ""))
          table)["item." ++ key]? =
        if "item." ++ key ∈ names then some ((vars["item." ++ key]?).getD "")
        else table["item." ++ key]? := by
    intro names
    induction names with
    | nil => simp
    | cons name rest ih =>
        intro table
        rw [List.foldl_cons, ih, Table.lookup_insert]
        by_cases later : "item." ++ key ∈ rest
        · rw [if_pos later, if_pos (List.mem_cons_of_mem name later)]
        · rw [if_neg later]
          by_cases same : name = "item." ++ key
          · subst same
            rw [if_pos (if_pos (hasScopePrefix_item key)), if_pos List.mem_cons_self]
          · rw [if_neg, if_neg]
            · intro member
              rcases List.mem_cons.mp member with found | found
              · exact same found.symm
              · exact later found
            · split
              · exact same
              · refine ne_item ?_ key
                rw [String.toList_append]
                exact fun clash => nomatch clash
  rw [namespaceVars, puts]
  have walked : "item." ++ key ∈ order.walk vars.keys ↔
      (vars["item." ++ key]?).isSome = true := by
    rw [Library.WalkOrder.mem_walk, Std.ExtTreeMap.mem_keys,
      Std.ExtTreeMap.mem_iff_isSome_getElem?]
  cases stored : vars["item." ++ key]? with
  | some value =>
      rw [stored] at walked
      rw [if_pos (walked.mpr rfl)]
      rfl
  | none =>
      rw [stored] at walked
      have absent : "item." ++ key ∉ order.walk vars.keys := fun member =>
        nomatch walked.mp member
      rw [if_neg absent, Table.lookup_empty]

section Prepared

variable {outside : Outside} {params : CreateJobParams} {before after : Runtime} {key : String}

theorem lookup_placeJob (jobDef : JobDef) (jobName : String) :
    (Handler.placeJob outside params jobDef jobName).vars["item." ++ key]? =
      params.vars["item." ++ key]? := by
  unfold Handler.placeJob
  split
  · rfl
  · rfl
  · dsimp only
    rw [Table.lookup_insert, if_neg (ne_item (by decide) key), Table.lookup_insert,
      if_neg (ne_item (by decide) key), Table.lookup_insert, if_neg (ne_item (by decide) key)]

theorem lookup_worktreeVars {workspace : Option WorkspaceConfig} {vars result : HashMap String}
    (ran : Handler.worktreeVars outside params workspace vars before = (.ok result, after)) :
    result["item." ++ key]? = vars["item." ++ key]? := by
  unfold Handler.worktreeVars at ran
  dsimp only at ran
  split at ran
  · split at ran
    · cases ran
      rw [Table.lookup_insert, if_neg (ne_item (by decide) key)]
    · split at ran
      · obtain ⟨value, middle, _, later⟩ := Program.bind_eq_ok.mp ran
        cases later
        rw [Table.lookup_insert, if_neg (ne_item (by decide) key), Table.lookup_insert,
          if_neg (ne_item (by decide) key)]
      · cases ran
        rw [Table.lookup_insert, if_neg (ne_item (by decide) key), Table.lookup_insert,
          if_neg (ne_item (by decide) key)]
  · cases ran
    rfl

theorem lookup_evaluateLocals {locals : HashMap String} {names : List String}
    {lookup vars result : HashMap String}
    (ran : Handler.evaluateLocals outside locals names lookup vars before = (.ok result, after)) :
    result["item." ++ key]? = vars["item." ++ key]? := by
  induction names generalizing lookup vars before with
  | nil =>
      cases ran
      rfl
  | cons name rest ih =>
      obtain ⟨value, middle, _, later⟩ := Program.bind_eq_ok.mp ran
      rw [ih later, Table.lookup_insert, if_neg (ne_item ?_ key)]
      rw [String.toList_append]
      exact fun clash => nomatch clash

/-- What a job knows of its item is not changed while the job is prepared. -/
theorem lookup_prepareJob {prepared : Handler.PreparedJob}
    (ran : Handler.prepareJob outside params before = (.ok prepared, after)) :
    prepared.vars["item." ++ key]? = params.vars["item." ++ key]? := by
  obtain ⟨jobDef, defined, _, ran⟩ := Program.bind_eq_ok.mp ran
  obtain ⟨placed, onTree, worktree, ran⟩ := Program.bind_eq_ok.mp ran
  obtain ⟨vars, evaluated, locals, ran⟩ := Program.bind_eq_ok.mp ran
  obtain ⟨effects, _, _, ran⟩ := Program.bind_eq_ok.mp ran
  cases ran
  exact (lookup_evaluateLocals locals).trans ((lookup_worktreeVars worktree).trans
    (lookup_placeJob jobDef _))

end Prepared

/-! ## Handled as an item -/

/-- A polled entry is handled as the item that it was made of. -/
structure HandledAs (outside : Outside) (item : QueueItem) (jobDef : JobDef) : Prop where
  /-- When the entry has its turn and the item waits, the item is taken. -/
  taken : ∀ workerName queueName ns slots rest runtime,
    runtime.itemStatus (scopedName ns queueName) item.id = some .pending →
      (Handler.dispatchItems outside workerName queueName ns (slots + 1)
          (item.polled outside.order :: rest) runtime).2 =
        match Handler.dispatchQueueItem outside workerName (item.polled outside.order)
          (runtime.emitting outside.order (.queueTaken queueName item.id workerName ns)) with
        | (.ok _, after) =>
            (Handler.dispatchItems outside workerName queueName ns slots rest after).2
        | (.error _, after) => after
  /-- Once the item no longer waits, the entry is passed over. -/
  passed : ∀ workerName queueName ns slots rest runtime,
    ¬runtime.itemStatus (scopedName ns queueName) item.id = some .pending →
      Handler.dispatchItems outside workerName queueName ns (slots + 1)
          (item.polled outside.order :: rest) runtime =
        Handler.dispatchItems outside workerName queueName ns (slots + 1) rest runtime
  /-- No other item is taken in its place. -/
  others : ∀ workerName queueName ns slots runtime, FreshIds runtime →
    ∀ key other, (scopedName ns queueName, item.id) ≠ (key, other) →
      (Handler.dispatchItems outside workerName queueName ns slots [item.polled outside.order]
          runtime).2.itemStatus key other = runtime.itemStatus key other
  /-- The new job is recorded as the job of the item. -/
  tracked : ∀ workerName turn state events after, FreshIds turn →
    turn.workerStates[workerName]? = some state → state.status ≠ .stopped →
      Handler.dispatchQueueItem outside workerName (item.polled outside.order) turn =
        (.ok events, after) →
      (after.workerStates[workerName]?).bind (fun worker =>
        worker.itemJobMap[(turn.readings 0).uuid]?) = some item.id
  /-- The input of the job carries the data. -/
  carried : item.Carried outside jobDef
  /-- What the input carries is recorded with the job. -/
  recorded : ∀ state uuid runbook ready prepared after,
    Handler.prepareJob outside (dispatchParams outside state uuid runbook jobDef
        (item.polled outside.order)) ready = (.ok prepared, after) →
      ∀ key : String, (namespaceVars outside.order prepared.vars)["item." ++ key]? =
        (Handler.jobInput outside jobDef state.projectRoot
          (item.polled outside.order))["item." ++ key]?

section Handled

variable {outside : Outside} {item : QueueItem} {jobDef : JobDef} {workerName queueName ns : String}

/-- A dispatch changes the status of the item that the entry names, and of no other. -/
theorem dispatchItems_others {entry : Value} {runtime : Runtime} (fresh : FreshIds runtime)
    (slots : Nat) (key other : String)
    (elsewhere : (scopedName ns queueName, itemIdOf entry) ≠ (key, other)) :
    (Handler.dispatchItems outside workerName queueName ns slots [entry] runtime).2.itemStatus
      key other = runtime.itemStatus key other := by
  cases slots with
  | zero => rfl
  | succ slots =>
      rcases Decidable.em (runtime.itemStatus (scopedName ns queueName) (itemIdOf entry) =
        some .pending) with waits | busy
      · have oneItem := (@dispatchQueueItem_ends outside workerName entry _
          (@freshIds_taken workerName queueName ns runtime fresh outside.order
            (itemIdOf entry))).1
        have status : (Handler.dispatchQueueItem outside workerName entry
            (runtime.emitting outside.order
              (.queueTaken queueName (itemIdOf entry) workerName ns))).2.itemStatus key other =
            runtime.itemStatus key other := by
          have unmarked : (Event.queueTaken queueName (itemIdOf entry) workerName ns).itemMark key
              other = none := if_neg elsewhere
          have kept := itemStatus_unmarked unmarked outside.order runtime
          unfold Runtime.itemStatus MaterializedState.queueItem at kept ⊢
          rw [oneItem.queueItems]
          exact kept
        rw [dispatchItems_take waits]
        cases ran : Handler.dispatchQueueItem outside workerName entry (runtime.emitting
          outside.order (.queueTaken queueName (itemIdOf entry) workerName ns)) with
        | mk result after =>
            rw [ran] at status
            cases result with
            | error error => exact status
            | ok dispatched => cases slots <;> exact status
      · rw [dispatchItems_skip busy]
        rfl

/-- A dispatch that returns has tracked the new job as the job of the item. -/
theorem dispatchQueueItem_tracked {entry : Value} {turn after : Runtime} {state : WorkerState}
    {events : List Event} (fresh : FreshIds turn)
    (found : turn.workerStates[workerName]? = some state) (running : state.status ≠ .stopped)
    (ran : Handler.dispatchQueueItem outside workerName entry turn = (.ok events, after)) :
    (after.workerStates[workerName]?).bind (fun worker =>
      worker.itemJobMap[(turn.readings 0).uuid]?) = some (itemIdOf entry) := by
  rcases @dispatchQueueItem_run outside workerName entry turn with ⟨aside, never⟩ |
    ⟨state', runbook, jobDef, looked, dispatches, aside, shifted, known, goesOn⟩
  · obtain ⟨_, _, same, ran⟩ := Program.bind_eq_ok.mp ran
    cases same
    dsimp only at ran
    rw [found] at ran
    dsimp only at ran
    rw [if_neg running] at ran
    obtain ⟨_, _, same, ran⟩ := Program.bind_eq_ok.mp ran
    cases same
    obtain ⟨runbook, looked, readable, ran⟩ := Program.bind_eq_ok.mp ran
    obtain ⟨jobDef, _, defined, _⟩ := Program.bind_eq_ok.mp ran
    cases has : runbook.getJob state.jobKind with
    | none =>
        rw [has] at defined
        cases defined
    | some jobDef => exact absurd ⟨found, running, readable, has⟩ (never _ _ _ _)
  · obtain ⟨present, _⟩ := dispatches
    rw [found] at present
    cases present
    rw [goesOn] at ran
    obtain ⟨created, middle, creates, ran⟩ := Program.bind_eq_ok.mp ran
    have free : looked.world.state.getJob (turn.readings 0).uuid = none := by
      rw [aside.state]
      exact fresh.free 0
    have untracked : Untracked (turn.readings 0).uuid looked.workerStates := by
      rw [aside.workers]
      exact fresh.workers 0
    obtain ⟨_, _, elsewhere⟩ := @createAndStartJob_ends outside
      (dispatchParams outside state (turn.readings 0).uuid runbook jobDef entry) looked free rfl
      known untracked
    rw [creates] at elsewhere
    have foundThen : middle.workerStates[workerName]? = some state := by
      rw [elsewhere.workers, aside.workers]
      exact found
    cases ran
    change ((middle.workerStates.modify workerName _)[workerName]?).bind _ = _
    rw [Table.lookup_modify, if_pos rfl, foundThen, Option.map_some, Option.bind_some]
    exact (Table.lookup_insert _ _ _ _).trans (if_pos rfl)

theorem handledAs_of_kept (idKept : item.IdKept) (dataKept : item.DataKept jobDef) :
    HandledAs outside item jobDef := by
  have named : itemIdOf (item.polled outside.order) = item.id :=
    (item.itemIdOf_polled_iff outside.order).mpr idKept
  constructor
  case taken =>
    intro workerName queueName ns slots rest runtime waits
    have took := @dispatchItems_take outside workerName queueName ns (item.polled outside.order)
      runtime (named.symm ▸ waits) slots rest
    rw [named] at took
    exact took
  case passed =>
    intro workerName queueName ns slots rest runtime busy
    exact dispatchItems_skip (named.symm ▸ busy) slots rest
  case others =>
    intro workerName queueName ns slots runtime fresh key other elsewhere
    exact dispatchItems_others fresh slots key other (named.symm ▸ elsewhere)
  case tracked =>
    intro workerName turn state events after fresh found running ran
    exact (dispatchQueueItem_tracked fresh found running ran).trans (congrArg some named)
  case carried => exact (item.carried_iff outside jobDef).mpr dataKept
  case recorded =>
    intro state uuid runbook ready prepared after ran key
    rw [lookup_namespaceVars]
    exact lookup_prepareJob ran

def Runtime.onlyItem (item : QueueItem) : Runtime :=
  Runtime.idle .shop { ({} : MaterializedState) with
    queueItems := (∅ : HashMap (List QueueItem)).insert (scopedName "" "parts")
      [{ item with status := .pending }] }

theorem itemStatus_onlyItem (other : String) :
    (Runtime.onlyItem item).itemStatus (scopedName "" "parts") other =
      if item.id = other then some .pending else none := by
  unfold Runtime.itemStatus MaterializedState.queueItem
  change (((((∅ : HashMap (List QueueItem)).insert _ _)[_]?).bind _).map _) = _
  rw [Table.lookup_insert, if_pos rfl, Option.bind_some, List.find?_cons]
  by_cases same : item.id = other
  · rw [if_pos same, decide_eq_true same]
    rfl
  · rw [if_neg same, decide_eq_false same]
    rfl

/-- If the entry leads to the item being taken, it names the item. -/
theorem HandledAs.idKept (handled : HandledAs outside item jobDef) : item.IdKept := by
  rw [← item.itemIdOf_polled_iff outside.order]
  by_contra named
  have waits : (Runtime.onlyItem item).itemStatus (scopedName "" "parts") item.id =
      some .pending := by
    rw [itemStatus_onlyItem, if_pos rfl]
  have busy : ¬(Runtime.onlyItem item).itemStatus (scopedName "" "parts")
      (itemIdOf (item.polled outside.order)) = some .pending := by
    rw [itemStatus_onlyItem, if_neg (Ne.symm named)]
    exact fun clash => nomatch clash
  have taken := handled.taken "joiner" "parts" "" 0 [] _ waits
  have status := congrArg (fun runtime : Runtime =>
    runtime.itemStatus (scopedName "" "parts") item.id) taken
  rw [dispatchItems_skip busy] at status
  -- no worker is known, so that nothing follows once the item is taken
  have active := @itemStatus_taken "joiner" "parts" "" outside.order item.id item.id
    (Runtime.onlyItem item)
  rw [if_pos rfl, waits] at active
  have both := (waits.symm.trans status).trans active
  cases both

end Handled

/-- A polled item keeps its identity exactly if no data stands in the place of its id
and no field is put over another one. -/
theorem handledAs_iff (outside : Outside) (item : QueueItem) (jobDef : JobDef) :
    HandledAs outside item jobDef ↔ item.IdKept ∧ item.DataKept jobDef := by
  constructor
  · intro handled
    exact ⟨handled.idKept, (item.carried_iff outside jobDef).mp handled.carried⟩
  · rintro ⟨idKept, dataKept⟩
    exact handledAs_of_kept idKept dataKept

def QueueItem.posing : QueueItem where
  id := "first"
  queueName := "parts"
  data := (∅ : HashMap String).insert "id" "second"
  status := .pending
  workerName := none
  pushedAtEpochMs := 0
  failureCount := 0

def Runbook.roomy : Runbook :=
  { Runbook.shop with workers := (∅ : HashMap WorkerDef).insert "joiner" {
      queue := "parts", job := "build", concurrency := 2 } }

def Daemon.posing : Daemon where
  runtime := Runtime.idle .roomy {}
  log := [.runbookLoaded "hash" 1 .null,
    .queuePushed "parts" "first" QueueItem.posing.data 0 "", .queuePushed "parts" "second" ∅ 1 "",
    .workerStarted "joiner" "/" "hash" "parts" 2 ""]

/-- The other item is taken in its place.  The item itself waits, although a slot is free
and nothing is left to be processed. -/
theorem posing_item_waits :
    let daemon := Daemon.posing.steps (.plain .roomy) .silent 10
    ¬HandledAs (.plain .roomy) .posing { kind := "build", steps := [] } ∧
      daemon.runtime.itemStatus "parts" "first" = some .pending ∧
      daemon.runtime.itemStatus "parts" "second" = some .active ∧
      (daemon.runtime.workerStates["joiner"]?).map (·.available) = some 1 ∧
      daemon.log.isEmpty = true := by
  intro daemon
  refine ⟨?_, ?_, ?_, ?_, ?_⟩
  · intro handled
    have told : QueueItem.posing.data["id"]? = some "second" :=
      (Table.lookup_insert _ _ _ _).trans (if_pos rfl)
    have clash : "second" = "first" := handled.idKept "second" told
    exact absurd clash (by decide)
  · decide +kernel
  · decide +kernel
  · decide +kernel
  · decide +kernel

end OddJobs
