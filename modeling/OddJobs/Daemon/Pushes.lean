import OddJobs.Daemon.EngineLoop
import OddJobs.Storage.Items

/-!
# Pushes under way

A push is compared with the items that are open, and recorded only when the engine
processes its event.  Requests, the engine and retries go on meanwhile.
-/

namespace OddJobs

open Library

/-! ## The check of a push -/

/-- The data of a push: its fields as texts, and defaults for those it leaves out. -/
def pushData (outside : Outside) (queueDef : QueueDef) (fields : List (String × Value)) :
    HashMap String :=
  let given : HashMap String := fields.foldl (fun data field =>
    data.insert field.1 ((field.2.asStr).getD (outside.renderValue field.2))) ∅
  (outside.order.walk queueDef.defaults.keys).foldl (fun data key =>
    if data.contains key then data
    else data.insert key ((queueDef.defaults[key]?).getD "")) given

def missingFields (queueDef : QueueDef) (fields : List (String × Value)) : List String :=
  queueDef.vars.filter fun name =>
    !(fields.any (·.1 == name)) && !(queueDef.defaults.contains name)

def MaterializedState.sameItem (state : MaterializedState) (key : String)
    (data : HashMap String) : Option QueueItem :=
  (state.itemsOf key).find? fun item => item.isOpen && item.data == data

inductive PushOutcome where
  | error (message : String)
  /-- The queue is an external one, and its workers are woken. -/
  | wakes
  | existing (itemId : String)
  | new

def MaterializedState.handleQueuePush (state : MaterializedState) (outside : Outside)
    (runbook : Runbook) (queueName ns : String) (data : Value) : PushOutcome :=
  match runbook.getQueue queueName with
  | none => .error ("unknown queue: " ++ queueName)
  | some queueDef =>
      if queueDef.queueType ≠ .persisted then .wakes
      else
        match data.asObject with
        | none => .error "data must be a JSON object"
        | some fields =>
            if !(missingFields queueDef fields).isEmpty then
              .error ("missing required fields: " ++
                String.intercalate ", " (missingFields queueDef fields))
            else
              match state.sameItem (scopedName ns queueName) (pushData outside queueDef fields) with
              | some item => .existing item.id
              | none => .new

def requestedData (outside : Outside) (runbook : Runbook) (queueName : String) (data : Value) :
    HashMap String :=
  pushData outside ((runbook.getQueue queueName).getD {}) (data.asObject.getD [])

section Check

variable {outside : Outside} {runbook : Runbook} {queueName ns : String} {data : Value}
  {state : MaterializedState}

/-- What is found instead of a new item is open and has the data that is asked for. -/
theorem handleQueuePush_existing {itemId : String}
    (found : state.handleQueuePush outside runbook queueName ns data = .existing itemId) :
    ∃ item ∈ state.itemsOf (scopedName ns queueName), item.id = itemId ∧
      item.data = requestedData outside runbook queueName data := by
  unfold MaterializedState.handleQueuePush at found
  split at found
  · cases found
  · rename_i queueDef known
    split at found
    · cases found
    · split at found
      · cases found
      · rename_i fields isObject
        split at found
        · cases found
        · split at found
          · rename_i item same
            cases found
            have passes := List.find?_some same
            obtain ⟨_, equal⟩ := Bool.and_eq_true_iff.mp passes
            refine ⟨item, List.mem_of_find?_eq_some same, rfl, ?_⟩
            unfold requestedData
            rw [known, isObject]
            exact eq_of_beq equal
          · cases found

/-- A push that is new has data that no open item has. -/
theorem handleQueuePush_new
    (new : state.handleQueuePush outside runbook queueName ns data = .new) :
    ∀ item ∈ state.itemsOf (scopedName ns queueName), item.isOpen = true →
      item.data ≠ requestedData outside runbook queueName data := by
  unfold MaterializedState.handleQueuePush at new
  split at new
  · cases new
  · rename_i queueDef known
    split at new
    · cases new
    · split at new
      · cases new
      · rename_i fields isObject
        split at new
        · cases new
        · split at new
          · cases new
          · rename_i absent
            intro item member isOpen same
            have fails := List.find?_eq_none.mp absent item member
            unfold requestedData at same
            rw [known, isObject] at same
            refine fails ?_
            rw [isOpen, Bool.true_and]
            exact beq_iff_eq.mpr same

end Check

/-! ## Pushes and the log -/

structure Pushed where
  key : String
  itemId : String
  data : HashMap String

def Event.pushed? : Event → Option Pushed
  | queuePushed queueName itemId data _ ns => some ⟨scopedName ns queueName, itemId, data⟩
  | _ => none

/-- The state, the events of pushes that are about to be sent, and the entries of the log
that are not processed yet.  The other fields record what has happened. -/
structure PushRun where
  state : MaterializedState := {}
  sending : List Event := []
  log : List Event := []
  /-- How many ids have been drawn. -/
  drawn : Nat := 0
  /-- The pushes that have reached the log. -/
  sent : List Pushed := []
  /-- The answers: which item, for which data. -/
  answered : List Pushed := []

/-- What can happen next.  Only requests push items; the engine and other requests apply
and log everything else at any time. -/
inductive PushMove where
  | push (runbook : Runbook) (queueName ns : String) (data : Value) (nowMs : Nat)
  | send (n : Nat)
  | fail (n : Nat)
  | process (order : WalkOrder) (clock : Clock)
  | apply (order : WalkOrder) (clock : Clock) (event : Event) (made : event.pushed? = none)
  | append (event : Event) (made : event.pushed? = none)
  | clean (id : WorkspaceId)

namespace PushRun

variable (outside : Outside) (uuids : Nat → String)

def push (runbook : Runbook) (queueName ns : String) (data : Value) (nowMs : Nat)
    (run : PushRun) : PushRun :=
  let asked := requestedData outside runbook queueName data
  match run.state.handleQueuePush outside runbook queueName ns data with
  | .error _ => run
  | .wakes => run
  | .existing itemId =>
      { run with answered := run.answered ++ [⟨scopedName ns queueName, itemId, asked⟩] }
  | .new =>
      { run with
        sending := run.sending ++ [.queuePushed queueName (uuids run.drawn) asked nowMs ns]
        drawn := run.drawn + 1 }

def send (n : Nat) (run : PushRun) : PushRun :=
  match run.sending[n]? with
  | none => run
  | some event =>
      { run with
        sending := run.sending.eraseIdx n
        log := run.log ++ [event]
        sent := run.sent ++ event.pushed?.toList
        answered := run.answered ++ event.pushed?.toList }

def process (order : WalkOrder) (clock : Clock) (run : PushRun) : PushRun :=
  match run.log with
  | [] => run
  | event :: rest =>
      { run with state := run.state.applyEvent order clock event, log := rest }

def next (run : PushRun) : PushMove → PushRun
  | .push runbook queueName ns data nowMs => run.push outside uuids runbook queueName ns data nowMs
  | .send n => run.send n
  | .fail n => { run with sending := run.sending.eraseIdx n }
  | .process order clock => run.process order clock
  | .apply order clock event _ => { run with state := run.state.applyEvent order clock event }
  | .append event _ => { run with log := run.log ++ [event] }
  | .clean id => { run with state := run.state.updateWorkspace id .cleaning }

def inFlight (run : PushRun) : List Pushed := (run.sending ++ run.log).filterMap Event.pushed?

/-- No item is brought back while another one with its data is open or in flight. -/
def Unrevived (run : PushRun) (event : Event) : Prop :=
  ∀ key itemId next, event.itemMark? = some ((key, itemId), .move next) → next.opens = true →
    ∀ item ∈ run.state.itemsOf key, item.id = itemId → item.isOpen = false →
      (∀ other ∈ run.state.itemsOf key, other.isOpen = true → other.data ≠ item.data) ∧
      ∀ pushed ∈ run.inFlight, pushed.key = key → pushed.data ≠ item.data

/-- Whether a move keeps items with equal data apart. -/
def Apart (run : PushRun) : PushMove → Prop
  | .push runbook queueName ns data _ =>
      run.state.handleQueuePush outside runbook queueName ns data = .new →
        ∀ pushed ∈ run.inFlight, pushed.key = scopedName ns queueName →
          pushed.data ≠ requestedData outside runbook queueName data
  | .process _ _ => ∀ event ∈ run.log.head?, run.Unrevived event
  | .apply _ _ event _ => run.Unrevived event
  | _ => True

/-- Every move of a run keeps items with equal data apart. -/
def AllApart : PushRun → List PushMove → Prop
  | _, [] => True
  | run, move :: rest => run.Apart outside move ∧ AllApart (run.next outside uuids move) rest

/-- Pushes in flight differ from each other and from the open items. -/
structure Awaited (drawn : Nat) (state : MaterializedState) (flight : List Pushed) : Prop where
  data : (flight.map fun pushed => (pushed.key, pushed.data)).Nodup
  ids : (flight.map (·.itemId)).Nodup
  drawn : ∀ pushed ∈ flight, ∃ n < drawn, pushed.itemId = uuids n
  new : ∀ pushed ∈ flight, ∀ item ∈ state.itemsOf pushed.key,
    item.id ≠ pushed.itemId ∧ (item.isOpen = true → item.data ≠ pushed.data)

/-- Open items of a queue have different data. -/
def Single (items : List QueueItem) : Prop :=
  ∀ first ∈ items, ∀ second ∈ items, first.isOpen = true → second.isOpen = true →
    first.data = second.data → first.id = second.id

/-- What holds of every run whose moves keep items with equal data apart. -/
structure Deduplicated (run : PushRun) : Prop where
  distinct : ∀ key, Distinct (run.state.itemsOf key)
  single : ∀ key, Single (run.state.itemsOf key)
  awaited : Awaited uuids run.drawn run.state run.inFlight
  sent : ∀ pushed ∈ run.sent, ∃ n < run.drawn, pushed.itemId = uuids n
  unique : ∀ first ∈ run.sent, ∀ second ∈ run.sent, first.itemId = second.itemId → first = second
  unsent : ∀ pushed ∈ run.sending.filterMap Event.pushed?, ∀ other ∈ run.sent,
    other.itemId ≠ pushed.itemId
  logged : run.log.filterMap Event.pushed? ⊆ run.sent
  items : ∀ key, ∀ item ∈ run.state.itemsOf key, ⟨key, item.id, item.data⟩ ∈ run.sent
  answered : run.answered ⊆ run.sent

namespace Awaited

variable {uuids : Nat → String} {drawn : Nat} {state after : MaterializedState}
  {flight rest : List Pushed}

theorem subperm (awaited : Awaited uuids drawn state flight) (fewer : List.Subperm rest flight) :
    Awaited uuids drawn state rest where
  data := by
    obtain ⟨_, same, within⟩ := fewer
    exact (same.map _).nodup_iff.mp ((within.map _).nodup awaited.data)
  ids := by
    obtain ⟨_, same, within⟩ := fewer
    exact (same.map _).nodup_iff.mp ((within.map _).nodup awaited.ids)
  drawn := fun pushed member => awaited.drawn pushed (fewer.subset member)
  new := fun pushed member => awaited.new pushed (fewer.subset member)

end Awaited

theorem noPush {event : Event} (made : event.pushed? = none) (key itemId : String) :
    event.itemMark? ≠ some ((key, itemId), .pushed) := by
  cases event with
  | queuePushed => cases made
  | queueTaken | queueCompleted | queueFailed | queueDropped | queueItemRetry | queueItemDead =>
      intro marked
      cases marked
  | _ => exact fun marked => nomatch marked

theorem inFlight_append (run : PushRun) {event : Event} (made : event.pushed? = none) :
    (run.sending ++ (run.log ++ [event])).filterMap Event.pushed? = run.inFlight := by
  rw [inFlight, ← List.append_assoc, List.filterMap_append, List.filterMap_cons_none made,
    List.filterMap_nil, List.append_nil]

namespace Deduplicated

variable {uuids : Nat → String} {run : PushRun}

theorem start : Deduplicated uuids {} := by
  have noItems : ∀ key, ({} : MaterializedState).itemsOf key = [] := by
    intro key
    unfold MaterializedState.itemsOf
    rw [Table.lookup_empty]
    rfl
  constructor
  case distinct =>
    intro key
    rw [noItems]
    exact List.nodup_nil
  case single =>
    intro key
    rw [noItems]
    exact fun _ member => nomatch member
  case awaited =>
    exact ⟨List.nodup_nil, List.nodup_nil, (fun _ member => nomatch member),
      (fun _ member => nomatch member)⟩
  case sent => exact fun _ member => nomatch member
  case unique => exact fun _ member => nomatch member
  case unsent => exact fun _ member => nomatch member
  case logged => exact List.nil_subset _
  case items =>
    intro key
    rw [noItems]
    exact fun _ member => nomatch member
  case answered => exact List.nil_subset _

/-- The engine applies an event that pushes nothing. -/
theorem applied (kept : Deduplicated uuids run) (order : WalkOrder) (clock : Clock) {event : Event}
    (made : event.pushed? = none) (unrevived : run.Unrevived event) :
    Deduplicated uuids { run with state := run.state.applyEvent order clock event } := by
  have prior := fun key => (MaterializedState.itemsStep_applyEvent order clock key run.state
    event).prior (kept.distinct key) (noPush made key)
  refine { kept with distinct := fun key => (prior key).1, single := ?_, awaited := ?_, items := ?_ }
  · intro key first inFirst second inSecond firstOpen secondOpen same
    obtain ⟨first', wasFirst, firstId, firstData, firstOpens⟩ := (prior key).2 first inFirst
    obtain ⟨second', wasSecond, secondId, secondData, secondOpens⟩ := (prior key).2 second inSecond
    have sameBefore : first'.data = second'.data := firstData.symm.trans (same.trans secondData)
    rw [firstId, secondId]
    cases openFirst : first'.isOpen with
    | true =>
        cases openSecond : second'.isOpen with
        | true => exact kept.single key first' wasFirst second' wasSecond openFirst openSecond sameBefore
        | false =>
            rcases secondOpens secondOpen with before | ⟨next, marked, opens⟩
            · rw [openSecond] at before
              cases before
            · have apart := (unrevived key second'.id next marked opens second' wasSecond rfl
                openSecond).1
              exact absurd sameBefore (apart first' wasFirst openFirst)
    | false =>
        rcases firstOpens firstOpen with before | ⟨next, marked, opens⟩
        · rw [openFirst] at before
          cases before
        · cases openSecond : second'.isOpen with
          | true =>
              have apart := (unrevived key first'.id next marked opens first' wasFirst rfl
                openFirst).1
              exact absurd sameBefore.symm (apart second' wasSecond openSecond)
          | false =>
              -- both are the item that the event is about
              rcases secondOpens secondOpen with before | ⟨_, alsoMarked, _⟩
              · rw [openSecond] at before
                cases before
              · have both := Option.some.inj (marked.symm.trans alsoMarked)
                exact congrArg (·.1.2) both
  · refine { kept.awaited with new := ?_ }
    intro pushed member item present
    obtain ⟨old, was, sameId, sameData, opens⟩ := (prior pushed.key).2 item present
    obtain ⟨newId, newData⟩ := kept.awaited.new pushed member old was
    rw [sameId, sameData]
    refine ⟨newId, fun isOpen => ?_⟩
    cases wasOpen : old.isOpen with
    | true => exact newData wasOpen
    | false =>
        rcases opens isOpen with before | ⟨next, marked, revives⟩
        · rw [wasOpen] at before
          cases before
        · exact ((unrevived pushed.key old.id next marked revives old was rfl wasOpen).2 pushed member
            rfl).symm
  · intro key item present
    obtain ⟨old, was, sameId, sameData, _⟩ := (prior key).2 item present
    rw [sameId, sameData]
    exact kept.items key old was

/-- The engine records a push. -/
theorem recorded (kept : Deduplicated uuids run) (order : WalkOrder) (clock : Clock)
    {queueName itemId ns : String} {data : HashMap String} {nowMs : Nat} {rest : List Event}
    (log : run.log = .queuePushed queueName itemId data nowMs ns :: rest) :
    Deduplicated uuids { run with
      state := run.state.applyEvent order clock (.queuePushed queueName itemId data nowMs ns)
      log := rest } := by
  let pushed : Pushed := ⟨scopedName ns queueName, itemId, data⟩
  have flight : run.inFlight.Perm (pushed :: (run.sending ++ rest).filterMap Event.pushed?) := by
    unfold inFlight
    rw [log, List.filterMap_append, List.filterMap_append]
    exact List.perm_middle
  have member : pushed ∈ run.inFlight := flight.mem_iff.mpr List.mem_cons_self
  have later : ∀ other ∈ (run.sending ++ rest).filterMap Event.pushed?, other ∈ run.inFlight :=
    fun other present => flight.mem_iff.mpr (List.mem_cons_of_mem pushed present)
  have awaited := kept.awaited.subperm flight.symm.subperm
  obtain ⟨otherIds, _⟩ := List.nodup_cons.mp awaited.ids
  obtain ⟨otherData, _⟩ := List.nodup_cons.mp awaited.data
  have isNew := kept.awaited.new pushed member
  let item : QueueItem := ⟨itemId, queueName, data, .pending, none, nowMs, 0⟩
  have absent : ((run.state.itemsOf pushed.key).any (·.id == item.id)) = false := by
    rw [List.any_eq_false]
    intro other present same
    exact (isNew other present).1 (eq_of_beq same)
  have items : ∀ key, (run.state.applyEvent order clock
      (.queuePushed queueName itemId data nowMs ns)).itemsOf key =
        if pushed.key = key then run.state.itemsOf key ++ [item] else run.state.itemsOf key := by
    intro key
    change ((run.state.queueItems.insert pushed.key
      (pushItem item (run.state.itemsOf pushed.key)))[key]?).getD [] = _
    rw [Table.lookup_insert]
    split
    · rename_i here
      subst here
      unfold pushItem
      rw [absent]
      rfl
    · rfl
  have members : ∀ key, ∀ other ∈ (run.state.applyEvent order clock
      (.queuePushed queueName itemId data nowMs ns)).itemsOf key,
        other ∈ run.state.itemsOf key ∨ (pushed.key = key ∧ other = item) := by
    intro key other present
    rw [items] at present
    split at present
    · rename_i here
      exact (List.mem_append.mp present).imp_right fun only => ⟨here, List.mem_singleton.mp only⟩
    · exact .inl present
  refine { kept with
    distinct := fun key => ?_
    single := fun key => ?_
    awaited := ?_
    logged := fun other present => kept.logged ?_
    items := fun key other present => ?_ }
  · rw [items]
    split
    · rename_i here
      subst here
      unfold Distinct
      rw [List.map_append, List.nodup_append]
      refine ⟨kept.distinct _, List.nodup_singleton _, ?_⟩
      intro id inOld other only
      obtain ⟨old, present, rfl⟩ := List.mem_map.mp inOld
      cases List.mem_singleton.mp only
      exact (isNew old present).1
    · exact kept.distinct key
  · intro first inFirst second inSecond firstOpen secondOpen same
    rcases members key first inFirst with wasFirst | ⟨rfl, rfl⟩
    · rcases members key second inSecond with wasSecond | ⟨rfl, rfl⟩
      · exact kept.single key first wasFirst second wasSecond firstOpen secondOpen same
      · exact absurd same ((isNew first wasFirst).2 firstOpen)
    · rcases members _ second inSecond with wasSecond | ⟨_, rfl⟩
      · exact absurd same.symm ((isNew second wasSecond).2 secondOpen)
      · rfl
  · refine ⟨(List.nodup_cons.mp awaited.data).2, (List.nodup_cons.mp awaited.ids).2,
      fun other present => kept.awaited.drawn other (later other present), ?_⟩
    intro other present stored inItems
    rcases members other.key stored inItems with was | ⟨sameKey, rfl⟩
    · exact kept.awaited.new other (later other present) stored was
    · constructor
      · intro same
        exact otherIds (List.mem_map.mpr ⟨other, present, same.symm⟩)
      · intro _ same
        refine otherData (List.mem_map.mpr ⟨other, present, ?_⟩)
        exact Prod.ext sameKey.symm same.symm
  · rw [log]
    exact List.mem_cons_of_mem pushed present
  · rcases members key other present with was | ⟨rfl, rfl⟩
    · exact kept.items key other was
    · refine kept.logged ?_
      rw [log]
      exact List.mem_cons_self

theorem process (kept : Deduplicated uuids run) (order : WalkOrder) (clock : Clock)
    (unrevived : ∀ event ∈ run.log.head?, run.Unrevived event) :
    Deduplicated uuids (run.process order clock) := by
  unfold PushRun.process
  cases log : run.log with
  | nil => exact kept
  | cons event rest =>
      rw [log] at unrevived
      cases made : event.pushed? with
      | none =>
          have flight : run.inFlight = (run.sending ++ rest).filterMap Event.pushed? := by
            unfold inFlight
            rw [log, List.filterMap_append, List.filterMap_append, List.filterMap_cons_none made]
          have entries : run.log.filterMap Event.pushed? = rest.filterMap Event.pushed? := by
            rw [log, List.filterMap_cons_none made]
          have after := kept.applied order clock made (unrevived event rfl)
          have awaited : Awaited uuids run.drawn _ run.inFlight := after.awaited
          rw [flight] at awaited
          exact { after with awaited, logged := entries ▸ after.logged }
      | some pushed =>
          cases event with
          | queuePushed => exact kept.recorded order clock log
          | _ => cases made

/-- An item is pushed when none with its data is open or in flight. -/
theorem pushed (kept : Deduplicated uuids run) (outside : Outside)
    (injective : Function.Injective uuids) {runbook : Runbook} {queueName ns : String}
    {data : Value} {nowMs : Nat} (apart : run.Apart outside (.push runbook queueName ns data nowMs)) :
    Deduplicated uuids (run.push outside uuids runbook queueName ns data nowMs) := by
  unfold PushRun.push
  cases checked : run.state.handleQueuePush outside runbook queueName ns data with
  | error _ => exact kept
  | wakes => exact kept
  | existing itemId =>
      obtain ⟨item, member, rfl, same⟩ := handleQueuePush_existing checked
      refine { kept with answered := fun answer present => ?_ }
      rcases List.mem_append.mp present with before | now
      · exact kept.answered before
      · cases List.mem_singleton.mp now
        rw [← same]
        exact kept.items _ item member
  | new =>
      dsimp only
      let asked := requestedData outside runbook queueName data
      let event := Event.queuePushed queueName (uuids run.drawn) asked nowMs ns
      let new : Pushed := ⟨scopedName ns queueName, uuids run.drawn, asked⟩
      have flight : ((run.sending ++ [event]) ++ run.log).filterMap Event.pushed? =
          run.sending.filterMap Event.pushed? ++ new :: run.log.filterMap Event.pushed? := by
        rw [List.append_assoc, List.filterMap_append]
        rfl
      have around : (run.sending.filterMap Event.pushed? ++
          new :: run.log.filterMap Event.pushed?).Perm (new :: run.inFlight) := by
        unfold inFlight
        rw [List.filterMap_append]
        exact List.perm_middle
      have notDrawn : ∀ id, (∃ n < run.drawn, id = uuids n) → id ≠ uuids run.drawn := by
        rintro id ⟨n, earlier, rfl⟩ same
        exact absurd (injective same) (Nat.ne_of_lt earlier)
      have stillDrawn : ∀ id, (∃ n < run.drawn, id = uuids n) → ∃ n < run.drawn + 1, id = uuids n :=
        fun id ⟨n, earlier, same⟩ => ⟨n, Nat.lt_succ_of_lt earlier, same⟩
      have awaited : Awaited uuids (run.drawn + 1) run.state (new :: run.inFlight) := by
        constructor
        · refine List.nodup_cons.mpr ⟨fun present => ?_, kept.awaited.data⟩
          obtain ⟨other, member, same⟩ := List.mem_map.mp present
          obtain ⟨sameKey, sameData⟩ := Prod.mk.inj same
          exact apart checked other member sameKey sameData
        · refine List.nodup_cons.mpr ⟨fun present => ?_, kept.awaited.ids⟩
          obtain ⟨other, member, same⟩ := List.mem_map.mp present
          exact notDrawn _ (kept.awaited.drawn other member) same
        · intro other present
          rcases List.mem_cons.mp present with rfl | before
          · exact ⟨run.drawn, Nat.lt_succ_self _, rfl⟩
          · exact stillDrawn _ (kept.awaited.drawn other before)
        · intro other present item inItems
          rcases List.mem_cons.mp present with rfl | before
          · exact ⟨notDrawn _ (kept.sent _ (kept.items _ item inItems)),
              handleQueuePush_new checked item inItems⟩
          · exact kept.awaited.new other before item inItems
      refine { kept with awaited := ?_, sent := ?_, unsent := ?_ }
      · unfold inFlight
        dsimp only
        rw [flight]
        exact awaited.subperm around.subperm
      · exact fun other present => stillDrawn _ (kept.sent other present)
      · intro other present earlier inSent same
        rw [List.filterMap_append, List.mem_append] at present
        rcases present with before | now
        · exact kept.unsent other before earlier inSent same
        · cases List.mem_singleton.mp now
          exact notDrawn _ (kept.sent earlier inSent) same

/-- The event of a push reaches the log, and is answered. -/
theorem sends (kept : Deduplicated uuids run) (n : Nat) : Deduplicated uuids (run.send n) := by
  unfold PushRun.send
  cases present : run.sending[n]? with
  | none => exact kept
  | some event =>
      dsimp only
      obtain ⟨within, rfl⟩ := List.getElem?_eq_some_iff.mp present
      have order : (run.sending.eraseIdx n ++ (run.log ++ [run.sending[n]])).Perm
          (run.sending ++ run.log) := by
        have moved : (run.sending.eraseIdx n ++ (run.log ++ [run.sending[n]])).Perm
            (run.sending[n] :: run.sending.eraseIdx n ++ run.log) := by
          rw [← List.append_assoc]
          exact List.perm_append_comm
        exact moved.trans ((List.getElem_cons_eraseIdx_perm within).append_right run.log)
      have flight := order.filterMap Event.pushed?
      have sentCases : ∀ pushed ∈ run.sent ++ (run.sending[n].pushed?).toList,
          pushed ∈ run.sent ∨ run.sending[n].pushed? = some pushed := fun pushed member =>
        (List.mem_append.mp member).imp_right Option.mem_toList.mp
      have waits : ∀ pushed, run.sending[n].pushed? = some pushed →
          pushed ∈ run.sending.filterMap Event.pushed? := fun pushed pushes =>
        List.mem_filterMap.mpr ⟨_, List.getElem_mem within, pushes⟩
      have inFlight : ∀ pushed ∈ run.sending.filterMap Event.pushed?, pushed ∈ run.inFlight := by
        intro pushed member
        unfold PushRun.inFlight
        rw [List.filterMap_append]
        exact List.mem_append_left _ member
      have others : ∀ pushed, run.sending[n].pushed? = some pushed →
          ∀ other ∈ (run.sending.eraseIdx n).filterMap Event.pushed?,
            pushed.itemId ≠ other.itemId := by
        intro pushed pushes other member same
        have split : (pushed :: (run.sending.eraseIdx n).filterMap Event.pushed?).Perm
            (run.sending.filterMap Event.pushed?) := by
          rw [← List.filterMap_cons_some pushes]
          exact (List.getElem_cons_eraseIdx_perm within).filterMap _
        have ids : ((run.sending.filterMap Event.pushed?).map (·.itemId)).Nodup := by
          refine (List.Sublist.map _ ?_).nodup kept.awaited.ids
          unfold PushRun.inFlight
          rw [List.filterMap_append]
          exact List.sublist_append_left _ _
        obtain ⟨apart, _⟩ := List.nodup_cons.mp ((split.map (·.itemId)).nodup_iff.mpr ids)
        exact apart (List.mem_map.mpr ⟨other, member, same.symm⟩)
      constructor
      case distinct => exact kept.distinct
      case single => exact kept.single
      case awaited => exact kept.awaited.subperm flight.subperm
      case sent =>
        intro pushed member
        rcases sentCases pushed member with before | now
        · exact kept.sent pushed before
        · exact kept.awaited.drawn pushed (inFlight pushed (waits pushed now))
      case unique =>
        intro first inFirst second inSecond same
        rcases sentCases first inFirst with before | now
        · rcases sentCases second inSecond with alsoBefore | now
          · exact kept.unique first before second alsoBefore same
          · exact absurd same (kept.unsent second (waits second now) first before)
        · rcases sentCases second inSecond with before | alsoNow
          · exact absurd same.symm (kept.unsent first (waits first now) second before)
          · exact Option.some.inj (now.symm.trans alsoNow)
      case unsent =>
        intro pushed member other inSent
        rcases sentCases other inSent with before | now
        · exact kept.unsent pushed
            (((List.eraseIdx_sublist run.sending n).filterMap _).subset member) other before
        · exact others other now pushed member
      case logged =>
        intro pushed member
        rw [List.filterMap_append, List.mem_append] at member
        rcases member with before | now
        · exact List.mem_append_left _ (kept.logged before)
        · obtain ⟨_, only, pushes⟩ := List.mem_filterMap.mp now
          cases List.mem_singleton.mp only
          exact List.mem_append_right _ (Option.mem_toList.mpr pushes)
      case items => exact fun key item member => List.mem_append_left _ (kept.items key item member)
      case answered =>
        intro answer member
        rcases List.mem_append.mp member with before | now
        · exact List.mem_append_left _ (kept.answered before)
        · exact List.mem_append_right _ now

theorem fails (kept : Deduplicated uuids run) (n : Nat) :
    Deduplicated uuids { run with sending := run.sending.eraseIdx n } := by
  have fewer := List.eraseIdx_sublist run.sending n
  refine { kept with
    awaited := kept.awaited.subperm ((fewer.append_right run.log).filterMap Event.pushed?).subperm
    unsent := fun pushed member => kept.unsent pushed ?_ }
  exact (fewer.filterMap Event.pushed?).subset member

/-- Every move that keeps items with equal data apart leads on. -/
theorem next (kept : Deduplicated uuids run) (outside : Outside)
    (injective : Function.Injective uuids) (move : PushMove) (apart : run.Apart outside move) :
    Deduplicated uuids (run.next outside uuids move) := by
  cases move with
  | push runbook queueName ns data nowMs => exact kept.pushed outside injective apart
  | send n => exact kept.sends n
  | fail n => exact kept.fails n
  | process order clock => exact kept.process order clock apart
  | apply order clock event made => exact kept.applied order clock made apart
  | append event made =>
      have entries : (run.log ++ [event]).filterMap Event.pushed? = run.log.filterMap Event.pushed? := by
        rw [List.filterMap_append, List.filterMap_cons_none made, List.filterMap_nil,
          List.append_nil]
      refine { kept with awaited := ?_, logged := entries.symm ▸ kept.logged }
      change Awaited uuids run.drawn run.state
        ((run.sending ++ (run.log ++ [event])).filterMap Event.pushed?)
      rw [run.inFlight_append made]
      exact kept.awaited
  | clean id =>
      obtain ⟨data, ids, drawn, new⟩ := kept.awaited
      exact { kept with awaited := ⟨data, ids, drawn, new⟩ }

theorem moves (outside : Outside) (injective : Function.Injective uuids) (moves : List PushMove)
    (start : PushRun) (kept : Deduplicated uuids start)
    (apart : start.AllApart outside uuids moves) :
    Deduplicated uuids (moves.foldl (PushRun.next outside uuids) start) := by
  induction moves generalizing start with
  | nil => exact kept
  | cons move rest ih =>
      exact ih (start.next outside uuids move) (kept.next outside injective move apart.1) apart.2

end Deduplicated

end PushRun

/-- While pushes and retries of equal data are kept apart, the open items of a queue have
different data, and every push is answered with the id of an item that has its data. -/
theorem pushes_deduplicated (outside : Outside) (uuids : Nat → String)
    (injective : Function.Injective uuids) (moves : List PushMove)
    (apart : PushRun.AllApart outside uuids {} moves) :
    let run := moves.foldl (PushRun.next outside uuids) {}
    (∀ key, Distinct (run.state.itemsOf key) ∧ PushRun.Single (run.state.itemsOf key)) ∧
      ∀ answer ∈ run.answered, answer ∈ run.sent ∧
        ∀ item ∈ run.state.itemsOf answer.key, item.id = answer.itemId → item.data = answer.data := by
  intro run
  have kept : PushRun.Deduplicated uuids run :=
    PushRun.Deduplicated.moves outside injective moves {} .start apart
  refine ⟨fun key => ⟨kept.distinct key, kept.single key⟩, fun answer member => ?_⟩
  refine ⟨kept.answered member, fun item present same => ?_⟩
  have both := kept.unique _ (kept.items answer.key item present) answer (kept.answered member) same
  exact congrArg (·.data) both

def lengthIds (n : Nat) : String := String.ofList (List.replicate n 'a')

theorem lengthIds_injective : Function.Injective lengthIds := by
  intro m n same
  have lists := congrArg String.toList same
  rw [lengthIds, lengthIds, String.toList_ofList, String.toList_ofList] at lists
  have lengths := congrArg List.length lists
  rw [List.length_replicate, List.length_replicate] at lengths
  exact lengths

def pushPart : PushMove := .push .shop "parts" "" (.object []) 0

/-- The second push is answered with the item of the first. -/
theorem pushes_deduplicated_again :
    let moves : List PushMove := [pushPart, .send 0, .process .byKey ⟨0, 0⟩, pushPart]
    let run := moves.foldl (PushRun.next (.plain .shop) lengthIds) {}
    run.answered.map (·.itemId) = ["", ""] ∧ (run.state.itemsOf "parts").length = 1 ∧
      ∀ answer ∈ run.answered, answer ∈ run.sent := by
  intro moves run
  have apart : PushRun.AllApart (.plain .shop) lengthIds {} moves := by
    refine ⟨fun _ _ member => (nomatch member), trivial, ?_, fun _ _ member => (nomatch member),
      trivial⟩
    intro event first
    cases first
    intro key itemId next marked
    cases marked
  have kept := pushes_deduplicated (.plain .shop) lengthIds lengthIds_injective moves apart
  refine ⟨?_, ?_, fun answer member => (kept.2 answer member).1⟩
  · decide +kernel
  · decide +kernel

/-- Two pushes of the same data are checked before the engine has recorded the first. -/
theorem pushes_duplicated :
    let moves : List PushMove := [pushPart, .send 0, pushPart, .send 0, .process .byKey ⟨0, 0⟩,
      .process .byKey ⟨0, 0⟩]
    let run := moves.foldl (PushRun.next (.plain .shop) lengthIds) {}
    (run.state.itemsOf "parts").map (·.id) = ["", "a"] ∧
      ((run.state.itemsOf "parts").all fun item => item.isOpen && item.data == ∅) = true := by
  intro moves run
  refine ⟨?_, ?_⟩
  · decide +kernel
  · decide +kernel

end OddJobs
