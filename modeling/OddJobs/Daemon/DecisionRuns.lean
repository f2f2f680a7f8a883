import OddJobs.Daemon.Resolutions
import Mathlib.Data.List.Nodup

/-!
# Decisions under way

Requests to resolve decisions arrive while the engine processes the log and escalates
anew.  A resolution is in flight from the check of its request until the engine applies
it, and the state does not know of it meanwhile.
-/

namespace OddJobs

open Library

/-- An accepted request, with what it still has to send. -/
structure Resolving where
  id : DecisionId
  /-- The resolution, until it is sent. -/
  resolution : Option Event
  /-- Whether one of the actions has been sent. -/
  acting : Bool
  actions : List Event

/-- The state, the entries of the log that are not processed yet, and the requests under
way.  The other fields record what has happened. -/
structure DecisionRun where
  state : MaterializedState := {}
  log : List Event := []
  requests : List Resolving := []
  /-- The decisions for which a resolution was sent. -/
  resolved : List DecisionId := []
  /-- The decision of each request that was answered with `DecisionResolved`. -/
  answered : List DecisionId := []
  /-- The decision of each request that has sent an action. -/
  acted : List DecisionId := []

/-- What can happen next.  Only requests make resolutions; the engine and other requests
apply and log everything else at any time. -/
inductive DecisionMove where
  | request (id : String) (chosen : Option Nat) (message : Option String) (nowMs : Nat)
  | send (n : Nat)
  | fail (n : Nat)
  | process (order : WalkOrder) (clock : Clock)
  | apply (order : WalkOrder) (clock : Clock) (event : Event) (made : event.resolves = none)
  | append (event : Event) (made : event.resolves = none)
  | clean (id : WorkspaceId)

namespace DecisionRun

def receive (id : String) (chosen : Option Nat) (message : Option String) (nowMs : Nat)
    (run : DecisionRun) : DecisionRun :=
  match run.state.handleDecisionResolve id chosen message nowMs with
  | .error _ => run
  | .ok resolution =>
      { run with requests := run.requests ++
          [⟨resolution.decision.id, some resolution.resolved, false, resolution.actions⟩] }

/-- A request sends its next event, and is answered when there is none. -/
def send (n : Nat) (run : DecisionRun) : DecisionRun :=
  match run.requests[n]? with
  | none => run
  | some request =>
      match request.resolution, request.actions with
      | some event, _ =>
          { run with
            log := run.log ++ [event]
            requests := run.requests.set n { request with resolution := none }
            resolved := run.resolved ++ [request.id] }
      | none, action :: rest =>
          { run with
            log := run.log ++ [action]
            requests := run.requests.set n { request with acting := true, actions := rest }
            acted := if request.acting then run.acted else run.acted ++ [request.id] }
      | none, [] =>
          { run with
            requests := run.requests.eraseIdx n
            answered := run.answered ++ [request.id] }

def process (order : WalkOrder) (clock : Clock) (run : DecisionRun) : DecisionRun :=
  match run.log with
  | [] => run
  | event :: rest =>
      { run with state := run.state.applyEvent order clock event, log := rest }

def next (run : DecisionRun) : DecisionMove → DecisionRun
  | .request id chosen message nowMs => run.receive id chosen message nowMs
  | .send n => run.send n
  | .fail n => { run with requests := run.requests.eraseIdx n }
  | .process order clock => run.process order clock
  | .apply order clock event _ => { run with state := run.state.applyEvent order clock event }
  | .append event _ => { run with log := run.log ++ [event] }
  | .clean id => { run with state := run.state.updateWorkspace id .cleaning }

/-- A resolution of the decision is about to be sent, or waits in the log. -/
def InFlight (run : DecisionRun) (id : DecisionId) : Prop :=
  id ∈ run.log.filterMap Event.resolves ∨
    ∃ request ∈ run.requests, request.id = id ∧ request.resolution.isSome = true

/-- An escalation neither supersedes a decision whose resolution is in flight, nor makes a
decision anew that has been resolved. -/
def Undisturbed (run : DecisionRun) : Event → Prop
  | .decisionCreated id _ _ owner _ _ _ _ _ =>
      run.state.decisions.contains id = false →
        (∀ (other : DecisionId) (decision : Decision), run.InFlight other →
          run.state.decisions[other]? = some decision → decision.owner ≠ owner) ∧
        (id ∈ run.resolved → run.InFlight id)
  | _ => True

/-- Whether a move keeps the resolutions in flight apart from each other, and from
escalations. -/
def Apart (run : DecisionRun) : DecisionMove → Prop
  | .request id chosen message nowMs =>
      ∀ resolution, run.state.handleDecisionResolve id chosen message nowMs = .ok resolution →
        ¬run.InFlight resolution.decision.id
  | .process _ _ => ∀ event ∈ run.log.head?, run.Undisturbed event
  | .apply _ _ event _ => run.Undisturbed event
  | _ => True

def AllApart : DecisionRun → List DecisionMove → Prop
  | _, [] => True
  | run, move :: rest => run.Apart move ∧ AllApart (run.next move) rest

/-- The resolutions in flight are those of open decisions, and every decision is resolved
by one request. -/
structure Once (run : DecisionRun) : Prop where
  keyed : Table.Every (fun key decision => decision.id = key) run.state.decisions
  distinct : (run.requests.map (·.id)).Nodup
  resolution : ∀ request ∈ run.requests, ∀ event, request.resolution = some event →
    event.resolves = some request.id
  actions : ∀ request ∈ run.requests, ∀ action ∈ request.actions, action.resolves = none
  unsent : ∀ request ∈ run.requests, request.resolution.isSome = true →
    request.id ∉ run.resolved
  sent : ∀ request ∈ run.requests, request.resolution = none →
    request.id ∈ run.resolved ∧ request.id ∉ run.answered
  quiet : ∀ request ∈ run.requests, request.acting = false → request.id ∉ run.acted
  answered : run.answered.Nodup ∧ run.answered ⊆ run.resolved
  acted : run.acted.Nodup ∧ run.acted ⊆ run.resolved
  logged : (run.log.filterMap Event.resolves).Nodup ∧
    run.log.filterMap Event.resolves ⊆ run.resolved
  open_ : ∀ (id : DecisionId) (decision : Decision), run.InFlight id →
    run.state.decisions[id]? = some decision → decision.isResolved = false
  closed : ∀ id ∈ run.resolved, id ∉ run.log.filterMap Event.resolves →
    ∀ decision : Decision, run.state.decisions[id]? = some decision → decision.isResolved = true

theorem mem_logged (event : Event) (log : List Event) (id : DecisionId) :
    id ∈ (log ++ [event]).filterMap Event.resolves ↔
      id ∈ log.filterMap Event.resolves ∨ event.resolves = some id := by
  rw [List.filterMap_append, List.mem_append, List.mem_filterMap, List.mem_filterMap]
  constructor
  · rintro (old | ⟨added, member, resolves⟩)
    · exact .inl old
    · cases List.mem_singleton.mp member
      exact .inr resolves
  · rintro (old | resolves)
    · exact .inl old
    · exact .inr ⟨event, List.mem_singleton.mpr rfl, resolves⟩

theorem append_unresolving {event : Event} (made : event.resolves = none) (log : List Event) :
    (log ++ [event]).filterMap Event.resolves = log.filterMap Event.resolves := by
  rw [List.filterMap_append, List.filterMap_cons_none made, List.filterMap_nil, List.append_nil]

namespace Once

variable {run : DecisionRun}

/-- Nothing is under way at the start. -/
theorem start : Once {} where
  keyed := Table.every_empty
  distinct := List.nodup_nil
  resolution := fun _ member => nomatch member
  actions := fun _ member => nomatch member
  unsent := fun _ member => nomatch member
  sent := fun _ member => nomatch member
  quiet := fun _ member => nomatch member
  answered := ⟨List.nodup_nil, List.nil_subset _⟩
  acted := ⟨List.nodup_nil, List.nil_subset _⟩
  logged := ⟨List.nodup_nil, List.nil_subset _⟩
  open_ := fun _ _ _ found => by
    rw [Table.lookup_empty] at found
    cases found
  closed := fun _ member => nomatch member

theorem unique {requests : List Resolving} (distinct : (requests.map (·.id)).Nodup)
    {first second : Resolving} (inFirst : first ∈ requests) (inSecond : second ∈ requests)
    (same : first.id = second.id) : first = second :=
  List.inj_on_of_nodup_map distinct inFirst inSecond same

/-- What becomes of the decisions decides what becomes of the run, as far as the state
goes. -/
theorem stateful (once : Once run) {state : MaterializedState}
    (keyed : Table.Every (fun key decision => decision.id = key) state.decisions)
    (open_ : ∀ (id : DecisionId) (decision : Decision), run.InFlight id →
      state.decisions[id]? = some decision → decision.isResolved = false)
    (closed : ∀ id ∈ run.resolved, id ∉ run.log.filterMap Event.resolves →
      ∀ decision : Decision, state.decisions[id]? = some decision → decision.isResolved = true) :
    Once { run with state } :=
  { once with keyed, open_, closed }

theorem letsGo (once : Once run) {state : MaterializedState}
    (lets : MaterializedState.LetsGo run.state.decisions state.decisions) : Once { run with state } := by
  refine once.stateful ?_ ?_ ?_
  · intro key decision found
    obtain ⟨_, present, rfl⟩ := lets key decision found
    exact once.keyed key _ present
  · intro id decision inFlight found
    obtain ⟨_, present, rfl⟩ := lets id decision found
    exact once.open_ id _ inFlight present
  · intro id resolved notLogged decision found
    obtain ⟨_, present, rfl⟩ := lets id decision found
    exact once.closed id resolved notLogged _ present

/-- An escalation that disturbs no resolution in flight. -/
theorem created (once : Once run) (id : String) (jobId : JobId) (agentId : Option String)
    (owner : OwnerId) (source : DecisionSource) (context : String)
    (options : List DecisionOption) (createdAtMs : Nat) (ns : String)
    (undisturbed : run.Undisturbed
      (.decisionCreated id jobId agentId owner source context options createdAtMs ns)) :
    Once { run with state := (run.state.applyDecisionCreated id jobId agentId owner source context
      options createdAtMs ns) } := by
  have decisions := MaterializedState.applyDecisionCreated_decisions id jobId agentId owner source
    context options createdAtMs ns run.state
  cases known : run.state.decisions.contains id with
  | true =>
      rw [if_pos known] at decisions
      refine once.letsGo ?_
      rw [decisions]
      exact Table.Within.refl (fun _ => rfl) _
  | false =>
      obtain ⟨others, again⟩ := undisturbed known
      rw [if_neg (Bool.eq_false_iff.mp known)] at decisions
      refine once.stateful ?_ ?_ ?_
      · rw [decisions]
        refine Table.Every.insert ?_ rfl
        refine once.keyed.map _ fun key decision isKey => ?_
        unfold Decision.applySuperseded
        split <;> exact isKey
      · intro other decision inFlight found
        rw [decisions, Table.lookup_insert] at found
        split at found
        · cases found
          rfl
        · rw [Table.lookup_map] at found
          obtain ⟨prior, present, rfl⟩ := Option.map_eq_some_iff.mp found
          have kept : prior.applySuperseded owner id createdAtMs = prior :=
            if_neg fun owned => others other prior inFlight present owned.1
          rw [kept]
          exact once.open_ other prior inFlight present
      · intro other resolved notLogged decision found
        rw [decisions, Table.lookup_insert] at found
        split at found
        · rename_i same
          subst same
          rcases again resolved with logged | ⟨request, member, rfl, unsent⟩
          · exact absurd logged notLogged
          · exact absurd resolved (once.unsent request member unsent)
        · rw [Table.lookup_map] at found
          obtain ⟨prior, present, rfl⟩ := Option.map_eq_some_iff.mp found
          exact (prior.advances_applySuperseded owner id createdAtMs).resolved
            (once.closed other resolved notLogged prior present)

/-- The engine applies an event that is no resolution. -/
theorem applied (once : Once run) (order : WalkOrder) (clock : Clock) {event : Event}
    (made : event.resolves = none) (undisturbed : run.Undisturbed event) :
    Once { run with state := run.state.applyEvent order clock event } := by
  cases creates : event.creates with
  | none => exact once.letsGo (MaterializedState.applyEvent_letsGo order clock run.state creates made)
  | some _ =>
      cases event with
      | decisionCreated id jobId agentId owner source context options createdAtMs ns =>
          exact once.created id jobId agentId owner source context options createdAtMs ns
            undisturbed
      | _ => cases creates

/-- The engine applies the resolution that stands first in the log. -/
theorem resolves (once : Once run) {id : DecisionId} {chosen : Option Nat}
    {message : Option String} {resolvedAtMs : Nat} {ns : String} {rest : List Event}
    (log : run.log = .decisionResolved id chosen message resolvedAtMs ns :: rest)
    (order : WalkOrder) (clock : Clock) :
    Once { run with
      state := run.state.applyEvent order clock
        (.decisionResolved id chosen message resolvedAtMs ns)
      log := rest } := by
  have entries : run.log.filterMap Event.resolves = id :: rest.filterMap Event.resolves := by
    rw [log]
    rfl
  obtain ⟨single, sent⟩ := once.logged
  rw [entries] at single sent
  obtain ⟨gone, single⟩ := List.nodup_cons.mp single
  have lookup : ∀ other : DecisionId, (run.state.applyEvent order clock
      (.decisionResolved id chosen message resolvedAtMs ns)).decisions[other]? = _ := fun other =>
    Table.lookup_modify run.state.decisions id other _
  -- no other resolution of the decision is in flight
  have apart : ∀ other, other ∈ rest.filterMap Event.resolves ∨
      (∃ request ∈ run.requests, request.id = other ∧ request.resolution.isSome = true) →
      other ≠ id := by
    rintro other (logged | ⟨request, member, rfl, unsent⟩) same
    · exact gone (same ▸ logged)
    · refine once.unsent request member unsent ?_
      rw [same]
      exact sent List.mem_cons_self
  refine { once with
    keyed := once.keyed.modify id fun _ isKey => isKey
    logged := ⟨single, fun other member => sent (List.mem_cons_of_mem id member)⟩
    open_ := ?_
    closed := ?_ }
  · intro other decision inFlight found
    rw [lookup, if_neg (Ne.symm (apart other inFlight))] at found
    refine once.open_ other decision (inFlight.imp_left fun logged => ?_) found
    rw [entries]
    exact List.mem_cons_of_mem id logged
  · intro other resolved notLogged decision found
    rw [lookup] at found
    split at found
    · obtain ⟨_, _, rfl⟩ := Option.map_eq_some_iff.mp found
      rfl
    · rename_i differs
      refine once.closed other resolved ?_ decision found
      rw [entries]
      intro member
      rcases List.mem_cons.mp member with same | later
      · exact differs same.symm
      · exact notLogged later

theorem process (once : Once run) (order : WalkOrder) (clock : Clock)
    (undisturbed : ∀ event ∈ run.log.head?, run.Undisturbed event) :
    Once (run.process order clock) := by
  unfold DecisionRun.process
  cases log : run.log with
  | nil => exact once
  | cons event rest =>
      rw [log] at undisturbed
      cases made : event.resolves with
      | none =>
          have entries : run.log.filterMap Event.resolves = rest.filterMap Event.resolves := by
            rw [log, List.filterMap_cons_none made]
          have after := once.applied order clock made (undisturbed event rfl)
          exact { after with
            logged := entries ▸ after.logged
            open_ := fun id decision inFlight => after.open_ id decision (by
              unfold InFlight at inFlight ⊢
              rw [entries]
              exact inFlight)
            closed := fun id resolved notLogged => after.closed id resolved (entries ▸ notLogged) }
      | some id =>
          cases event with
          | decisionResolved => exact once.resolves log order clock
          | _ => cases made

/-- A request is accepted when no resolution of its decision is in flight. -/
theorem receive (once : Once run) {id : String} {chosen : Option Nat} {message : Option String}
    {nowMs : Nat} (apart : run.Apart (.request id chosen message nowMs)) :
    Once (run.receive id chosen message nowMs) := by
  unfold DecisionRun.receive
  cases checked : run.state.handleDecisionResolve id chosen message nowMs with
  | error _ => exact once
  | ok resolution =>
      dsimp only
      obtain ⟨⟨key, found⟩, isOpen, resolved, actions⟩ :=
        MaterializedState.handleDecisionResolve_accepted checked
      have free := apart resolution checked
      have isKey := once.keyed key resolution.decision found
      have notResolved : resolution.decision.id ∉ run.resolved := by
        intro member
        have closed := once.closed _ member (fun logged => free (.inl logged)) resolution.decision
          (isKey ▸ found)
        rw [isOpen] at closed
        cases closed
      have notUnderWay : ∀ request ∈ run.requests, request.id ≠ resolution.decision.id := by
        intro request member same
        cases unsent : request.resolution with
        | some event => exact free (.inr ⟨request, member, same, unsent ▸ rfl⟩)
        | none => exact notResolved (same ▸ (once.sent request member unsent).1)
      have cases_ : ∀ request ∈ run.requests ++ [(⟨resolution.decision.id,
          some resolution.resolved, false, resolution.actions⟩ : Resolving)],
          request ∈ run.requests ∨ request = ⟨resolution.decision.id,
            some resolution.resolved, false, resolution.actions⟩ := fun request member =>
        (List.mem_append.mp member).imp_right List.mem_singleton.mp
      refine { once with
        distinct := ?_
        resolution := ?_
        actions := ?_
        unsent := ?_
        sent := ?_
        quiet := ?_
        open_ := ?_ }
      · rw [List.map_append, List.nodup_append]
        refine ⟨once.distinct, List.nodup_singleton _, ?_⟩
        intro first inFirst second inSecond
        obtain ⟨request, member, rfl⟩ := List.mem_map.mp inFirst
        cases List.mem_singleton.mp inSecond
        exact notUnderWay request member
      · intro request member event present
        rcases cases_ request member with old | rfl
        · exact once.resolution request old event present
        · cases present
          rw [resolved]
          rfl
      · intro request member action inActions
        rcases cases_ request member with old | rfl
        · exact once.actions request old action inActions
        · exact MaterializedState.resolutionActions_made (actions ▸ inActions)
      · intro request member present
        rcases cases_ request member with old | rfl
        · exact once.unsent request old present
        · exact notResolved
      · intro request member present
        rcases cases_ request member with old | rfl
        · exact once.sent request old present
        · cases present
      · intro request member waits
        rcases cases_ request member with old | rfl
        · exact once.quiet request old waits
        · exact fun acted => notResolved (once.acted.2 acted)
      · rintro other decision (logged | ⟨request, member, rfl, present⟩) stored
        · exact once.open_ other decision (.inl logged) stored
        · rcases cases_ request member with old | rfl
          · exact once.open_ _ decision (.inr ⟨request, old, rfl, present⟩) stored
          · have stored : run.state.decisions[resolution.decision.id]? = some decision := stored
            rw [isKey, found] at stored
            cases stored
            exact isOpen

/-! ### Requests going on -/

section Going

variable {requests : List Resolving} {n : Nat} {request : Resolving}

theorem ids_set (present : requests[n]? = some request) {updated : Resolving}
    (same : updated.id = request.id) :
    (requests.set n updated).map (·.id) = requests.map (·.id) := by
  obtain ⟨within, rfl⟩ := List.getElem?_eq_some_iff.mp present
  have withinIds : n < (requests.map (·.id)).length := by
    rw [List.length_map]
    exact within
  have mapped : (requests.map (·.id))[n] = requests[n].id := List.getElem_map _
  rw [List.map_set, same, ← mapped, List.set_getElem_self]

theorem distinct_set (distinct : (requests.map (·.id)).Nodup)
    (present : requests[n]? = some request) {updated : Resolving} (same : updated.id = request.id) :
    ((requests.set n updated).map (·.id)).Nodup := by
  rw [ids_set present same]
  exact distinct

theorem mem_set (distinct : (requests.map (·.id)).Nodup) (present : requests[n]? = some request)
    {updated other : Resolving} (same : updated.id = request.id)
    (member : other ∈ requests.set n updated) :
    other = updated ∨ (other ∈ requests ∧ other.id ≠ request.id) := by
  rcases List.mem_or_eq_of_mem_set member with old | new
  · by_cases differs : other.id = request.id
    · left
      obtain ⟨within, _⟩ := List.getElem?_eq_some_iff.mp present
      exact unique (distinct_set distinct present same) member (List.mem_set within updated)
        (differs.trans same.symm)
    · exact .inr ⟨old, differs⟩
  · exact .inl new

theorem mem_eraseIdx (distinct : (requests.map (·.id)).Nodup) (present : requests[n]? = some request)
    {other : Resolving} (member : other ∈ requests.eraseIdx n) :
    other ∈ requests ∧ other.id ≠ request.id := by
  obtain ⟨within, rfl⟩ := List.getElem?_eq_some_iff.mp present
  refine ⟨List.mem_of_mem_eraseIdx member, fun same => ?_⟩
  have apart := ((List.getElem_cons_eraseIdx_perm within).map (·.id)).nodup_iff.mpr distinct
  rw [List.map_cons] at apart
  exact (List.nodup_cons.mp apart).1 (same ▸ List.mem_map_of_mem member)

end Going

theorem send_resolution (once : Once run) {n : Nat} {request : Resolving} {event : Event}
    (present : run.requests[n]? = some request) (unsent : request.resolution = some event) :
    Once { run with
      log := run.log ++ [event]
      requests := run.requests.set n { request with resolution := none }
      resolved := run.resolved ++ [request.id] } := by
  have member := List.mem_of_getElem? present
  have resolves := once.resolution request member event unsent
  have isNew := once.unsent request member (unsent ▸ rfl)
  let updated : Resolving := { request with resolution := none }
  have members : ∀ other ∈ run.requests.set n updated,
      other = updated ∨ (other ∈ run.requests ∧ other.id ≠ request.id) := fun other =>
    mem_set once.distinct present rfl
  have sentBefore : ∀ id, id ∈ run.resolved → id ∈ run.resolved ++ [request.id] := fun id old =>
    List.mem_append_left _ old
  have inFlight : ∀ id, (id ∈ (run.log ++ [event]).filterMap Event.resolves ∨
      ∃ other ∈ run.requests.set n updated, other.id = id ∧ other.resolution.isSome = true) →
      run.InFlight id := by
    rintro id (logged | ⟨other, inSet, rfl, waits⟩)
    · rcases (mem_logged event run.log id).mp logged with old | new
      · exact .inl old
      · rw [resolves] at new
        exact .inr ⟨request, member, Option.some.inj new, unsent ▸ rfl⟩
    · rcases members other inSet with rfl | ⟨old, _⟩
      · cases waits
      · exact .inr ⟨other, old, rfl, waits⟩
  constructor
  case keyed => exact once.keyed
  case distinct => exact distinct_set once.distinct present rfl
  case resolution =>
    intro other inSet event waits
    rcases members other inSet with rfl | ⟨old, _⟩
    · cases waits
    · exact once.resolution other old event waits
  case actions =>
    intro other inSet
    rcases members other inSet with rfl | ⟨old, _⟩
    · exact once.actions request member
    · exact once.actions other old
  case unsent =>
    intro other inSet waits
    rcases members other inSet with rfl | ⟨old, differs⟩
    · cases waits
    · intro sent
      rcases List.mem_append.mp sent with before | now
      · exact once.unsent other old waits before
      · exact differs (List.mem_singleton.mp now)
  case sent =>
    intro other inSet sent
    rcases members other inSet with rfl | ⟨old, _⟩
    · refine ⟨List.mem_append_right _ List.mem_cons_self, fun answered => ?_⟩
      exact isNew (once.answered.2 answered)
    · exact ⟨sentBefore _ (once.sent other old sent).1, (once.sent other old sent).2⟩
  case quiet =>
    intro other inSet waits
    rcases members other inSet with rfl | ⟨old, _⟩
    · exact once.quiet request member waits
    · exact once.quiet other old waits
  case answered => exact ⟨once.answered.1, fun id old => sentBefore id (once.answered.2 old)⟩
  case acted => exact ⟨once.acted.1, fun id old => sentBefore id (once.acted.2 old)⟩
  case logged =>
    constructor
    · rw [List.filterMap_append, List.filterMap_cons_some resolves, List.filterMap_nil,
        List.nodup_append]
      refine ⟨once.logged.1, List.nodup_singleton _, fun id logged other only same => ?_⟩
      cases List.mem_singleton.mp only
      exact isNew (same ▸ once.logged.2 logged)
    · intro id logged
      rcases (mem_logged event run.log id).mp logged with old | new
      · exact sentBefore id (once.logged.2 old)
      · rw [resolves] at new
        cases new
        exact List.mem_append_right _ List.mem_cons_self
  case open_ => exact fun id decision flies => once.open_ id decision (inFlight id flies)
  case closed =>
    intro id sent notLogged
    rcases List.mem_append.mp sent with before | now
    · refine once.closed id before fun logged => ?_
      exact notLogged ((mem_logged event run.log id).mpr (.inl logged))
    · cases List.mem_singleton.mp now
      exact absurd ((mem_logged event run.log request.id).mpr (.inr resolves)) notLogged

theorem send_action (once : Once run) {n : Nat} {request : Resolving} {action : Event}
    {rest : List Event} (present : run.requests[n]? = some request)
    (resolved : request.resolution = none) (actions : request.actions = action :: rest) :
    Once { run with
      log := run.log ++ [action]
      requests := run.requests.set n { request with acting := true, actions := rest }
      acted := if request.acting then run.acted else run.acted ++ [request.id] } := by
  have member := List.mem_of_getElem? present
  have made := once.actions request member
  rw [actions] at made
  obtain ⟨isSent, notAnswered⟩ := once.sent request member resolved
  let updated : Resolving := { request with acting := true, actions := rest }
  have members : ∀ other ∈ run.requests.set n updated,
      other = updated ∨ (other ∈ run.requests ∧ other.id ≠ request.id) := fun other =>
    mem_set once.distinct present rfl
  have entries := append_unresolving (made action List.mem_cons_self) run.log
  have inFlight : ∀ id, (id ∈ (run.log ++ [action]).filterMap Event.resolves ∨
      ∃ other ∈ run.requests.set n updated, other.id = id ∧ other.resolution.isSome = true) →
      run.InFlight id := by
    rintro id (logged | ⟨other, inSet, rfl, waits⟩)
    · exact .inl (entries ▸ logged)
    · rcases members other inSet with rfl | ⟨old, _⟩
      · exact .inr ⟨request, member, rfl, waits⟩
      · exact .inr ⟨other, old, rfl, waits⟩
  have acted : ∀ id, id ∈ (if request.acting then run.acted else run.acted ++ [request.id]) →
      id ∈ run.acted ∨ id = request.id := by
    intro id recorded
    split at recorded
    · exact .inl recorded
    · exact (List.mem_append.mp recorded).imp_right List.mem_singleton.mp
  constructor
  case keyed => exact once.keyed
  case distinct => exact distinct_set once.distinct present rfl
  case resolution =>
    intro other inSet event waits
    rcases members other inSet with rfl | ⟨old, _⟩
    · exact once.resolution request member event waits
    · exact once.resolution other old event waits
  case actions =>
    intro other inSet
    rcases members other inSet with rfl | ⟨old, _⟩
    · exact fun later inRest => made later (List.mem_cons_of_mem action inRest)
    · exact once.actions other old
  case unsent =>
    intro other inSet waits
    rcases members other inSet with rfl | ⟨old, _⟩
    · exact once.unsent request member waits
    · exact once.unsent other old waits
  case sent =>
    intro other inSet sent
    rcases members other inSet with rfl | ⟨old, _⟩
    · exact ⟨isSent, notAnswered⟩
    · exact once.sent other old sent
  case quiet =>
    intro other inSet waits recorded
    rcases members other inSet with rfl | ⟨old, differs⟩
    · cases waits
    · rcases acted other.id recorded with before | now
      · exact once.quiet other old waits before
      · exact differs now
  case answered => exact once.answered
  case acted =>
    constructor
    · dsimp only
      split
      · exact once.acted.1
      · rename_i quiet
        rw [List.nodup_append]
        refine ⟨once.acted.1, List.nodup_singleton _, fun id before other only same => ?_⟩
        cases List.mem_singleton.mp only
        exact once.quiet request member (Bool.eq_false_iff.mpr quiet) (same ▸ before)
    · intro id recorded
      rcases acted id recorded with before | rfl
      · exact once.acted.2 before
      · exact isSent
  case logged => exact entries.symm ▸ once.logged
  case open_ => exact fun id decision flies => once.open_ id decision (inFlight id flies)
  case closed => exact fun id sent notLogged => once.closed id sent (entries ▸ notLogged)

/-- A request ends: it has been answered, or it could not send. -/
theorem gone (once : Once run) (n : Nat) :
    Once { run with requests := run.requests.eraseIdx n } := by
  have members : ∀ {other}, other ∈ run.requests.eraseIdx n → other ∈ run.requests :=
    List.mem_of_mem_eraseIdx
  refine { once with
    distinct := ((List.eraseIdx_sublist run.requests n).map (·.id)).nodup once.distinct
    resolution := fun other kept => once.resolution other (members kept)
    actions := fun other kept => once.actions other (members kept)
    unsent := fun other kept => once.unsent other (members kept)
    sent := fun other kept => once.sent other (members kept)
    quiet := fun other kept => once.quiet other (members kept)
    open_ := fun id decision inFlight => once.open_ id decision (inFlight.imp_right ?_) }
  rintro ⟨request, kept, same⟩
  exact ⟨request, members kept, same⟩

theorem answer (once : Once run) {n : Nat} {request : Resolving}
    (present : run.requests[n]? = some request) (resolved : request.resolution = none) :
    Once { run with
      requests := run.requests.eraseIdx n
      answered := run.answered ++ [request.id] } := by
  obtain ⟨isSent, notAnswered⟩ := once.sent request (List.mem_of_getElem? present) resolved
  have ended := once.gone n
  refine { ended with sent := ?_, answered := ?_ }
  · intro other kept sent
    refine ⟨(ended.sent other kept sent).1, fun answered => ?_⟩
    rcases List.mem_append.mp answered with before | now
    · exact (ended.sent other kept sent).2 before
    · exact (mem_eraseIdx once.distinct present kept).2 (List.mem_singleton.mp now)
  · constructor
    · rw [List.nodup_append]
      refine ⟨once.answered.1, List.nodup_singleton _, fun id before other only same => ?_⟩
      cases List.mem_singleton.mp only
      exact notAnswered (same ▸ before)
    · intro id answered
      rcases List.mem_append.mp answered with before | now
      · exact once.answered.2 before
      · cases List.mem_singleton.mp now
        exact isSent

theorem send (once : Once run) (n : Nat) : Once (run.send n) := by
  unfold DecisionRun.send
  cases present : run.requests[n]? with
  | none => exact once
  | some request =>
      dsimp only
      cases resolution : request.resolution with
      | some event => exact once.send_resolution present resolution
      | none =>
          cases actions : request.actions with
          | cons action rest =>
              have going := once.send_action present resolution actions
              rw [resolution] at going
              exact going
          | nil => exact once.answer present resolution

/-- Every move that keeps the resolutions apart leads on. -/
theorem next (once : Once run) (move : DecisionMove) (apart : run.Apart move) :
    Once (run.next move) := by
  cases move with
  | request id chosen message nowMs => exact once.receive apart
  | send n => exact once.send n
  | fail n => exact once.gone n
  | process order clock => exact once.process order clock apart
  | apply order clock event made => exact once.applied order clock made apart
  | append event made =>
      have entries := append_unresolving made run.log
      exact { once with
        logged := entries.symm ▸ once.logged
        open_ := fun id decision inFlight => once.open_ id decision
          (inFlight.imp_left fun logged => entries ▸ logged)
        closed := fun id sent notLogged => once.closed id sent (entries ▸ notLogged) }
  | clean id => exact { once with }

theorem moves (moves : List DecisionMove) (start : DecisionRun) (once : Once start)
    (apart : start.AllApart moves) : Once (moves.foldl DecisionRun.next start) := by
  induction moves generalizing start with
  | nil => exact once
  | cons move rest ih => exact ih (start.next move) (once.next move apart.1) apart.2

end Once

end DecisionRun

/-- While resolutions are kept apart, each decision is answered by at most one request, at
most one request sends its actions, and no resolution is applied over another one or over
a decision that has been superseded. -/
theorem decision_resolved_once (moves : List DecisionMove) (apart : DecisionRun.AllApart {} moves) :
    let run := moves.foldl DecisionRun.next {}
    (∀ id, run.answered.count id ≤ 1) ∧ (∀ id, run.acted.count id ≤ 1) ∧
      ∀ event ∈ run.log.head?, ∀ id, event.resolves = some id →
        ∀ decision : Decision, run.state.decisions[id]? = some decision →
          decision.isResolved = true → ∀ order clock,
            (run.state.applyEvent order clock event).decisions[id]? = some decision := by
  intro run
  have once : run.Once := DecisionRun.Once.moves moves {} .start apart
  refine ⟨List.nodup_iff_count_le_one.mp once.answered.1,
    List.nodup_iff_count_le_one.mp once.acted.1, ?_⟩
  intro event first id resolves decision found resolved
  have logged : id ∈ run.log.filterMap Event.resolves :=
    List.mem_filterMap.mpr ⟨event, List.mem_of_head? first, resolves⟩
  have isOpen := once.open_ id decision (.inl logged) found
  rw [resolved] at isOpen
  cases isOpen

def askIdle (id : DecisionId) : Event :=
  .decisionCreated id "job" none (.job "job") .idle ""
    [⟨"Nudge", none, true⟩, ⟨"Done", none, false⟩, ⟨"Cancel", none, false⟩, ⟨"Dismiss", none, false⟩]
    1 ""

/-- One request is accepted, its resolution and its action are sent, and it is answered. -/
theorem decision_resolved_once_nudge :
    let moves : List DecisionMove := [.apply .byKey ⟨0, 0⟩ (askIdle "ask") rfl,
      .request "ask" (some 1) none 2, .send 0, .send 0, .send 0]
    let run := moves.foldl DecisionRun.next {}
    run.answered = ["ask"] ∧ run.acted = ["ask"] ∧ run.answered.count "ask" ≤ 1 := by
  intro moves run
  have apart : DecisionRun.AllApart {} moves := by
    refine ⟨?_, ?_, trivial, trivial, trivial, trivial⟩
    · intro _
      refine ⟨?_, fun member => nomatch member⟩
      rintro other decision (logged | ⟨_, member, _⟩)
      · cases logged
      · cases member
    · intro resolution _
      rintro (logged | ⟨_, member, _⟩)
      · cases logged
      · cases member
  refine ⟨?_, ?_, (decision_resolved_once moves apart).1 "ask"⟩
  · decide +kernel
  · decide +kernel

/-- Two requests are checked before the engine has applied the resolution of the first. -/
theorem decision_resolved_twice :
    let moves : List DecisionMove := [.apply .byKey ⟨0, 0⟩ (askIdle "ask") rfl,
      .request "ask" (some 1) none 2, .send 0, .send 0, .send 0,
      .request "ask" (some 3) none 3, .send 0, .send 0, .send 0,
      .process .byKey ⟨0, 0⟩, .process .byKey ⟨0, 0⟩]
    let run := moves.foldl DecisionRun.next {}
    run.answered.count "ask" = 2 ∧ run.acted.count "ask" = 2 ∧
      (run.state.decisions["ask"]?).map (·.chosen) = some (some 1) ∧
      ((run.next (.process .byKey ⟨0, 0⟩)).state.decisions["ask"]?).map (·.chosen) =
        some (some 3) := by
  intro moves run
  refine ⟨?_, ?_, ?_, ?_⟩
  · decide +kernel
  · decide +kernel
  · decide +kernel
  · decide +kernel

end OddJobs
