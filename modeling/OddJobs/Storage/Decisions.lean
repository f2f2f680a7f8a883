import OddJobs.Storage.Frames

/-!
# Open decisions

A new decision dismisses the unresolved ones of its owner, and no other event
opens a decision.  Hence an owner never has two unresolved decisions.
-/

namespace OddJobs

open Library

def Event.creates : Event → Option DecisionId
  | decisionCreated id _ _ _ _ _ _ _ _ => some id
  | _ => none

def Event.resolves : Event → Option DecisionId
  | decisionResolved id _ _ _ _ => some id
  | _ => none

/-- A decision after an event: it keeps its owner, and stays resolved. -/
structure Decision.Advances (before after : Decision) : Prop where
  owner : after.owner = before.owner
  resolved : before.isResolved = true → after.isResolved = true
  superseded : after.supersededBy = before.supersededBy ∨ after.isResolved = true

theorem Decision.Advances.refl (decision : Decision) : decision.Advances decision :=
  ⟨rfl, fun resolved => resolved, .inl rfl⟩

theorem Decision.Advances.wasOpen {before after : Decision} (advances : before.Advances after)
    (isOpen : after.isResolved = false) : before.isResolved = false := by
  cases resolved : before.isResolved with
  | false => rfl
  | true => exact isOpen.symm.trans (advances.resolved resolved) |>.symm

theorem Decision.advances_applySuperseded (owner : OwnerId) (id : DecisionId) (createdAtMs : Nat)
    (decision : Decision) : decision.Advances (decision.applySuperseded owner id createdAtMs) := by
  unfold applySuperseded
  split
  · exact ⟨rfl, fun _ => rfl, .inr rfl⟩
  · exact .refl decision

theorem Decision.applySuperseded_isResolved {owner : OwnerId} (id : DecisionId) (createdAtMs : Nat)
    {decision : Decision} (owned : decision.owner = owner) :
    (decision.applySuperseded owner id createdAtMs).isResolved = true := by
  unfold applySuperseded
  split
  · rfl
  · next settled =>
      cases resolved : decision.isResolved with
      | true => rfl
      | false => exact absurd ⟨owned, resolved⟩ settled

/-- At most one decision of an owner is open, and superseded ones are resolved. -/
structure DecisionsSettled (decisions : HashMap Decision) : Prop where
  single : ∀ (id other : DecisionId) (first second : Decision),
    decisions[id]? = some first → decisions[other]? = some second →
    first.owner = second.owner → first.isResolved = false → second.isResolved = false → id = other
  superseded : Table.Every
    (fun _ decision => decision.supersededBy.isSome = true → decision.isResolved = true) decisions

namespace DecisionsSettled

variable {before after : HashMap Decision}

theorem empty : DecisionsSettled ∅ where
  single := by
    intro id other first second found
    rw [Table.lookup_empty] at found
    cases found
  superseded := Table.every_empty

/-- Decisions may go or be resolved. -/
theorem shrink (settled : DecisionsSettled before)
    (within : Table.Within Decision.Advances before after) : DecisionsSettled after where
  single := by
    intro id other first second foundFirst foundSecond sameOwner firstOpen secondOpen
    obtain ⟨first', wasFirst, firstAdvances⟩ := within id first foundFirst
    obtain ⟨second', wasSecond, secondAdvances⟩ := within other second foundSecond
    have owners : first'.owner = second'.owner :=
      firstAdvances.owner.symm.trans (sameOwner.trans secondAdvances.owner)
    exact settled.single id other first' second' wasFirst wasSecond owners
      (firstAdvances.wasOpen firstOpen) (secondAdvances.wasOpen secondOpen)
  superseded := by
    intro id decision found marked
    obtain ⟨decision', was, advances⟩ := within id decision found
    rcases advances.superseded with kept | resolved
    · rw [kept] at marked
      exact advances.resolved (settled.superseded id decision' was marked)
    · exact resolved

/-- A decision opens when no other decision of its owner is open. -/
theorem open_ (settled : DecisionsSettled before) (id : DecisionId) {decision : Decision}
    (fresh : decision.supersededBy = none)
    (closed : Table.Every
      (fun _ other => other.owner = decision.owner → other.isResolved = true) before) :
    DecisionsSettled (before.insert id decision) where
  single := by
    intro first second firstDecision secondDecision foundFirst foundSecond sameOwner firstOpen
      secondOpen
    rw [Table.lookup_insert] at foundFirst foundSecond
    split at foundFirst <;> split at foundSecond
    · next firstSame secondSame => exact firstSame.symm.trans secondSame
    · cases foundFirst
      have resolved := closed second secondDecision foundSecond sameOwner.symm
      exact absurd (secondOpen.symm.trans resolved) Bool.false_ne_true
    · cases foundSecond
      have resolved := closed first firstDecision foundFirst sameOwner
      exact absurd (firstOpen.symm.trans resolved) Bool.false_ne_true
    · exact settled.single first second firstDecision secondDecision foundFirst foundSecond
        sameOwner firstOpen secondOpen
  superseded := by
    refine settled.superseded.insert fun marked => ?_
    rw [fresh] at marked
    cases marked

end DecisionsSettled

namespace MaterializedState

/-- The owner's status does not touch the decisions. -/
theorem applyDecisionCreated_decisions (id : String) (jobId : JobId) (agentId : Option String)
    (owner : OwnerId) (source : DecisionSource) (context : String)
    (options : List DecisionOption) (createdAtMs : Nat) (ns : String)
    (state : MaterializedState) :
    (state.applyDecisionCreated id jobId agentId owner source context options createdAtMs
      ns).decisions =
      if state.decisions.contains id then state.decisions
      else (state.decisions.map fun _ existing =>
        existing.applySuperseded owner id createdAtMs).insert id {
          id
          jobId
          agentId
          owner
          source
          context
          options
          chosen := none
          message := none
          createdAtMs
          resolvedAtMs := none
          supersededBy := none
          ns } := by
  unfold applyDecisionCreated
  cases state.decisions.contains id <;> cases owner <;> rfl

theorem decisionsSettled_created (id : String) (jobId : JobId) (agentId : Option String)
    (owner : OwnerId) (source : DecisionSource) (context : String)
    (options : List DecisionOption) (createdAtMs : Nat) (ns : String)
    {state : MaterializedState} (settled : DecisionsSettled state.decisions) :
    DecisionsSettled (state.applyDecisionCreated id jobId agentId owner source context options
      createdAtMs ns).decisions := by
  rw [applyDecisionCreated_decisions]
  split
  · exact settled
  · have dismissed : DecisionsSettled (state.decisions.map fun _ existing =>
        existing.applySuperseded owner id createdAtMs) :=
      settled.shrink (Table.Within.map state.decisions fun _ existing =>
        existing.advances_applySuperseded owner id createdAtMs)
    refine dismissed.open_ id rfl ?_
    intro other existing found owned
    rw [Table.lookup_map] at found
    obtain ⟨prior, _, rfl⟩ := Option.map_eq_some_iff.mp found
    have advances := prior.advances_applySuperseded owner id createdAtMs
    exact prior.applySuperseded_isResolved id createdAtMs (advances.owner.symm.trans owned)

/-- Decisions may go, but none is changed or added. -/
def LetsGo (before after : HashMap Decision) : Prop := Table.Within Eq before after

theorem applyJobAdvanced_letsGo (clock : Clock) (id : JobId) (step : String)
    (state : MaterializedState) :
    LetsGo state.decisions (state.applyJobAdvanced clock id step).decisions := by
  have kept : LetsGo state.decisions state.decisions := Table.Within.refl (fun _ => rfl) _
  unfold applyJobAdvanced
  split
  · exact kept
  · dsimp only
    split
    · exact Table.Within.filter (fun _ => rfl) state.decisions _
    · exact kept

theorem applyAgentRunStatusChanged_letsGo (clock : Clock) (id : AgentRunId)
    (status : AgentRunStatus) (reason : Option String) (state : MaterializedState) :
    LetsGo state.decisions (state.applyAgentRunStatusChanged clock id status reason).decisions := by
  unfold applyAgentRunStatusChanged
  dsimp only
  split
  · exact Table.Within.filter (fun _ => rfl) state.decisions _
  · exact Table.Within.refl (fun _ => rfl) state.decisions

/-- Only `DecisionCreated` opens a decision, and only `DecisionResolved` changes one: the
others let them go. -/
theorem applyEvent_letsGo (order : WalkOrder) (clock : Clock) (state : MaterializedState)
    {event : Event} (creates : event.creates = none) (resolves : event.resolves = none) :
    LetsGo state.decisions (state.applyEvent order clock event).decisions := by
  have kept : LetsGo state.decisions state.decisions := Table.Within.refl (fun _ => rfl) _
  cases event with
  | decisionCreated => cases creates
  | decisionResolved => cases resolves
  | jobDeleted id => exact Table.Within.filter (fun _ => rfl) state.decisions _
  | jobAdvanced id step => exact applyJobAdvanced_letsGo clock id step state
  | agentRunStatusChanged id status reason =>
      exact applyAgentRunStatusChanged_letsGo clock id status reason state
  | agentWorking agentId owner =>
      exact (SameTables.updateOwnerJob state owner _).decisions.symm ▸ kept
  | agentExited agentId exitCode owner =>
      exact (SameTables.updateOwnerJob state owner _).decisions.symm ▸ kept
  | agentFailed agentId error owner =>
      exact (SameTables.updateOwnerJob state owner _).decisions.symm ▸ kept
  | agentGone agentId owner =>
      exact (SameTables.updateOwnerJob state owner _).decisions.symm ▸ kept
  | stepStarted jobId step agentId agentName =>
      exact (SameTables.stepStarted state clock jobId agentId agentName).decisions.symm ▸ kept
  | sessionCreated id owner =>
      exact (SameTables.sessionCreated state id owner).decisions.symm ▸ kept
  | workspaceCreated id path branch owner workspaceType =>
      exact (SameTables.workspaceCreated state clock id path branch owner
        workspaceType).decisions.symm ▸ kept
  | agentSignal agentId kind message =>
      exact (SameTables.agentSignal state order agentId kind message).decisions.symm ▸ kept
  | workerStarted workerName projectRoot runbookHash queueName concurrency ns =>
      exact (SameTables.recordProjectRoot state ns projectRoot).decisions.symm ▸ kept
  | cronStarted cronName projectRoot runbookHash interval runTarget ns =>
      exact (SameTables.recordProjectRoot state ns projectRoot).decisions.symm ▸ kept
  | agentRunStarted id agentId =>
      exact (SameTables.agentRunStarted state clock id agentId).decisions.symm ▸ kept
  | commandRun jobId jobName projectRoot invokeDir ns command args =>
      exact (SameTables.recordProjectRoot state ns projectRoot).decisions.symm ▸ kept
  | _ => exact kept

/-- Only `DecisionCreated` opens a decision: the others let them go or resolve them. -/
theorem applyEvent_decisions_within (order : WalkOrder) (clock : Clock)
    (state : MaterializedState) {event : Event} (creates : event.creates = none) :
    Table.Within Decision.Advances state.decisions
      (state.applyEvent order clock event).decisions := by
  cases resolves : event.resolves with
  | none =>
      intro key decision found
      obtain ⟨prior, present, rfl⟩ := applyEvent_letsGo order clock state creates resolves key
        decision found
      exact ⟨prior, present, .refl prior⟩
  | some id =>
      cases event with
      | decisionResolved =>
          exact Table.Within.modify Decision.Advances.refl state.decisions _ fun _ =>
            ⟨rfl, fun _ => rfl, .inl rfl⟩
      | _ => cases resolves

theorem decisionsSettled_applyEvent (order : WalkOrder) (clock : Clock)
    (state : MaterializedState) (event : Event) (settled : DecisionsSettled state.decisions) :
    DecisionsSettled (state.applyEvent order clock event).decisions := by
  cases creates : event.creates with
  | none => exact settled.shrink (applyEvent_decisions_within order clock state creates)
  | some id =>
      cases event with
      | decisionCreated other jobId agentId owner source context options createdAtMs ns =>
          exact decisionsSettled_created other jobId agentId owner source context options createdAtMs
            ns settled
      | _ => cases creates

/-- In every state that events lead to, an owner has at most one unresolved
decision, and superseded decisions are resolved. -/
theorem replay_decisionsSettled (orders : Nat → WalkOrder) (clocks : Nat → Clock)
    (events : List Event) :
    let decisions := (({} : MaterializedState).replay orders clocks 0 events).decisions
    (∀ (id other : DecisionId) (first second : Decision),
      decisions[id]? = some first → decisions[other]? = some second →
      first.owner = second.owner → first.isResolved = false → second.isResolved = false →
      id = other) ∧
    ∀ (id : DecisionId) (decision : Decision), decisions[id]? = some decision →
      decision.supersededBy.isSome = true → decision.isResolved = true := by
  intro decisions
  have settled : DecisionsSettled decisions :=
    @replay_invariant (fun state => DecisionsSettled state.decisions)
      decisionsSettled_applyEvent orders clocks events {} 0 .empty
  exact ⟨settled.single, settled.superseded⟩

/-- A second question of the same run: of the two only the later one is open. -/
theorem replay_decisionsSettled_second :
    let ask : String → Event := fun id =>
      .decisionCreated id "" none (.agentRun "run") .question "" [] 1 ""
    let decisions := (({} : MaterializedState).replay (fun _ => .byKey) (fun _ => ⟨0, 0⟩) 0
      [ask "first", ask "second"]).decisions
    ∃ first second : Decision, decisions["first"]? = some first ∧
      decisions["second"]? = some second ∧ first.owner = second.owner ∧
      second.isResolved = false ∧ (first.isResolved = false → "first" = "second") ∧
      first.supersededBy.isSome = true ∧ first.isResolved = true := by
  intro ask decisions
  have settled := replay_decisionsSettled (fun _ => .byKey) (fun _ => ⟨0, 0⟩)
    [ask "first", ask "second"]
  have both : ∃ first second : Decision, decisions["first"]? = some first ∧
      decisions["second"]? = some second ∧ first.owner = second.owner ∧
      second.isResolved = false ∧ first.supersededBy.isSome = true := by
    have values : (decisions["first"]?).isSome = true ∧ (decisions["second"]?).isSome = true ∧
        (decisions["first"]?).map (·.owner) = (decisions["second"]?).map (·.owner) ∧
        (decisions["second"]?).map (·.isResolved) = some false ∧
        (decisions["first"]?).map (·.supersededBy.isSome) = some true := by
      decide +kernel
    obtain ⟨hasFirst, hasSecond, owners, isOpen, marked⟩ := values
    obtain ⟨first, foundFirst⟩ := Option.isSome_iff_exists.mp hasFirst
    obtain ⟨second, foundSecond⟩ := Option.isSome_iff_exists.mp hasSecond
    rw [foundFirst, foundSecond] at owners
    rw [foundSecond] at isOpen
    rw [foundFirst] at marked
    exact ⟨first, second, foundFirst, foundSecond, Option.some.inj owners,
      Option.some.inj isOpen, Option.some.inj marked⟩
  obtain ⟨first, second, foundFirst, foundSecond, owners, isOpen, marked⟩ := both
  exact ⟨first, second, foundFirst, foundSecond, owners, isOpen,
    fun firstOpen => settled.1 "first" "second" first second foundFirst foundSecond owners
      firstOpen isOpen,
    marked, settled.2 "first" first foundFirst marked⟩

end MaterializedState

end OddJobs
