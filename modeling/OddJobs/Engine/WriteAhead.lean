import OddJobs.Engine.Executor
import OddJobs.Storage.Agreement

/-!
# Write-ahead completeness of the executor

The events that a list of effects applies to the shared state, those that it
hands back to be logged, and when the log alone gives the state left behind.
-/

namespace OddJobs

open Library MaterializedState

/-- What one effect or a list of them does with events: those applied to the
state, those handed back if it ends well, whether it does, and the workspace it
leaves half removed. -/
structure Performed where
  applied : List Event
  handed : List Event
  ok : Bool
  cleaning : Option WorkspaceId := none

/-- The state after some events, whatever the clock says. -/
def foldEvents (order : WalkOrder) (state : MaterializedState) (events : List Event) :
    MaterializedState :=
  events.foldl (fun state event => state.applyEvent order default event) state

def Performed.left (performed : Performed) (order : WalkOrder) (state : MaterializedState) :
    MaterializedState :=
  let state := foldEvents order state performed.applied
  match performed.cleaning with
  | none => state
  | some id => state.updateWorkspace id .cleaning

def Performed.logged (performed : Performed) : List Event :=
  if performed.ok then performed.handed else []

/-- The events handed back after a list of effects. -/
def logged : Except ExecuteError (List Event) → List Event
  | .ok events => events
  | .error _ => []

namespace Effect

def single (event : Option Event) : Performed where
  applied := event.toList
  handed := event.toList
  ok := true

def failed (applied : List Event) : Performed where
  applied
  handed := []
  ok := false

/-- Whether the directory of a new workspace can be made, with the events of the
attempt. -/
def prepares (workspaceId : WorkspaceId) (isWorktree : Bool) (repoRoot : Option PathBuf)
    (branch : Option String) (reply : Reply) : List Event × Bool :=
  match reply.created with
  | .error _ => ([], false)
  | .ok () =>
      if isWorktree then
        match repoRoot, branch, reply.git with
        | some _, some _, .ok output =>
            if output.success then ([], true)
            else ([.workspaceFailed workspaceId
              ("git worktree add failed: " ++ String.ofList (Text.trim output.stderr.toList))], false)
        | _, _, _ => ([], false)
      else ([], true)

def perform (state : MaterializedState) (reply : Reply) : Effect → Performed
  | emit event => single (some event)
  | spawnAgent _ _ owner _ _ _ _ _ _ =>
      match reply.spawned with
      | .error _ => failed []
      | .ok sessionId => single (some (.sessionCreated sessionId owner))
  | sendToAgent _ _ | killAgent _ | sendToSession _ _ | killSession _ =>
      match reply.delivered with
      | .error _ => failed []
      | .ok () => single none
  | createWorkspace workspaceId path owner workspaceType repoRoot branch _ =>
      let created := .workspaceCreated workspaceId path branch owner workspaceType
      match prepares workspaceId (workspaceType == some "worktree") repoRoot branch reply with
      | (events, false) => failed (created :: events)
      | (_, true) =>
          { applied := [created, .workspaceReady workspaceId]
            handed := [.workspaceReady workspaceId]
            ok := true }
  | deleteWorkspace workspaceId =>
      if state.workspaces.contains workspaceId then
        match reply.removed with
        | .error _ => { failed [] with cleaning := some workspaceId }
        | .ok () => single (some (.workspaceDeleted workspaceId))
      else failed []
  | setTimer _ _ | cancelTimer _ | shell _ _ _ _ _ | pollQueue _ _ _ | takeQueueItem _ _ _ _ _
  | notify _ _ => single none

/-- What a list of effects does with events: it stops at the first failure. -/
def performAll (order : WalkOrder) (state : MaterializedState) (replies : Nat → Reply) :
    List Effect → Performed
  | [] => single none
  | effect :: rest =>
      let first := effect.perform state (replies 0)
      if first.ok then
        let later := performAll order (foldEvents order state first.applied)
          (fun n => replies (n + 1)) rest
        { applied := first.applied ++ later.applied
          handed := first.handed ++ later.handed
          ok := later.ok
          cleaning := later.cleaning }
      else first

end Effect

/-! ## One effect -/

/-- The executor does what is performed: it leaves that state behind, and returns
what is handed back. -/
def Carries (order : WalkOrder) (folded : MaterializedState) (performed : Performed)
    {α : Type} (hand : α → List Event) (result : Except ExecuteError α × World) : Prop :=
  Agrees false result.2.state (performed.left order folded) ∧
    match result.1 with
    | .ok value => performed.ok = true ∧ performed.handed = hand value
    | .error _ => performed.ok = false

theorem apply_run (order : WalkOrder) (event : Event) (world : World) :
    Exec.apply order event world = (.ok (), { world with
      clocks := fun n => world.clocks (n + 1)
      state := world.state.applyEvent order (world.clocks 0) event
      applied := world.applied ++ [event] }) := rfl

theorem foldEvents_append (order : WalkOrder) (state : MaterializedState)
    (first second : List Event) :
    foldEvents order state (first ++ second) =
      foldEvents order (foldEvents order state first) second :=
  List.foldl_append

variable {order : WalkOrder} {folded : MaterializedState} {world : World}

theorem prepares_ok {workspaceId : WorkspaceId} {isWorktree : Bool} {repoRoot : Option PathBuf}
    {branch : Option String} {reply : Reply}
    (ok : (Effect.prepares workspaceId isWorktree repoRoot branch reply).2 = true) :
    (Effect.prepares workspaceId isWorktree repoRoot branch reply).1 = [] := by
  unfold Effect.prepares at ok ⊢
  cases created : reply.created with
  | error error => rfl
  | ok done =>
      cases isWorktree with
      | false => rfl
      | true =>
          cases repoRoot with
          | none => rfl
          | some repoRoot =>
              cases branch with
              | none => rfl
              | some branch =>
                  cases git : reply.git with
                  | error error => rfl
                  | ok output =>
                      cases ended : output.success with
                      | true => simp [ended]
                      | false => simp [created, git, ended] at ok

/-- The attempt to make a directory changes the state through its events. -/
theorem prepareWorkspace_carries (agrees : Agrees false world.state folded) (workspaceId : WorkspaceId)
    (path : PathBuf) (isWorktree : Bool) (repoRoot : Option PathBuf)
    (branch startPoint : Option String) (reply : Reply) :
    let prepared := Effect.prepares workspaceId isWorktree repoRoot branch reply
    let run := Executor.prepareWorkspace order workspaceId path isWorktree repoRoot branch startPoint
      reply world
    run.2.replies = world.replies ∧
      Carries order folded { applied := prepared.1, handed := [], ok := prepared.2 }
        (fun _ => []) run := by
  cases created : reply.created with
  | error error =>
      cases isWorktree with
      | false =>
          simp only [Executor.prepareWorkspace, Effect.prepares, created]
          exact ⟨rfl, agrees, rfl⟩
      | true =>
          simp only [Executor.prepareWorkspace, Effect.prepares, created]
          exact ⟨rfl, agrees, rfl⟩
  | ok done =>
      cases isWorktree with
      | false =>
          simp only [Executor.prepareWorkspace, Effect.prepares, created]
          exact ⟨rfl, agrees, rfl, rfl⟩
      | true =>
          cases repoRoot with
          | none =>
              simp only [Executor.prepareWorkspace, Effect.prepares, created]
              exact ⟨rfl, agrees, rfl⟩
          | some repoRoot =>
              cases branch with
              | none =>
                  simp only [Executor.prepareWorkspace, Effect.prepares, created]
                  exact ⟨rfl, agrees, rfl⟩
              | some branch =>
                  cases git : reply.git with
                  | error error =>
                      simp only [Executor.prepareWorkspace, Effect.prepares, created, git]
                      exact ⟨rfl, agrees, rfl⟩
                  | ok output =>
                      cases ended : output.success with
                      | true =>
                          simp only [Executor.prepareWorkspace, Effect.prepares, created, git,
                            ended, ↓reduceIte, shellError, Exec.request, Program.run_bind,
                            Program.run_pure, Program.run_modify]
                          exact ⟨trivial, agrees, rfl, rfl⟩
                      | false =>
                          simp only [Executor.prepareWorkspace, Effect.prepares, created, git,
                            ended, ↓reduceIte, shellError, Exec.request, Program.run_bind,
                            Program.run_pure, Program.run_modify, Bool.false_eq_true]
                          exact ⟨rfl, agrees.applyEvent order (world.clocks 0) default
                            (.workspaceFailed workspaceId ("git worktree add failed: " ++
                              String.ofList (Text.trim output.stderr.toList))), rfl⟩

/-- A new workspace: its creation and its end are applied, only the latter is
handed back. -/
theorem createWorkspace_carries (agrees : Agrees false world.state folded) (reply : Reply)
    (workspaceId : WorkspaceId) (path : PathBuf) (owner : Option OwnerId)
    (workspaceType : Option String) (repoRoot : Option PathBuf) (branch startPoint : Option String) :
    let run := Executor.createWorkspace order workspaceId path owner workspaceType repoRoot branch
      startPoint reply world
    run.2.replies = world.replies ∧
      Carries order folded
        ((Effect.createWorkspace workspaceId path owner workspaceType repoRoot branch
          startPoint).perform folded reply) Option.toList run := by
  have created := agrees.applyEvent order (world.clocks 0) default
    (.workspaceCreated workspaceId path branch owner workspaceType)
  obtain ⟨replies, prepared⟩ := @prepareWorkspace_carries order _ { world with
      clocks := fun n => world.clocks (n + 1)
      state := world.state.applyEvent order (world.clocks 0)
        (.workspaceCreated workspaceId path branch owner workspaceType)
      applied := world.applied ++ [.workspaceCreated workspaceId path branch owner workspaceType] }
      created workspaceId path
    (workspaceType == some "worktree") repoRoot branch startPoint reply
  simp only [Executor.createWorkspace, Program.run_bind, apply_run]
  revert replies prepared
  generalize Executor.prepareWorkspace order workspaceId path (workspaceType == some "worktree")
    repoRoot branch startPoint reply _ = run
  intro replies prepared
  obtain ⟨result, after⟩ := run
  obtain ⟨state, ending⟩ := prepared
  have prepared := @prepares_ok workspaceId (workspaceType == some "worktree") repoRoot branch reply
  revert state ending prepared
  simp only [Effect.perform]
  generalize Effect.prepares workspaceId (workspaceType == some "worktree") repoRoot branch reply =
    attempt
  obtain ⟨events, ok⟩ := attempt
  intro state ending prepared
  cases result with
  | error error =>
      cases ending
      exact ⟨replies, state, rfl⟩
  | ok done =>
      cases ending.1
      cases prepared rfl
      exact ⟨replies, state.applyEvent order (after.clocks 0) default (.workspaceReady workspaceId),
        rfl, rfl⟩

/-- Marking a workspace before it is deleted makes no difference. -/
theorem erase_cleaning (table : HashMap Workspace) (id : WorkspaceId)
    (update : Workspace → Workspace) : (table.modify id update).erase id = table.erase id := by
  apply Table.ext
  intro key
  simp only [Table.lookup_erase, Table.lookup_modify]
  by_cases same : id = key
  · simp only [same, ↓reduceIte]
  · simp only [same, ↓reduceIte]

theorem deleteWorkspace_carries (agrees : Agrees false world.state folded) (reply : Reply)
    (workspaceId : WorkspaceId) :
    let run := Executor.deleteWorkspace order workspaceId reply world
    run.2.replies = world.replies ∧
      Carries order folded ((Effect.deleteWorkspace workspaceId).perform folded reply)
        Option.toList run := by
  have present := agrees.workspaces.contains_eq workspaceId
  rw [Table.contains_eq_isSome] at present
  simp only [Effect.perform, ← present, Executor.deleteWorkspace, Program.run_bind, Program.run_read]
  cases found : world.state.workspaces[workspaceId]? with
  | none => exact ⟨rfl, agrees, rfl⟩
  | some workspace =>
      simp only [Option.isSome_some, ↓reduceIte, Program.run_bind, Program.run_modify]
      cases removed : reply.removed with
      | error error => exact ⟨rfl, agrees.updateWorkspace workspaceId .cleaning, rfl⟩
      | ok done =>
          refine ⟨rfl, ?_, rfl, rfl⟩
          have deleted := agrees.applyEvent order (world.clocks 0) default
            (.workspaceDeleted workspaceId)
          have same : (world.state.updateWorkspace workspaceId .cleaning).workspaces.erase
              workspaceId = world.state.workspaces.erase workspaceId :=
            erase_cleaning world.state.workspaces workspaceId _
          have erased : Table.Related (Workspace.Agrees false)
              ((world.state.updateWorkspace workspaceId .cleaning).workspaces.erase workspaceId)
              (folded.workspaces.erase workspaceId) := by
            rw [same]
            exact deleted.workspaces
          exact { deleted with workspaces := erased }

theorem executeInner_carries (agrees : Agrees false world.state folded) (reply : Reply)
    (effect : Effect) :
    (Executor.executeInner order reply effect world).2.replies = world.replies ∧
      Carries order folded (effect.perform folded reply) Option.toList
        (Executor.executeInner order reply effect world) := by
  cases effect with
  | emit event =>
      exact ⟨rfl, agrees.applyEvent order (world.clocks 0) default event, rfl, rfl⟩
  | spawnAgent agentId agentName owner workspacePath input command env cwd sessionConfig =>
      cases spawned : reply.spawned with
      | error error =>
          simp only [Executor.executeInner, Effect.perform, spawned]
          exact ⟨rfl, agrees, rfl⟩
      | ok sessionId =>
          simp only [Executor.executeInner, Effect.perform, spawned]
          exact ⟨rfl, agrees.applyEvent order (world.clocks 0) default
            (.sessionCreated sessionId owner), rfl, rfl⟩
  | sendToAgent agentId input =>
      cases delivered : reply.delivered <;>
        simp only [Executor.executeInner, Effect.perform, delivered]
      · exact ⟨rfl, agrees, rfl⟩
      · exact ⟨rfl, agrees, rfl, rfl⟩
  | killAgent agentId =>
      cases delivered : reply.delivered <;>
        simp only [Executor.executeInner, Effect.perform, delivered]
      · exact ⟨rfl, agrees, rfl⟩
      · exact ⟨rfl, agrees, rfl, rfl⟩
  | sendToSession sessionId input =>
      cases delivered : reply.delivered <;>
        simp only [Executor.executeInner, Effect.perform, delivered]
      · exact ⟨rfl, agrees, rfl⟩
      · exact ⟨rfl, agrees, rfl, rfl⟩
  | killSession sessionId =>
      cases delivered : reply.delivered <;>
        simp only [Executor.executeInner, Effect.perform, delivered]
      · exact ⟨rfl, agrees, rfl⟩
      · exact ⟨rfl, agrees, rfl, rfl⟩
  | createWorkspace workspaceId path owner workspaceType repoRoot branch startPoint =>
      exact createWorkspace_carries agrees reply workspaceId path owner workspaceType repoRoot branch
        startPoint
  | deleteWorkspace workspaceId => exact deleteWorkspace_carries agrees reply workspaceId
  | setTimer id duration => exact ⟨rfl, agrees, rfl, rfl⟩
  | cancelTimer id => exact ⟨rfl, agrees, rfl, rfl⟩
  | shell owner step command cwd env => exact ⟨rfl, agrees, rfl, rfl⟩
  | pollQueue workerName listCommand cwd => exact ⟨rfl, agrees, rfl, rfl⟩
  | takeQueueItem workerName takeCommand cwd itemId item => exact ⟨rfl, agrees, rfl, rfl⟩
  | notify title message => exact ⟨rfl, agrees, rfl, rfl⟩

/-! ## A list of effects -/

theorem execute_carries (agrees : Agrees false world.state folded) (effect : Effect) :
    (Executor.execute order effect world).2.replies = (fun n => world.replies (n + 1)) ∧
      Carries order folded (effect.perform folded (world.replies 0)) Option.toList
        (Executor.execute order effect world) :=
  @executeInner_carries order folded { world with replies := fun n => world.replies (n + 1) } agrees
    (world.replies 0) effect

/-- Nothing is left half removed by an effect that ends well. -/
theorem perform_cleaning {effect : Effect} {reply : Reply}
    (ok : (effect.perform folded reply).ok = true) :
    (effect.perform folded reply).cleaning = none := by
  cases effect with
  | deleteWorkspace workspaceId =>
      simp only [Effect.perform] at ok ⊢
      cases present : folded.workspaces.contains workspaceId with
      | false => rfl
      | true =>
          cases removed : reply.removed with
          | error error =>
              rw [present, removed] at ok
              cases ok
          | ok done => rfl
  | createWorkspace workspaceId path owner workspaceType repoRoot branch startPoint =>
      simp only [Effect.perform]
      split <;> rfl
  | spawnAgent agentId agentName owner workspacePath input command env cwd sessionConfig =>
      simp only [Effect.perform]
      split <;> rfl
  | sendToAgent | killAgent | sendToSession | killSession =>
      simp only [Effect.perform]
      split <;> rfl
  | emit | setTimer | cancelTimer | shell | pollQueue | takeQueueItem | notify => rfl

theorem executeAll_carries (agrees : Agrees false world.state folded) (effects : List Effect) :
    Carries order folded (Effect.performAll order folded world.replies effects) id
      (Executor.executeAll order effects world) := by
  induction effects generalizing world folded with
  | nil => exact ⟨agrees, rfl, rfl⟩
  | cons effect rest ih =>
      obtain ⟨replies, state, ending⟩ := @execute_carries order folded world agrees effect
      have clean := @perform_cleaning folded effect (world.replies 0)
      simp only [Executor.executeAll, Program.run_bind, Effect.performAll]
      revert replies state ending clean
      generalize Executor.execute order effect world = run
      generalize effect.perform folded (world.replies 0) = performed
      obtain ⟨result, after⟩ := run
      intro replies state ending clean
      cases result with
      | error error =>
          cases ended : performed.ok with
          | true => exact absurd (ended.symm.trans ending) nofun
          | false => exact ⟨state, ended⟩
      | ok event =>
          obtain ⟨ended, handed⟩ := ending
          have left : performed.left order folded = foldEvents order folded performed.applied := by
            simp only [Performed.left, clean ended]
          rw [left] at state
          have later := @ih _ after state
          simp only [] at replies
          rw [replies] at later
          simp only []
          revert later
          generalize Executor.executeAll order rest after = run
          generalize Effect.performAll order (foldEvents order folded performed.applied)
            (fun n => world.replies (n + 1)) rest = performedLater
          obtain ⟨resultLater, afterLater⟩ := run
          rintro ⟨stateLater, endingLater⟩
          simp only [ended, ↓reduceIte]
          have joined : ({ applied := performed.applied ++ performedLater.applied
                           handed := performed.handed ++ performedLater.handed
                           ok := performedLater.ok
                           cleaning := performedLater.cleaning } : Performed).left order folded =
              performedLater.left order (foldEvents order folded performed.applied) := by
            simp only [Performed.left, foldEvents_append]
          cases resultLater with
          | error error =>
              refine ⟨?_, endingLater⟩
              rw [joined]
              exact stateLater
          | ok events =>
              refine ⟨?_, endingLater.1, ?_⟩
              · rw [joined]
                exact stateLater
              · exact congrArg₂ (· ++ ·) handed endingLater.2

/-! ## The log and the state -/

theorem foldEvents_eq_replay (order : WalkOrder) (state : MaterializedState) (events : List Event)
    (n : Nat) :
    foldEvents order state events = state.replay (fun _ => order) (fun _ => default) n events := by
  induction events generalizing state n with
  | nil => rfl
  | cons event rest ih => exact ih _ (n + 1)

theorem logged_eq {performed : Performed} {result : Except ExecuteError (List Event) × World}
    (carries : Carries order folded performed id result) :
    logged result.1 = performed.logged := by
  obtain ⟨result, after⟩ := result
  obtain ⟨_, ending⟩ := carries
  cases result with
  | error error =>
      have ended : performed.ok = false := ending
      simp only [logged, Performed.logged, ended, Bool.false_eq_true, ↓reduceIte]
  | ok events =>
      obtain ⟨ended, handed⟩ : performed.ok = true ∧ performed.handed = events := ending
      simp only [logged, Performed.logged, ended, handed, ↓reduceIte]

/-- A workspace being cleaned agrees with what it was. -/
theorem agrees_cleaning (state : MaterializedState) (id : WorkspaceId) :
    Agrees true (state.updateWorkspace id .cleaning) state :=
  { Agrees.refl true state with
    workspaces := (Agrees.refl true state).workspaces.modify_left id fun _ _ held => by
      rcases held with equal | ⟨_, cleaning⟩
      · have marked := congrArg (fun workspace : Workspace => { workspace with status := .cleaning })
          equal
        exact Or.inr ⟨rfl, marked⟩
      · have marked := congrArg (fun workspace : Workspace => { workspace with status := .cleaning })
          cleaning
        exact Or.inr ⟨rfl, marked⟩ }

def Effect.createsWorkspace : Effect → Bool
  | createWorkspace _ _ _ _ _ _ _ => true
  | _ => false

/-- An effect that creates no workspace hands back what it applies, if it ends well. -/
theorem perform_handed {effect : Effect} {reply : Reply}
    (other : effect.createsWorkspace = false)
    (ok : (effect.perform folded reply).ok = true) :
    (effect.perform folded reply).handed = (effect.perform folded reply).applied := by
  cases effect with
  | createWorkspace => cases other
  | deleteWorkspace workspaceId =>
      simp only [Effect.perform]
      split
      · split <;> rfl
      · rfl
  | spawnAgent agentId agentName owner workspacePath input command env cwd sessionConfig =>
      simp only [Effect.perform]
      split <;> rfl
  | sendToAgent | killAgent | sendToSession | killSession =>
      simp only [Effect.perform]
      split <;> rfl
  | emit | setTimer | cancelTimer | shell | pollQueue | takeQueueItem | notify => rfl

theorem performAll_handed (order : WalkOrder) {effects : List Effect} {replies : Nat → Reply}
    (others : ∀ effect ∈ effects, effect.createsWorkspace = false)
    (ok : (Effect.performAll order folded replies effects).ok = true) :
    (Effect.performAll order folded replies effects).handed =
      (Effect.performAll order folded replies effects).applied := by
  induction effects generalizing folded replies with
  | nil => rfl
  | cons effect rest ih =>
      obtain ⟨other, later⟩ := List.forall_mem_cons.mp others
      simp only [Effect.performAll] at ok ⊢
      cases ended : (effect.perform folded (replies 0)).ok with
      | false => simp [ended] at ok
      | true =>
          simp only [ended, ↓reduceIte] at ok ⊢
          rw [perform_handed other ended, ih later ok]

theorem perform_withheld {effect : Effect} {reply : Reply} (creates : effect.createsWorkspace = true)
    (ok : (effect.perform folded reply).ok = true) :
    (effect.perform folded reply).handed.length < (effect.perform folded reply).applied.length := by
  cases effect with
  | createWorkspace workspaceId path owner workspaceType repoRoot branch startPoint =>
      simp only [Effect.perform] at ok ⊢
      split
      · rename_i failed
        rw [failed] at ok
        cases ok
      · exact Nat.lt_succ_self 1
  | _ => cases creates

theorem performAll_length (order : WalkOrder) {effects : List Effect} {replies : Nat → Reply}
    (ok : (Effect.performAll order folded replies effects).ok = true) :
    (Effect.performAll order folded replies effects).handed.length +
        effects.countP Effect.createsWorkspace ≤
      (Effect.performAll order folded replies effects).applied.length := by
  induction effects generalizing folded replies with
  | nil => exact Nat.le_refl _
  | cons effect rest ih =>
      simp only [Effect.performAll] at ok ⊢
      cases ended : (effect.perform folded (replies 0)).ok with
      | false => simp [ended] at ok
      | true =>
          simp only [ended, ↓reduceIte, List.length_append] at ok ⊢
          have later := ih ok
          cases creates : effect.createsWorkspace with
          | true =>
              have here := perform_withheld creates ended
              rw [List.countP_cons_of_pos creates]
              omega
          | false =>
              have here := congrArg List.length (perform_handed creates ended)
              rw [List.countP_cons_of_neg (by rw [creates]; exact Bool.false_ne_true)]
              omega

theorem performAll_cleaning (order : WalkOrder) {effects : List Effect} {replies : Nat → Reply}
    (ok : (Effect.performAll order folded replies effects).ok = true) :
    (Effect.performAll order folded replies effects).cleaning = none := by
  induction effects generalizing folded replies with
  | nil => rfl
  | cons effect rest ih =>
      simp only [Effect.performAll] at ok ⊢
      cases ended : (effect.perform folded (replies 0)).ok with
      | false => simp [ended] at ok
      | true =>
          simp only [ended, ↓reduceIte] at ok ⊢
          exact ih ok

/-- No event is withheld from the log: all effects end well and none creates a workspace, or
one fails before anything was applied. -/
def Performed.Complete (performed : Performed) (effects : List Effect) : Prop :=
  (performed.ok = true ∧ ∀ effect ∈ effects, effect.createsWorkspace = false) ∨
    (performed.ok = false ∧ performed.applied = [])

theorem performAll_complete_iff (order : WalkOrder) (effects : List Effect)
    (replies : Nat → Reply) :
    let performed := Effect.performAll order folded replies effects
    performed.logged = performed.applied ↔ performed.Complete effects := by
  intro performed
  cases ok : performed.ok with
  | false =>
      have nothing : performed.logged = [] := by
        rw [Performed.logged, if_neg (by rw [ok]; exact Bool.false_ne_true)]
      rw [nothing, eq_comm]
      exact ⟨fun empty => .inr ⟨ok, empty⟩, fun complete =>
        complete.elim (fun ended => absurd (ok.symm.trans ended.1) Bool.false_ne_true) And.right⟩
  | true =>
      have handed : performed.logged = performed.handed := by
        rw [Performed.logged, if_pos ok]
      rw [handed]
      constructor
      · intro same
        have counted : performed.handed.length + effects.countP Effect.createsWorkspace ≤
            performed.applied.length := performAll_length order ok
        rw [same] at counted
        have none : effects.countP Effect.createsWorkspace = 0 := by omega
        exact .inl ⟨ok, fun effect member =>
          Bool.eq_false_iff.mpr (List.countP_eq_zero.mp none effect member)⟩
      · rintro (⟨_, others⟩ | ⟨failed, _⟩)
        · exact performAll_handed order others ok
        · exact absurd (ok.symm.trans failed) Bool.false_ne_true.symm

def agentsGone : World where
  state := {}
  timers := ∅
  requests := []
  applied := []
  clocks := fun _ => default
  replies := fun _ =>
    { spawned := .error "agent not found"
      delivered := .error "agent not found"
      created := .ok ()
      git := .error "git not found"
      removed := .ok () }

/-- A standalone run, and agents that can be spawned. -/
def oneRun : World :=
  { agentsGone with
    state := ({} : MaterializedState).replay (fun _ => .byKey) (fun _ => default) 0
      [.agentRunCreated "r" "worker" "work" "" "/" "hash" ∅ 0]
    replies := fun _ => { agentsGone.replies 0 with spawned := .ok "s" } }

/-- The agent of the run is spawned, started, and done. -/
def runEffects : List Effect :=
  [.spawnAgent "a" "worker" (.agentRun "r") "/" ∅ "claude" [] none ∅,
    .setTimer "liveness" 30000,
    .emit (.agentRunStarted "r" "a"),
    .emit (.agentSignal "a" .complete none)]

end OddJobs
