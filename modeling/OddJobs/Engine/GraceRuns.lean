import OddJobs.Engine.CronRuns
import OddJobs.Engine.Graces

/-!
# Runs with grace periods

Agents report that they are idle, or at work again; timers fire and are handled; jobs and
agent runs come and go; and the process is started again from a snapshot.  An owner with a
note is waiting for one timer, as long as no step does away with one of the two alone.
-/

namespace OddJobs

open Library

def OwnerId.Plain : OwnerId → Prop
  | .job id => ¬"ar:".toList <+: id.toList
  | .agentRun _ => True

def Timer.graceOwner? (timer : TimerId) : Option OwnerId :=
  match Handler.withoutPrefix "idle-grace:ar:" timer with
  | some id => some (.agentRun id)
  | none => (Handler.withoutPrefix "idle-grace:" timer).map .job

/-- Work of the engine that leaves the graces alone. -/
structure GracelessWork where
  carry : Runtime → Runtime
  same : ∀ runtime, SameGraces runtime (carry runtime)

/-- The engine, and the timers that have fired and whose events are still to be processed. -/
structure GraceRun where
  runtime : Runtime
  waiting : List TimerId

inductive GraceStep where
  /-- The notification hook of an agent reports that it is idle. -/
  | idle (agentId : AgentId)
  /-- The state of an agent is acted on. -/
  | monitor (job : Job) (agentDef : AgentDef) (state : MonitorState)
  | standaloneMonitor (run : AgentRun) (agentDef : AgentDef) (state : MonitorState)
  | advance (job : Job)
  | fail (job : Job) (error : String)
  | cancel (job : Job)
  | fire (now : Nat)
  /-- The event of a timer that has fired is processed. -/
  | expire (timer : TimerId)
  | apply (event : Event)
  /-- The deletion of a job is processed: it is applied, and then handled. -/
  | delete (jobId : JobId)
  | work (other : GracelessWork)
  /-- The process is started again, from a snapshot and the log behind it. -/
  | restart (snapshot : Runtime) (unprocessed : List TimerId)

def Event.brought? : Event → Option OwnerId
  | jobCreated id .. => some (.job id)
  | agentRunCreated id .. => some (.agentRun id)
  | _ => none

/-! ## Names of timers -/

namespace Timer

theorem idleGrace_ne_agentRun {id : JobId} (plain : (OwnerId.job id).Plain) (runId : AgentRunId) :
    idleGrace id ≠ idleGraceAgentRun runId := by
  intro same
  refine plain ⟨runId.toList, ?_⟩
  have split : "idle-grace:" ++ id = "idle-grace:" ++ ("ar:" ++ runId) := by
    rw [← String.append_assoc]
    exact same
  rw [append_inj split, String.toList_append]

theorem ownerIdleGrace_inj {left right : OwnerId} (plain : left.Plain) (plain' : right.Plain)
    (same : ownerIdleGrace left = ownerIdleGrace right) : left = right := by
  cases left with
  | job id =>
      cases right with
      | job id' => exact congrArg OwnerId.job (append_inj same)
      | agentRun runId => exact absurd same (idleGrace_ne_agentRun plain runId)
  | agentRun runId =>
      cases right with
      | job id => exact absurd same.symm (idleGrace_ne_agentRun plain' runId)
      | agentRun runId' => exact congrArg OwnerId.agentRun (append_inj same)

theorem graceOwner?_sound {timer : TimerId} {owner : OwnerId}
    (routed : graceOwner? timer = some owner) : ownerIdleGrace owner = timer := by
  unfold graceOwner? at routed
  cases alone : Handler.withoutPrefix "idle-grace:ar:" timer with
  | some id =>
      rw [alone] at routed
      cases routed
      exact (withoutPrefix_eq_some alone).symm
  | none =>
      rw [alone] at routed
      obtain ⟨id, ofJob, rfl⟩ := Option.map_eq_some_iff.mp routed
      exact (withoutPrefix_eq_some ofJob).symm

theorem graceOwner?_plain {timer : TimerId} {owner : OwnerId}
    (routed : graceOwner? timer = some owner) : owner.Plain := by
  unfold graceOwner? at routed
  cases alone : Handler.withoutPrefix "idle-grace:ar:" timer with
  | some id =>
      rw [alone] at routed
      cases routed
      trivial
  | none =>
      rw [alone] at routed
      obtain ⟨id, ofJob, rfl⟩ := Option.map_eq_some_iff.mp routed
      rintro ⟨rest, begins⟩
      have split : timer = "idle-grace:ar:" ++ String.ofList rest := by
        have whole : "idle-grace:ar:" = "idle-grace:" ++ "ar:" := rfl
        have inner : id = "ar:" ++ String.ofList rest := by
          refine String.toList_inj.mp ?_
          rw [String.toList_append, @String.toList_ofList rest]
          exact begins.symm
        rw [withoutPrefix_eq_some ofJob, whole, inner, String.append_assoc]
      rw [split, withoutPrefix_append] at alone
      cases alone

/-- A timer that fires finds its owner. -/
theorem graceOwner?_ownerIdleGrace {owner : OwnerId} (plain : owner.Plain) :
    graceOwner? (ownerIdleGrace owner) = some owner := by
  unfold graceOwner?
  cases owner with
  | agentRun id =>
      have alone : Handler.withoutPrefix "idle-grace:ar:" (ownerIdleGrace (.agentRun id)) =
          some id := withoutPrefix_append _ id
      rw [alone]
  | job id =>
      cases alone : Handler.withoutPrefix "idle-grace:ar:" (ownerIdleGrace (.job id)) with
      | some runId => exact absurd (withoutPrefix_eq_some alone) (idleGrace_ne_agentRun plain runId)
      | none =>
          change (Handler.withoutPrefix "idle-grace:" ("idle-grace:" ++ id)).map OwnerId.job = _
          rw [withoutPrefix_append]
          rfl

end Timer

/-- Of the grace timers, those of a deleted job are cancelled. -/
theorem Timer.contains_without (timers : HashMap Nat) {jobId : JobId} {owner : OwnerId}
    (plain : (OwnerId.job jobId).Plain) (plain' : owner.Plain) (other : owner ≠ .job jobId) :
    (without jobId timers).contains (ownerIdleGrace owner) =
      timers.contains (ownerIdleGrace owner) := by
  have ofGrace := ofKind_ownerIdleGrace owner
  have live : liveness jobId ≠ ownerIdleGrace owner := by
    intro same
    have apart := (spared_grace.apart "liveness:" (by decide)).append jobId
    refine apart.not_ofKind spared_grace.long ?_
    rw [← same] at ofGrace
    exact ofGrace
  have exit : exitDeferred jobId ≠ ownerIdleGrace owner := by
    intro same
    have apart := (spared_grace.apart "exit-deferred:" (by decide)).append jobId
    refine apart.not_ofKind spared_grace.long ?_
    rw [← same] at ofGrace
    exact ofGrace
  have idle : idleGrace jobId ≠ ownerIdleGrace owner :=
    fun same => other (ownerIdleGrace_inj plain plain' same).symm
  have cools : startsCooldown jobId (ownerIdleGrace owner) = false := by
    rw [startsCooldown, Bool.eq_false_iff, Ne, List.isPrefixOf_iff_prefix]
    rintro ⟨rest, begins⟩
    have split : "cooldown:" ++ jobId ++ String.ofList rest = ownerIdleGrace owner := by
      refine String.toList_inj.mp ?_
      rw [String.toList_append, String.toList_ofList, begins]
    have apart := ((spared_grace.apart "cooldown:" (by decide)).append jobId).append
      (String.ofList rest)
    exact apart.not_ofKind spared_grace.long (split ▸ ofGrace)
  unfold without
  dsimp only
  rw [Table.contains_eq_isSome, Table.lookup_filter, cools, Table.lookup_erase, if_neg idle,
    Table.lookup_erase, if_neg exit, Table.lookup_erase, if_neg live, Table.contains_eq_isSome]
  cases timers[ownerIdleGrace owner]? with
  | none => rfl
  | some firesAt => rfl

theorem MaterializedState.grace_job {state : MaterializedState} {id : JobId} {job : Job}
    (found : state.jobs[id]? = some job) : state.grace (.job id) = some job.idleGraceLogSize :=
  congrArg (Option.map fun job : Job => job.idleGraceLogSize) found

theorem MaterializedState.grace_agentRun {state : MaterializedState} {id : AgentRunId}
    {run : AgentRun} (found : state.agentRuns[id]? = some run) :
    state.grace (.agentRun id) = some run.idleGraceLogSize :=
  congrArg (Option.map fun run : AgentRun => run.idleGraceLogSize) found

/-- What is noted after an event was noted before, or nothing is noted on an owner that has
just come into being. -/
theorem MaterializedState.grace_applied {order : WalkOrder} {clock : Clock}
    {state : MaterializedState} {event : Event} {owner : OwnerId} {noted : Option Nat}
    (found : (state.applyEvent order clock event).grace owner = some noted) :
    state.grace owner = some noted ∨ event.brought? = some owner ∧ noted = none := by
  cases brings : event.bringsOwner with
  | false =>
      rw [state.grace_applyEvent order clock brings] at found
      exact .inl found
  | true =>
      cases event with
      | jobCreated id kind name hash cwd vars initialStep createdAt ns cronName =>
          cases owner with
          | agentRun runId => exact .inl found
          | job other =>
              change ((state.jobs.insert id _)[other]?).map _ = some noted at found
              rw [Table.lookup_insert] at found
              split at found
              · rename_i own
                cases found
                exact .inr ⟨congrArg (some ∘ OwnerId.job) own, rfl⟩
              · exact .inl found
      | agentRunCreated id agentName commandName ns cwd hash vars createdAt =>
          cases owner with
          | job jobId => exact .inl found
          | agentRun other =>
              change ((state.agentRuns.insert id _)[other]?).map _ = some noted at found
              rw [Table.lookup_insert] at found
              split at found
              · rename_i own
                cases found
                exact .inr ⟨congrArg (some ∘ OwnerId.agentRun) own, rfl⟩
              · exact .inl found
      | jobDeleted id =>
          cases owner with
          | agentRun runId => exact .inl found
          | job other =>
              change ((state.jobs.erase id)[other]?).map _ = some noted at found
              rw [Table.lookup_erase] at found
              split at found
              · cases found
              · exact .inl found
      | agentRunDeleted id =>
          cases owner with
          | job jobId => exact .inl found
          | agentRun other =>
              change ((state.agentRuns.erase id)[other]?).map _ = some noted at found
              rw [Table.lookup_erase] at found
              split at found
              · cases found
              · exact .inl found
      | _ => cases brings

theorem MaterializedState.grace_jobDeleted (order : WalkOrder) (clock : Clock)
    (state : MaterializedState) (id : JobId) :
    (state.applyEvent order clock (.jobDeleted id)).grace (.job id) = none := by
  change ((state.jobs.erase id)[id]?).map _ = none
  rw [Table.lookup_erase, if_pos rfl]
  rfl

namespace GraceRun

variable (outside : Outside)

def booted (runtime : Runtime) (waiting : List TimerId) : GraceRun :=
  ⟨{ runtime with world := { runtime.world with timers := ∅ } }, waiting⟩

def fresh (runtime : Runtime) : GraceRun :=
  booted { runtime with world := { runtime.world with
    state := { runtime.world.state with
      jobs := ∅
      agentRuns := ∅ } } } []

def expired (run : GraceRun) (timer : TimerId) : GraceRun :=
  { runtime := match Timer.graceOwner? timer with
      | none => run.runtime
      | some owner => (Handler.handleGraceTimer outside owner run.runtime).2
    waiting := run.waiting.erase timer }

def next (run : GraceRun) : GraceStep → GraceRun
  | .idle agentId =>
      { run with runtime := (Handler.handleAgentIdleHook outside agentId run.runtime).2 }
  | .monitor job agentDef state =>
      { run with runtime := (Handler.handleMonitorState outside job agentDef state run.runtime).2 }
  | .standaloneMonitor agentRun agentDef state =>
      { run with runtime :=
          (Handler.handleStandaloneMonitorState outside agentRun agentDef state run.runtime).2 }
  | .advance job => { run with runtime := (Handler.advanceJob outside job run.runtime).2 }
  | .fail job error => { run with runtime := (Handler.failJob outside job error run.runtime).2 }
  | .cancel job => { run with runtime := (Handler.cancelJob outside job run.runtime).2 }
  | .fire now =>
      { runtime := { run.runtime with world := { run.runtime.world with
          timers := run.runtime.world.timers.filter fun _ firesAt => !decide (firesAt ≤ now) } }
        waiting := run.waiting ++ firedTimers outside.order now run.runtime.world.timers }
  | .expire timer => if timer ∈ run.waiting then run.expired outside timer else run
  | .apply event => { run with runtime := run.runtime.applying outside.order event }
  | .delete jobId =>
      { run with runtime := (Handler.handleJobDeleted outside jobId
          (run.runtime.applying outside.order (.jobDeleted jobId))).2 }
  | .work other => { run with runtime := other.carry run.runtime }
  | .restart snapshot unprocessed => booted snapshot unprocessed

/-- The timer is set, or it has fired and its event is still to be processed. -/
def Awaits (run : GraceRun) (owner : OwnerId) : Prop :=
  run.runtime.world.timers.contains (Timer.ownerIdleGrace owner) = true ∨
    Timer.ownerIdleGrace owner ∈ run.waiting

/-- How many timers of an owner are set, or have fired. -/
def tokens (run : GraceRun) (owner : OwnerId) : Nat :=
  (if run.runtime.world.timers.contains (Timer.ownerIdleGrace owner) then 1 else 0) +
    run.waiting.count (Timer.ownerIdleGrace owner)

/-- Of what is found in a snapshot, an owner is noted exactly if its timer has fired, once,
in the log behind it. -/
def Recoverable (state : MaterializedState) (unprocessed : List TimerId) : Prop :=
  ∀ owner noted, state.grace owner = some noted → owner.Plain ∧
    unprocessed.count (Timer.ownerIdleGrace owner) = if noted.isSome then 1 else 0

/-- The step takes no owner its note alone, or its timer alone: an agent is not seen at work
while its timer has fired already; an owner does not come into being while a timer of this
name is left; and the process is started again only where every note has its timer in the
log. -/
def Meets (run : GraceRun) : GraceStep → Prop
  | .idle agentId => ∀ owner, run.runtime.agentOwners[agentId]? = some owner → owner.Plain
  | .monitor job _ state => state = .working →
      (OwnerId.job job.id).Plain ∧ Timer.idleGrace job.id ∉ run.waiting
  | .standaloneMonitor agentRun _ state => state = .working →
      Timer.idleGraceAgentRun agentRun.id ∉ run.waiting
  | .apply event => ∀ owner, event.brought? = some owner → owner.Plain ∧ ¬run.Awaits owner
  | .delete jobId => (OwnerId.job jobId).Plain
  | .restart snapshot unprocessed => Recoverable snapshot.world.state unprocessed
  | _ => True

def Always (holds : GraceRun → Prop) : GraceRun → List GraceStep → Prop
  | run, [] => holds run
  | run, step :: steps => holds run ∧ Always holds (run.next outside step) steps

def AllMeet : GraceRun → List GraceStep → Prop
  | _, [] => True
  | run, step :: steps => run.Meets step ∧ AllMeet (run.next outside step) steps

def Lives (state : MaterializedState) : OwnerId → Prop
  | .job id => ∃ job, state.jobs[id]? = some job ∧ job.isTerminal = false
  | .agentRun id => ∃ run, state.agentRuns[id]? = some run ∧ run.status.isTerminal = false

/-- An idle report of the agent is dropped as a duplicate, for what is noted on the owner. -/
inductive Drops (runtime : Runtime) (agentId : AgentId) : OwnerId → Prop where
  | job {id key : JobId} {job : Job}
      (looked : (Handler.getOwnerContext agentId runtime).1 = .ok (.job job id))
      (stored : runtime.world.state.jobs[key]? = some job)
      (noted : job.idleGraceLogSize.isSome = true) : Drops runtime agentId (.job key)
  | agentRun {id : AgentRunId} {run : AgentRun}
      (looked : (Handler.getOwnerContext agentId runtime).1 = .ok (.agentRun run id))
      (noted : run.idleGraceLogSize.isSome = true) : Drops runtime agentId (.agentRun id)

/-- Idle detection can be armed again: every owner that lives is noted exactly if its timer
is set or has fired, so that no report is dropped as a duplicate of a timer that is not
there. -/
structure Armed (run : GraceRun) : Prop where
  noted_iff : ∀ owner, Lives run.runtime.world.state owner →
    ((∃ logSize, run.runtime.world.state.grace owner = some (some logSize)) ↔ run.Awaits owner)
  dropped : ∀ agentId owner, Drops run.runtime agentId owner → run.Awaits owner

/-- Every owner that is noted has one timer, and the others have none. -/
def Balanced (run : GraceRun) : Prop :=
  ∀ owner noted, run.runtime.world.state.grace owner = some noted →
    owner.Plain ∧ run.tokens owner = if noted.isSome then 1 else 0

variable {outside} {run : GraceRun}

theorem awaits_iff (owner : OwnerId) : run.Awaits owner ↔ run.tokens owner ≠ 0 := by
  unfold Awaits tokens
  rw [← List.count_pos_iff]
  split
  · rename_i pending
    exact iff_of_true (.inl pending) (by omega)
  · rename_i unset
    constructor
    · rintro (pending | fired)
      · exact absurd pending unset
      · omega
    · intro some
      exact .inr (by omega)

theorem Balanced.awaits_iff (balanced : run.Balanced) {owner : OwnerId} {noted : Option Nat}
    (found : run.runtime.world.state.grace owner = some noted) :
    run.Awaits owner ↔ noted.isSome = true := by
  rw [GraceRun.awaits_iff, (balanced owner noted found).2]
  split
  · rename_i present
    exact iff_of_true Nat.one_ne_zero present
  · rename_i absent
    exact iff_of_false (not_not.mpr rfl) absent

theorem Lives.grace {state : MaterializedState} {owner : OwnerId} (lives : Lives state owner) :
    ∃ noted, state.grace owner = some noted := by
  cases owner with
  | job id =>
      obtain ⟨job, found, _⟩ := lives
      exact ⟨_, MaterializedState.grace_job found⟩
  | agentRun id =>
      obtain ⟨run, found, _⟩ := lives
      exact ⟨_, MaterializedState.grace_agentRun found⟩

theorem Balanced.armed (balanced : run.Balanced) : run.Armed where
  noted_iff := by
    intro owner lives
    obtain ⟨noted, found⟩ := lives.grace
    rw [balanced.awaits_iff found, found, Option.isSome_iff_exists]
    constructor
    · rintro ⟨logSize, same⟩
      exact ⟨logSize, Option.some.inj same⟩
    · rintro ⟨logSize, rfl⟩
      exact ⟨logSize, rfl⟩
  dropped := by
    intro agentId owner drops
    cases drops with
    | job looked stored noted =>
        exact (balanced.awaits_iff (MaterializedState.grace_job stored)).mpr noted
    | agentRun looked noted =>
        obtain ⟨context, found, known⟩ := Handler.getOwnerContext_found agentId run.runtime
        rw [found] at looked
        cases looked
        exact (balanced.awaits_iff (MaterializedState.grace_agentRun known.2)).mpr noted

/-! ## Steps -/

theorem Balanced.of_same {after : Runtime} (balanced : run.Balanced)
    (same : SameGraces run.runtime after) : (⟨after, run.waiting⟩ : GraceRun).Balanced := by
  intro owner noted found
  rw [same.notes] at found
  unfold tokens
  rw [same.timers]
  exact balanced owner noted found

/-- What is noted on an owner, and how its timers are changed, concerns no other owner. -/
theorem Balanced.noted {after : GraceRun} (balanced : run.Balanced) {owner : OwnerId}
    {logSize : Option Nat} {timers : HashMap Nat → HashMap Nat} (plain : owner.Plain)
    (notes : Notes owner logSize timers run.runtime after.runtime)
    (own : ∀ noted, run.runtime.world.state.grace owner = some noted →
      after.tokens owner = if logSize.isSome then 1 else 0)
    (others : ∀ timer, timer ≠ Timer.ownerIdleGrace owner →
      (timers run.runtime.world.timers).contains timer = run.runtime.world.timers.contains timer ∧
        after.waiting.count timer = run.waiting.count timer) : after.Balanced := by
  intro other noted found
  rw [notes.notes] at found
  split at found
  · rename_i same
    obtain ⟨prior, present, rfl⟩ := Option.map_eq_some_iff.mp found
    rw [← same]
    exact ⟨plain, own prior present⟩
  · rename_i apart
    obtain ⟨plain', tokens'⟩ := balanced other noted found
    have differs : Timer.ownerIdleGrace other ≠ Timer.ownerIdleGrace owner :=
      fun same => apart (Timer.ownerIdleGrace_inj plain plain' same.symm)
    obtain ⟨pending, fired⟩ := others _ differs
    refine ⟨plain', ?_⟩
    unfold tokens at tokens' ⊢
    rw [notes.timers, pending, fired]
    exact tokens'

/-- A report of an agent sets the timer along with the note. -/
theorem Balanced.idle (balanced : run.Balanced) (agentId : AgentId)
    (meets : run.Meets (.idle agentId)) : (run.next outside (.idle agentId)).Balanced := by
  rcases Handler.handleAgentIdleHook_notes outside agentId run.runtime with
    stays | ⟨owner, logSize, firesAt, owned, unnoted, notes⟩
  · rw [next, stays]
    exact balanced
  · have plain := meets owner owned
    refine balanced.noted plain notes ?_ ?_
    · intro noted found
      have none := (balanced owner noted found).2
      rw [unnoted noted found] at none
      obtain ⟨_, unfired⟩ := Nat.add_eq_zero_iff.mp none
      have pending := notes.timers owner
      rw [(Table.contains_insert_iff _ _ _ _).mpr (.inl rfl)] at pending
      unfold tokens
      change (if (Handler.handleAgentIdleHook outside agentId run.runtime).2.world.timers.contains _
        then 1 else 0) + run.waiting.count _ = 1
      rw [if_pos pending, unfired]
    · intro timer differs
      refine ⟨?_, rfl⟩
      rw [Table.contains_eq_isSome, Table.lookup_insert, if_neg (Ne.symm differs),
        ← Table.contains_eq_isSome]

/-- An owner whose timer has not fired is left without note and timer. -/
theorem Balanced.ended (balanced : run.Balanced) {owner : OwnerId} {after : Runtime}
    (plain : owner.Plain) (unfired : Timer.ownerIdleGrace owner ∉ run.waiting)
    (notes : Notes owner none (·.erase (Timer.ownerIdleGrace owner)) run.runtime after) :
    (⟨after, run.waiting⟩ : GraceRun).Balanced := by
  refine balanced.noted plain notes ?_ ?_
  · intro noted found
    have unset : after.world.timers.contains (Timer.ownerIdleGrace owner) = false := by
      rw [notes.timers, Table.contains_eq_isSome, Table.lookup_erase, if_pos rfl]
      rfl
    unfold tokens
    rw [unset, List.count_eq_zero.mpr unfired]
    rfl
  · intro timer differs
    refine ⟨?_, rfl⟩
    rw [Table.contains_eq_isSome, Table.lookup_erase, if_neg (Ne.symm differs),
      ← Table.contains_eq_isSome]

/-- A timer that fires once is among those that have fired. -/
theorem count_firedTimers (order : WalkOrder) (now : Nat) (timers : HashMap Nat)
    (timer : TimerId) :
    (if (timers.filter fun _ firesAt => !decide (firesAt ≤ now)).contains timer then 1 else 0) +
        (firedTimers order now timers).count timer =
      if timers.contains timer then 1 else 0 := by
  have distinct : (firedTimers order now timers).Nodup :=
    ((order.perm _).nodup_iff.mpr timers.nodup_keys).filter _
  have mem : timer ∈ firedTimers order now timers ↔ timers.contains timer = true ∧
      (timers[timer]?).any (· ≤ now) = true := by
    unfold firedTimers
    rw [List.mem_filter, order.mem_walk, Std.ExtTreeMap.mem_keys, Std.ExtTreeMap.mem_iff_contains]
  rw [Table.contains_eq_isSome] at mem
  rw [distinct.count, Table.contains_eq_isSome, Table.contains_eq_isSome, Table.lookup_filter]
  cases found : timers[timer]? with
  | none =>
      rw [if_neg fun fired => absurd (mem.mp fired).2 (by rw [found]; exact Bool.false_ne_true)]
      rfl
  | some firesAt =>
      rw [found, Option.any_some] at mem
      rw [Option.filter_some]
      rcases Decidable.em (firesAt ≤ now) with due | later
      · rw [if_pos (mem.mpr ⟨rfl, decide_eq_true due⟩), decide_eq_true due]
        rfl
      · rw [if_neg fun fired => later (of_decide_eq_true (mem.mp fired).2), decide_eq_false later]
        rfl

theorem Balanced.fired (balanced : run.Balanced) (now : Nat) :
    (run.next outside (.fire now)).Balanced := by
  intro owner noted found
  obtain ⟨plain, tokens⟩ := balanced owner noted found
  refine ⟨plain, ?_⟩
  have moved := count_firedTimers outside.order now run.runtime.world.timers
    (Timer.ownerIdleGrace owner)
  unfold GraceRun.tokens at tokens ⊢
  rw [← tokens, ← moved, next]
  dsimp only
  rw [List.count_append]
  omega

/-- The event of a timer that has fired clears what is noted on the owner. -/
theorem Balanced.expired (balanced : run.Balanced) {timer : TimerId} (fired : timer ∈ run.waiting) :
    (run.expired outside timer).Balanced := by
  have others : ∀ other, other ≠ timer →
      (run.waiting.erase timer).count other = run.waiting.count other :=
    fun other differs => List.count_erase_of_ne differs
  cases routed : Timer.graceOwner? timer with
  | none =>
      intro owner noted found
      unfold GraceRun.expired at found ⊢
      rw [routed] at found ⊢
      obtain ⟨plain, tokens⟩ := balanced owner noted found
      have differs : Timer.ownerIdleGrace owner ≠ timer := by
        rintro rfl
        cases (Timer.graceOwner?_ownerIdleGrace plain).symm.trans routed
      refine ⟨plain, ?_⟩
      unfold GraceRun.tokens at tokens ⊢
      dsimp only
      rw [others _ differs]
      exact tokens
  | some owner =>
      have named := Timer.graceOwner?_sound routed
      have plain := Timer.graceOwner?_plain routed
      unfold GraceRun.expired
      rw [routed]
      refine balanced.noted plain (Handler.handleGraceTimer_notes outside owner run.runtime) ?_ ?_
      · intro noted found
        have tokens : run.tokens owner ≤ 1 := by
          rw [(balanced owner noted found).2]
          split
          · exact Nat.le_refl 1
          · exact Nat.zero_le 1
        have once : (run.waiting.erase timer).count timer = run.waiting.count timer - 1 :=
          List.count_erase_self
        have some := List.count_pos_iff.mpr fired
        have same := (Handler.handleGraceTimer_notes outside owner run.runtime).timers owner
        unfold GraceRun.tokens at tokens ⊢
        dsimp only
        rw [same, named, once]
        rw [named] at tokens
        change (if run.runtime.world.timers.contains timer then 1 else 0) + _ = 0
        omega
      · intro other differs
        rw [named] at differs
        exact ⟨rfl, others other differs⟩

/-- An owner comes into being without note and timer, and may be gone afterwards. -/
theorem Balanced.applied (balanced : run.Balanced) (event : Event)
    (meets : run.Meets (.apply event)) : (run.next outside (.apply event)).Balanced := by
  intro owner noted found
  rcases MaterializedState.grace_applied found with kept | ⟨brought, rfl⟩
  · exact balanced owner noted kept
  · obtain ⟨plain, unset⟩ := meets owner brought
    rw [GraceRun.awaits_iff, not_not] at unset
    exact ⟨plain, unset⟩

/-- The timer of a job goes with the job. -/
theorem Balanced.deleted (balanced : run.Balanced) (jobId : JobId)
    (meets : run.Meets (.delete jobId)) : (run.next outside (.delete jobId)).Balanced := by
  have same := Handler.handleJobDeleted_graces outside jobId
    (run.runtime.applying outside.order (.jobDeleted jobId))
  intro owner noted found
  have after := (same.notes owner).symm.trans found
  rcases MaterializedState.grace_applied after with before | ⟨brought, _⟩
  · obtain ⟨plain, tokens⟩ := balanced owner noted before
    have other : owner ≠ .job jobId := by
      rintro rfl
      have gone := MaterializedState.grace_jobDeleted outside.order (run.runtime.world.clocks 0)
        run.runtime.world.state jobId
      cases gone.symm.trans after
    have timers := (same.timers owner).trans
      (Timer.contains_without run.runtime.world.timers meets plain other)
    refine ⟨plain, ?_⟩
    unfold GraceRun.tokens at tokens ⊢
    rw [← tokens, GraceRun.next]
    dsimp only
    rw [timers]
  · cases brought

theorem balanced_booted {snapshot : Runtime} {unprocessed : List TimerId}
    (recoverable : Recoverable snapshot.world.state unprocessed) :
    (booted snapshot unprocessed).Balanced := by
  intro owner noted found
  obtain ⟨plain, fired⟩ := recoverable owner noted found
  have unset : (∅ : HashMap Nat).contains (Timer.ownerIdleGrace owner) = false := by
    rw [Table.contains_eq_isSome, Table.lookup_empty]
    rfl
  refine ⟨plain, ?_⟩
  unfold tokens booted
  dsimp only
  rw [unset, ← fired]
  exact Nat.zero_add _

theorem balanced_fresh (runtime : Runtime) : (fresh runtime).Balanced := by
  refine balanced_booted ?_
  intro owner noted found
  cases owner with
  | job id =>
      change ((∅ : HashMap Job)[id]?).map (fun job : Job => job.idleGraceLogSize) = _ at found
      rw [Table.lookup_empty] at found
      cases found
  | agentRun id =>
      change ((∅ : HashMap AgentRun)[id]?).map (fun run : AgentRun => run.idleGraceLogSize) = _
        at found
      rw [Table.lookup_empty] at found
      cases found

theorem Balanced.next (balanced : run.Balanced) {step : GraceStep} (meets : run.Meets step) :
    (run.next outside step).Balanced := by
  cases step with
  | idle agentId => exact balanced.idle agentId meets
  | monitor job agentDef state =>
      rcases Classical.em (state = .working) with rfl | rests
      · obtain ⟨plain, unfired⟩ := meets rfl
        exact balanced.ended plain unfired (Handler.handleWorking_notes outside job run.runtime)
      · exact balanced.of_same
          (Handler.handleMonitorState_sameGraces outside job agentDef rests run.runtime)
  | standaloneMonitor agentRun agentDef state =>
      rcases Classical.em (state = .working) with rfl | rests
      · exact @Balanced.ended run balanced (.agentRun agentRun.id) _ trivial (meets rfl)
          (Handler.handleStandaloneWorking_notes outside agentRun run.runtime)
      · exact balanced.of_same
          (Handler.handleStandaloneMonitorState_sameGraces outside agentRun agentDef rests
            run.runtime)
  | advance job => exact balanced.of_same (Handler.advanceJob_sameGraces outside job run.runtime)
  | fail job error =>
      exact balanced.of_same (Handler.failJob_sameGraces outside job error run.runtime)
  | cancel job => exact balanced.of_same (Handler.cancelJob_sameGraces outside job run.runtime)
  | fire now => exact balanced.fired now
  | expire timer =>
      change (if timer ∈ run.waiting then run.expired outside timer else run).Balanced
      split
      · rename_i fired
        exact balanced.expired fired
      · exact balanced
  | apply event => exact balanced.applied event meets
  | delete jobId => exact balanced.deleted jobId meets
  | work other => exact balanced.of_same (other.same run.runtime)
  | restart snapshot unprocessed => exact balanced_booted meets

theorem Balanced.always (balanced : run.Balanced) {steps : List GraceStep}
    (meet : run.AllMeet outside steps) : run.Always outside Armed steps := by
  induction steps generalizing run with
  | nil => exact balanced.armed
  | cons step steps ih => exact ⟨balanced.armed, ih (balanced.next meet.1) meet.2⟩

/-- In every run whose steps take no owner its note alone, or its timer alone, idle detection
can always be armed again. -/
theorem idle_detection_armed (outside : Outside) (runtime : Runtime) (steps : List GraceStep)
    (meet : (fresh runtime).AllMeet outside steps) :
    (fresh runtime).Always outside Armed steps :=
  (balanced_fresh runtime).always meet

/-! ## An agent that becomes idle -/

def watching : Runtime :=
  { Runtime.idle {} {} with
    agentOwners := (∅ : HashMap OwnerId).insert "agent" (.job "job") }

def becomesIdle : List GraceStep :=
  [.apply (.jobCreated "job" "build" "build" "hash" "/" ∅ "plan" 0 "" none),
    .apply (.stepStarted "job" "plan" (some "agent") (some "planner")), .idle "agent"]

def graceGoesBy : List GraceStep := becomesIdle ++ [.fire 60000, .expire "idle-grace:job"]

theorem meets_graceGoesBy : (fresh watching).AllMeet (.plain {}) graceGoesBy := by
  refine ⟨?_, ?_, ?_, trivial, trivial, trivial⟩
  · intro owner brought
    cases brought
    have plain : ¬"ar:".toList <+: "job".toList := by decide
    refine ⟨plain, ?_⟩
    rw [awaits_iff, not_not]
    decide +kernel
  · intro owner brought
    cases brought
  · intro owner owned
    have found : watching.agentOwners["agent"]? = some (.job "job") := by decide +kernel
    cases found.symm.trans owned
    have plain : ¬"ar:".toList <+: "job".toList := by decide
    exact plain

theorem idle_detection_armed_after_grace :
    (fresh watching).Always (.plain {}) Armed graceGoesBy :=
  idle_detection_armed (.plain {}) watching graceGoesBy meets_graceGoesBy

def idleNoted : GraceRun := becomesIdle.foldl (next (.plain {})) (fresh watching)

/-- The process is started again from this state.  The note is still there, and no timer. -/
theorem note_without_timer :
    ¬∀ (outside : Outside) (runtime : Runtime) (steps : List GraceStep),
      (fresh runtime).Always outside Armed steps := by
  intro always
  obtain ⟨_, _, _, _, last⟩ := always (.plain {}) watching
    (becomesIdle ++ [.restart idleNoted.runtime idleNoted.waiting])
  have noted : (idleNoted.runtime.world.state.jobs["job"]?).map (·.idleGraceLogSize) =
      some (some 0) := by
    decide +kernel
  have going : (idleNoted.runtime.world.state.jobs["job"]?).map (·.isTerminal) = some false := by
    decide +kernel
  obtain ⟨job, found, ended⟩ := Option.map_eq_some_iff.mp going
  rcases (last.noted_iff (.job "job") ⟨job, found, ended⟩).mp ⟨0, noted⟩ with pending | fired
  · cases pending
  · have unfired : Timer.ownerIdleGrace (.job "job") ∉ idleNoted.waiting := by decide +kernel
    exact unfired fired

end GraceRun

end OddJobs
