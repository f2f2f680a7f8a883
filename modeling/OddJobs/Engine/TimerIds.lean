import OddJobs.Engine.Cooldowns
import OddJobs.Engine.Crons
import OddJobs.Engine.Graces

/-!
# Names of timers, read back

A timer is known by a text that is built from namespaces, names and ids, and the handlers
take it apart again: a queue timer at the first slash, a cron or poll timer at the last one,
a cooldown at its colons.
-/

namespace OddJobs

open Library

/-! ## Namespaces -/

/-- The namespace of a project: the name in its configuration, or the last part of its path. -/
def resolveNamespace (configName fileName : Option String) : String :=
  match configName with
  | some name => name
  | none => fileName.getD "default"

namespace Timer

/-! ## Timers of owners -/

inductive Kind where
  | liveness
  | exitDeferred
  | cooldown (trigger : String) (chainPos : Nat)
  | idleGrace
  deriving DecidableEq, Repr

def ownerLiveness : OwnerId → TimerId
  | .job jobId => liveness jobId
  | .agentRun runId => livenessAgentRun runId

def ownerExitDeferred : OwnerId → TimerId
  | .job jobId => exitDeferred jobId
  | .agentRun runId => exitDeferredAgentRun runId

def owned (owner : OwnerId) : Kind → TimerId
  | .liveness => ownerLiveness owner
  | .exitDeferred => ownerExitDeferred owner
  | .cooldown trigger chainPos => ownerCooldown owner trigger chainPos
  | .idleGrace => ownerIdleGrace owner

/-- `text.split(':').next()`. -/
def beforeColon (text : String) : String := String.ofList (text.toList.takeWhile (· ≠ ':'))

def agentRunIdStr (id : TimerId) : Option String :=
  match Handler.withoutPrefix "liveness:ar:" id with
  | some rest => some rest
  | none =>
      match Handler.withoutPrefix "exit-deferred:ar:" id with
      | some rest => some rest
      | none =>
          match Handler.withoutPrefix "cooldown:ar:" id with
          | some rest => some (beforeColon rest)
          | none => Handler.withoutPrefix "idle-grace:ar:" id

def jobIdStr (id : TimerId) : Option String :=
  if (agentRunIdStr id).isSome then none
  else
    match Handler.withoutPrefix "liveness:" id with
    | some rest => some rest
    | none =>
        match Handler.withoutPrefix "exit-deferred:" id with
        | some rest => some rest
        | none =>
            match Handler.withoutPrefix "cooldown:" id with
            | some rest => some (beforeColon rest)
            | none => Handler.withoutPrefix "idle-grace:" id

def ownerId (id : TimerId) : Option OwnerId :=
  match agentRunIdStr id with
  | some runId => some (.agentRun runId)
  | none => (jobIdStr id).map .job

/-! ## Routing -/

/-- The handlers of timers, with what they take from the name. -/
inductive Route where
  | agentRunIdleGrace (runId : String)
  | agentRunLiveness (runId : String)
  | agentRunExitDeferred (runId : String)
  | agentRunCooldown (rest : String)
  | idleGrace (jobId : String)
  | liveness (jobId : String)
  | exitDeferred (jobId : String)
  | cooldown (rest : String)
  | queueRetry (rest : String)
  | cron (rest : String)
  | queuePoll (rest : String)
  deriving DecidableEq, Repr

/-- The prefixes that are tried in turn: those of agent runs first, since they share theirs
with jobs. -/
def ROUTES : List (String × (String → Route)) := [
  ("idle-grace:ar:", .agentRunIdleGrace),
  ("liveness:ar:", .agentRunLiveness),
  ("exit-deferred:ar:", .agentRunExitDeferred),
  ("cooldown:ar:", .agentRunCooldown),
  ("idle-grace:", .idleGrace),
  ("liveness:", .liveness),
  ("exit-deferred:", .exitDeferred),
  ("cooldown:", .cooldown),
  ("queue-retry:", .queueRetry),
  ("cron:", .cron),
  ("queue-poll:", .queuePoll)]

def route (id : TimerId) : Option Route :=
  ROUTES.findSome? fun (start, build) => (Handler.withoutPrefix start id).map build

def retried (rest : String) : Option (String × String × String) :=
  (Handler.splitLast ':' rest).map fun (scopedQueue, itemId) =>
    let (ns, queueName) := Handler.splitScopedName scopedQueue
    (ns, queueName, itemId)

/-- `text.strip_suffix(tail)`. -/
def withoutSuffix (tail text : String) : Option String :=
  if tail.toList.isSuffixOf text.toList then
    some (String.ofList (text.toList.take (text.toList.length - tail.toList.length)))
  else none

def cronNamespace (rest : String) : String :=
  (withoutSuffix ("/" ++ afterLastSlash rest) rest).getD ""

/-! ## What a timer stands for -/

inductive Meaning where
  | queueRetry (ns queueName itemId : String)
  | cron (ns cronName : String)
  | queuePoll (ns workerName : String)
  | owned (owner : OwnerId) (kind : Kind)
  deriving DecidableEq, Repr

namespace Meaning

def id : Meaning → TimerId
  | queueRetry ns queueName itemId => Timer.queueRetry (scopedName ns queueName) itemId
  | cron ns cronName => Timer.cron cronName ns
  | queuePoll ns workerName => Timer.queuePoll workerName ns
  | owned owner kind => Timer.owned owner kind

def WellFormed : Meaning → Prop
  | queueRetry _ _ itemId => ':' ∉ itemId.toList
  | owned (.job id) _ | owned (.agentRun id) _ => ':' ∉ id.toList
  | cron _ _ | queuePoll _ _ => True

/-- The handlers take from the name what it was built from, and what they find under it is
of that namespace. -/
def Decodes (runtime : Runtime) (timer : Meaning) : Prop :=
  match timer with
  | queueRetry ns queueName itemId => ∃ rest, route timer.id = some (.queueRetry rest) ∧
      retried rest = some (ns, queueName, itemId)
  | cron ns cronName => ∃ rest, route timer.id = some (.cron rest) ∧
      afterLastSlash rest = cronName ∧ cronNamespace rest = ns ∧
      ∀ state, runtime.cronStates[afterLastSlash rest]? = some state →
        state.status = .running → state.ns = ns
  | queuePoll ns workerName => ∃ rest, route timer.id = some (.queuePoll rest) ∧
      afterLastSlash rest = workerName ∧
      ∀ state, runtime.workerStates[afterLastSlash rest]? = some state → state.ns = ns
  | owned owner _ => ownerId timer.id = some owner

/-- Two timers of owners that share their name are of one owner and one kind. -/
def Apart (left right : Meaning) : Prop :=
  ∀ owner kind owner' kind', left = owned owner kind → right = owned owner' kind' →
    left.id = right.id → owner = owner' ∧ kind = kind'

/-- No separator stands where the name would be cut, nothing is registered under the bare
name by another project, and no job whose cooldown waits is called `ar`. -/
def Plain (runtime : Runtime) : Meaning → Prop
  | queueRetry ns queueName _ => '/' ∉ ns.toList ∧ (ns = "" → '/' ∉ queueName.toList)
  | cron ns cronName => '/' ∉ cronName.toList ∧
      ∀ state, runtime.cronStates[cronName]? = some state → state.status = .running → state.ns = ns
  | queuePoll ns workerName => '/' ∉ workerName.toList ∧
      ∀ state, runtime.workerStates[workerName]? = some state → state.ns = ns
  | owned owner kind => ∀ trigger chainPos, kind = .cooldown trigger chainPos → owner ≠ .job "ar"

end Meaning

/-! ## Prefixes -/

/-- Two texts that differ where both have a character. -/
def Clash (left right : String) : Prop :=
  ((left.toList.zip right.toList).any fun pair => decide (pair.1 ≠ pair.2)) = true

instance (left right : String) : Decidable (Clash left right) :=
  inferInstanceAs (Decidable (_ = true))

theorem not_prefix_of_clash {left right rest : List Char}
    (clash : ((left.zip right).any fun pair => decide (pair.1 ≠ pair.2)) = true) :
    ¬left <+: right ++ rest := by
  induction left generalizing right with
  | nil => cases clash
  | cons a left ih =>
      cases right with
      | nil => cases clash
      | cons b right =>
          intro begins
          obtain ⟨rfl, later⟩ := List.cons_prefix_cons.mp begins
          simp only [List.zip_cons_cons, List.any_cons, ne_eq, not_true_eq_false, decide_false,
            Bool.false_or] at clash
          exact ih clash later

/-- A prefix is not found on a name that begins otherwise. -/
theorem withoutPrefix_of_clash {start kind : String} (clash : Clash start kind) (rest : String) :
    Handler.withoutPrefix start (kind ++ rest) = none := by
  unfold Handler.withoutPrefix
  refine if_neg fun begins => ?_
  rw [String.toList_append] at begins
  exact not_prefix_of_clash clash (List.isPrefixOf_iff_prefix.mp begins)

/-- The route of a prefix, where the prefixes before it in the table are different. -/
theorem route_of (place : Nat) {kind : String} {build : String → Route}
    (listed : ROUTES[place]? = some (kind, build))
    (others : ∀ entry ∈ ROUTES.take place, Clash entry.1 kind) (rest : String) :
    route (kind ++ rest) = some (build rest) := by
  have split : ROUTES = ROUTES.take place ++ (kind, build) :: ROUTES.drop (place + 1) := by
    obtain ⟨within, here⟩ := List.getElem?_eq_some_iff.mp listed
    rw [← here, List.getElem_cons_drop, List.take_append_drop]
  have passed : (ROUTES.take place).findSome? (fun (start, build) =>
      (Handler.withoutPrefix start (kind ++ rest)).map build) = none := by
    rw [List.findSome?_eq_none_iff]
    intro entry member
    dsimp only
    rw [withoutPrefix_of_clash (others entry member), Option.map_none]
  unfold route
  rw [split, List.findSome?_append, passed, Option.none_or, List.findSome?_cons]
  dsimp only
  rw [withoutPrefix_append, Option.map_some]

theorem route_queueRetry (queueName itemId : String) :
    route (queueRetry queueName itemId) = some (.queueRetry (queueName ++ ":" ++ itemId)) := by
  have split : queueRetry queueName itemId = "queue-retry:" ++ (queueName ++ ":" ++ itemId) := by
    unfold queueRetry
    simp only [String.append_assoc]
  rw [split]
  exact route_of 8 rfl (by decide) _

theorem route_cron (cronName ns : String) :
    route (cron cronName ns) = some (.cron (scopedName ns cronName)) :=
  route_of 9 rfl (by decide) _

theorem route_queuePoll (workerName ns : String) :
    route (queuePoll workerName ns) = some (.queuePoll (scopedName ns workerName)) :=
  route_of 10 rfl (by decide) _

/-! ## Scoped names -/

section Separators

variable {α : Type} [DecidableEq α] {separator : α} {front rest : List α}

theorem takeWhile_separator (free : separator ∉ front) :
    (front ++ separator :: rest).takeWhile (· ≠ separator) = front := by
  have inside : ∀ c ∈ front, decide (c ≠ separator) = true := by
    intro c member
    rw [decide_eq_true_eq]
    rintro rfl
    exact free member
  rw [List.takeWhile_append_of_pos inside, List.takeWhile_cons_of_neg (by simp), List.append_nil]

theorem dropWhile_separator (free : separator ∉ front) :
    (front ++ separator :: rest).dropWhile (· ≠ separator) = separator :: rest := by
  have inside : ∀ c ∈ front, decide (c ≠ separator) = true := by
    intro c member
    rw [decide_eq_true_eq]
    rintro rfl
    exact free member
  rw [List.dropWhile_append_of_pos inside, List.dropWhile_cons_of_neg (by simp)]

theorem takeWhile_free (free : separator ∉ front) :
    front.takeWhile (· ≠ separator) = front := by
  rw [List.takeWhile_eq_self_iff]
  intro c member
  rw [decide_eq_true_eq]
  rintro rfl
  exact free member

/-- What stands before the first separator has none in it. -/
theorem takeWhile_not_mem (text : List α) : separator ∉ text.takeWhile (· ≠ separator) := by
  intro member
  have apart := List.mem_takeWhile_imp member
  simp at apart

end Separators

theorem scopedName_toList {ns : String} (named : ns ≠ "") (name : String) :
    (scopedName ns name).toList = ns.toList ++ '/' :: name.toList := by
  unfold scopedName
  rw [if_neg named, String.toList_append, String.toList_append, List.append_assoc]
  rfl

theorem splitLast_append {separator : String} {rest : String} {c : Char} (single : separator.toList = [c])
    (free : c ∉ rest.toList) (front : String) :
    Handler.splitLast c (front ++ separator ++ rest) = some (front, rest) := by
  have backwards : (front ++ separator ++ rest).toList.reverse =
      rest.toList.reverse ++ c :: front.toList.reverse := by
    rw [String.toList_append, String.toList_append, single]
    simp
  have free' : c ∉ rest.toList.reverse := fun member => free (List.mem_reverse.mp member)
  unfold Handler.splitLast
  dsimp only
  rw [backwards, dropWhile_separator free', takeWhile_separator free']
  dsimp only
  rw [List.reverse_reverse, List.reverse_reverse, String.ofList_toList, String.ofList_toList]

/-- A scoped name is read back unless a slash stands where it is cut. -/
theorem splitScopedName_scopedName_iff (ns name : String) :
    Handler.splitScopedName (scopedName ns name) = (ns, name) ↔
      '/' ∉ ns.toList ∧ (ns = "" → '/' ∉ name.toList) := by
  by_cases bare : ns = ""
  · subst bare
    have same : scopedName "" name = name := if_pos rfl
    rw [same]
    unfold Handler.splitScopedName
    constructor
    · intro read
      refine ⟨by simp, fun _ member => ?_⟩
      split at read
      · rename_i none
        have all := List.dropWhile_eq_nil_iff.mp none '/' member
        simp at all
      · rename_i c rest found
        have shorter := congrArg (fun pair => pair.2.toList.length) read
        have whole := congrArg List.length
          (List.takeWhile_append_dropWhile (p := fun c => decide (c ≠ '/')) (l := name.toList))
        simp only [String.toList_ofList] at shorter
        rw [found, List.length_append, List.length_cons] at whole
        omega
    · rintro ⟨-, free⟩
      have none : name.toList.dropWhile (· ≠ '/') = [] := by
        rw [List.dropWhile_eq_nil_iff]
        intro c member
        rw [decide_eq_true_eq]
        rintro rfl
        exact free rfl member
      rw [none]
  · unfold Handler.splitScopedName
    rw [scopedName_toList bare]
    constructor
    · intro read
      refine ⟨fun member => ?_, fun same => (bare same).elim⟩
      have begins : ((ns.toList ++ '/' :: name.toList).takeWhile (· ≠ '/')) = ns.toList := by
        split at read
        · exact absurd (congrArg Prod.fst read).symm bare
        · have same := congrArg (fun pair => pair.1.toList) read
          rwa [String.toList_ofList] at same
      rw [← begins] at member
      exact takeWhile_not_mem _ member
    · rintro ⟨free, -⟩
      rw [dropWhile_separator free, takeWhile_separator free]
      dsimp only
      rw [String.ofList_toList, String.ofList_toList]

theorem toList_afterLastSlash (text : String) :
    (afterLastSlash text).toList = (text.toList.reverse.takeWhile (· ≠ '/')).reverse := by
  unfold afterLastSlash
  rw [String.toList_ofList]
  congr 1
  refine congrArg (fun test => List.takeWhile test _) (funext fun c => ?_)
  by_cases slash : c = '/' <;> simp [slash]

theorem afterLastSlash_scopedName {name : String} (free : '/' ∉ name.toList) (ns : String) :
    afterLastSlash (scopedName ns name) = name := by
  have free' : '/' ∉ name.toList.reverse := fun member => free (List.mem_reverse.mp member)
  refine String.toList_inj.mp ?_
  rw [toList_afterLastSlash]
  by_cases bare : ns = ""
  · have same : scopedName ns name = name := if_pos bare
    rw [same, takeWhile_free free', List.reverse_reverse]
  · rw [scopedName_toList bare, List.reverse_append, List.reverse_cons, List.append_assoc,
      List.singleton_append, takeWhile_separator free', List.reverse_reverse]

/-- The last part of a scoped name is the name, unless it has a slash in it. -/
theorem afterLastSlash_scopedName_iff (ns name : String) :
    afterLastSlash (scopedName ns name) = name ↔ '/' ∉ name.toList := by
  constructor
  · intro same member
    rw [← same, toList_afterLastSlash, List.mem_reverse] at member
    exact takeWhile_not_mem _ member
  · exact fun free => afterLastSlash_scopedName free ns

theorem cronNamespace_scopedName {name : String} (free : '/' ∉ name.toList) (ns : String) :
    cronNamespace (scopedName ns name) = ns := by
  have tail : ("/" ++ name).toList = '/' :: name.toList := by
    rw [String.toList_append]
    rfl
  unfold cronNamespace withoutSuffix
  rw [afterLastSlash_scopedName free, tail]
  by_cases bare : ns = ""
  · have same : scopedName ns name = name := if_pos bare
    rw [same, if_neg, bare]
    · rfl
    · intro ends
      have longer := (List.isSuffixOf_iff_suffix.mp ends).length_le
      rw [List.length_cons] at longer
      omega
  · rw [scopedName_toList bare, if_pos (List.isSuffixOf_iff_suffix.mpr (List.suffix_append _ _))]
    have front : (ns.toList ++ '/' :: name.toList).length - ('/' :: name.toList).length =
        ns.toList.length := by
      rw [List.length_append]
      omega
    rw [front, List.take_left, String.ofList_toList]
    rfl

/-! ## Owners -/

section Owners

variable {id : String}

theorem beforeColon_append (free : ':' ∉ id.toList) (rest : String) :
    beforeColon (id ++ ":" ++ rest) = id := by
  have chars : (id ++ ":" ++ rest).toList = id.toList ++ ':' :: rest.toList := by
    rw [String.toList_append, String.toList_append, List.append_assoc]
    rfl
  unfold beforeColon
  rw [chars, takeWhile_separator free, String.ofList_toList]

/-- The marker of agent runs is not found in the timer of a job. -/
theorem withoutPrefix_marker (free : ':' ∉ id.toList) (start : String) {marked : String}
    (marks : marked = start ++ "ar:") : Handler.withoutPrefix marked (start ++ id) = none := by
  cases found : Handler.withoutPrefix marked (start ++ id) with
  | none => rfl
  | some tail =>
      have whole := withoutPrefix_eq_some found
      rw [marks, String.append_assoc] at whole
      have inner := append_inj whole
      refine absurd ?_ free
      rw [inner, String.toList_append]
      exact List.mem_append_left _ (by decide)

/-- In the cooldown of a job it is found only where the job has its name. -/
theorem withoutPrefix_marker_colon (free : ':' ∉ id.toList) (other : id ≠ "ar")
    (start rest : String) {marked : String} (marks : marked = start ++ "ar:") :
    Handler.withoutPrefix marked (start ++ (id ++ ":" ++ rest)) = none := by
  cases found : Handler.withoutPrefix marked (start ++ (id ++ ":" ++ rest)) with
  | none => rfl
  | some tail =>
      have whole := withoutPrefix_eq_some found
      have regrouped : start ++ "ar:" ++ tail = start ++ ("ar:" ++ tail) := String.append_assoc
      rw [marks, regrouped] at whole
      have inner := append_inj whole
      have marker : "ar:" = "ar" ++ ":" := rfl
      refine absurd ?_ other
      rw [← beforeColon_append free rest, inner, marker]
      exact beforeColon_append (by decide) tail

theorem cooldown_split (start trigger : String) (chainPos : Nat) :
    start ++ id ++ ":" ++ trigger ++ ":" ++ toString chainPos =
      start ++ (id ++ ":" ++ (trigger ++ ":" ++ toString chainPos)) := by
  simp only [String.append_assoc]

theorem owned_agentRun_liveness : owned (.agentRun id) .liveness = "liveness:ar:" ++ id := rfl

theorem owned_agentRun_exitDeferred :
    owned (.agentRun id) .exitDeferred = "exit-deferred:ar:" ++ id := rfl

theorem owned_agentRun_idleGrace : owned (.agentRun id) .idleGrace = "idle-grace:ar:" ++ id := rfl

theorem owned_agentRun_cooldown (trigger : String) (chainPos : Nat) :
    owned (.agentRun id) (.cooldown trigger chainPos) =
      "cooldown:ar:" ++ (id ++ ":" ++ (trigger ++ ":" ++ toString chainPos)) :=
  cooldown_split "cooldown:ar:" trigger chainPos

theorem owned_job_liveness : owned (.job id) .liveness = "liveness:" ++ id := rfl

theorem owned_job_exitDeferred : owned (.job id) .exitDeferred = "exit-deferred:" ++ id := rfl

theorem owned_job_idleGrace : owned (.job id) .idleGrace = "idle-grace:" ++ id := rfl

theorem owned_job_cooldown (trigger : String) (chainPos : Nat) :
    owned (.job id) (.cooldown trigger chainPos) =
      "cooldown:" ++ (id ++ ":" ++ (trigger ++ ":" ++ toString chainPos)) :=
  cooldown_split "cooldown:" trigger chainPos

theorem agentRunIdStr_agentRun (free : ':' ∉ id.toList) (kind : Kind) :
    agentRunIdStr (owned (.agentRun id) kind) = some id := by
  cases kind with
  | liveness =>
      simp only [agentRunIdStr, owned_agentRun_liveness, withoutPrefix_append]
  | exitDeferred =>
      simp (disch := decide) only [agentRunIdStr, owned_agentRun_exitDeferred,
        withoutPrefix_of_clash, withoutPrefix_append]
  | cooldown trigger chainPos =>
      simp (disch := decide) only [agentRunIdStr, owned_agentRun_cooldown, withoutPrefix_of_clash,
        withoutPrefix_append]
      rw [beforeColon_append free]
  | idleGrace =>
      simp (disch := decide) only [agentRunIdStr, owned_agentRun_idleGrace,
        withoutPrefix_of_clash, withoutPrefix_append]

theorem agentRunIdStr_job (free : ':' ∉ id.toList) {kind : Kind}
    (other : ∀ trigger chainPos, kind = .cooldown trigger chainPos → id ≠ "ar") :
    agentRunIdStr (owned (.job id) kind) = none := by
  cases kind with
  | liveness =>
      have marked : Handler.withoutPrefix "liveness:ar:" ("liveness:" ++ id) = none :=
        withoutPrefix_marker free "liveness:" rfl
      simp (disch := decide) only [agentRunIdStr, owned_job_liveness, withoutPrefix_of_clash, marked]
  | exitDeferred =>
      have marked : Handler.withoutPrefix "exit-deferred:ar:" ("exit-deferred:" ++ id) = none :=
        withoutPrefix_marker free "exit-deferred:" rfl
      simp (disch := decide) only [agentRunIdStr, owned_job_exitDeferred, withoutPrefix_of_clash,
        marked]
  | cooldown trigger chainPos =>
      have marked : ∀ rest, Handler.withoutPrefix "cooldown:ar:" ("cooldown:" ++ (id ++ ":" ++ rest))
          = none := fun rest =>
        withoutPrefix_marker_colon free (other trigger chainPos rfl) "cooldown:" rest rfl
      simp (disch := decide) only [agentRunIdStr, owned_job_cooldown, withoutPrefix_of_clash, marked]
  | idleGrace =>
      have marked : Handler.withoutPrefix "idle-grace:ar:" ("idle-grace:" ++ id) = none :=
        withoutPrefix_marker free "idle-grace:" rfl
      simp (disch := decide) only [agentRunIdStr, owned_job_idleGrace, withoutPrefix_of_clash, marked]

theorem jobIdStr_job (free : ':' ∉ id.toList) {kind : Kind}
    (other : ∀ trigger chainPos, kind = .cooldown trigger chainPos → id ≠ "ar") :
    jobIdStr (owned (.job id) kind) = some id := by
  unfold jobIdStr
  rw [agentRunIdStr_job free other, if_neg (by simp)]
  cases kind with
  | liveness => simp only [owned_job_liveness, withoutPrefix_append]
  | exitDeferred =>
      simp (disch := decide) only [owned_job_exitDeferred, withoutPrefix_of_clash,
        withoutPrefix_append]
  | cooldown trigger chainPos =>
      simp (disch := decide) only [owned_job_cooldown, withoutPrefix_of_clash, withoutPrefix_append]
      rw [beforeColon_append free]
  | idleGrace =>
      simp (disch := decide) only [owned_job_idleGrace, withoutPrefix_of_clash, withoutPrefix_append]

theorem ownerId_agentRun (free : ':' ∉ id.toList) (kind : Kind) :
    ownerId (owned (.agentRun id) kind) = some (.agentRun id) := by
  unfold ownerId
  rw [agentRunIdStr_agentRun free]

theorem ownerId_job (free : ':' ∉ id.toList) {kind : Kind}
    (other : ∀ trigger chainPos, kind = .cooldown trigger chainPos → id ≠ "ar") :
    ownerId (owned (.job id) kind) = some (.job id) := by
  unfold ownerId
  rw [agentRunIdStr_job free other]
  dsimp only
  rw [jobIdStr_job free other, Option.map_some]

/-- The cooldown of a job with the name of the marker is taken for that of an agent run. -/
theorem ownerId_marker (trigger : String) (chainPos : Nat) :
    ownerId (owned (.job "ar") (.cooldown trigger chainPos)) =
      some (.agentRun (beforeColon (trigger ++ ":" ++ toString chainPos))) := by
  have split : cooldown "ar" trigger chainPos =
      "cooldown:ar:" ++ (trigger ++ ":" ++ toString chainPos) := by
    have marker : "cooldown:ar:" = "cooldown:" ++ "ar" ++ ":" := rfl
    rw [marker]
    simp only [cooldown, String.append_assoc]
  simp (disch := decide) only [ownerId, agentRunIdStr, owned, ownerCooldown, split,
    withoutPrefix_of_clash, withoutPrefix_append]

end Owners

/-! ## Kinds -/

def Kind.start : Kind → String
  | liveness => "liveness:"
  | exitDeferred => "exit-deferred:"
  | cooldown _ _ => "cooldown:"
  | idleGrace => "idle-grace:"

theorem owned_starts (owner : OwnerId) (kind : Kind) :
    ∃ rest, owned owner kind = kind.start ++ rest := by
  cases owner with
  | job id =>
      cases kind with
      | cooldown trigger chainPos => exact ⟨_, owned_job_cooldown trigger chainPos⟩
      | _ => exact ⟨_, rfl⟩
  | agentRun id =>
      have marker : ∀ start rest : String, start ++ "ar:" ++ rest = start ++ ("ar:" ++ rest) :=
        fun _ _ => String.append_assoc
      cases kind with
      | liveness => exact ⟨_, marker "liveness:" id⟩
      | exitDeferred => exact ⟨_, marker "exit-deferred:" id⟩
      | cooldown trigger chainPos =>
          exact ⟨_, (owned_agentRun_cooldown trigger chainPos).trans (marker "cooldown:" _)⟩
      | idleGrace => exact ⟨_, marker "idle-grace:" id⟩

theorem Kind.starts_clash : ∀ start ∈ ["liveness:", "exit-deferred:", "cooldown:", "idle-grace:"],
    ∀ start' ∈ ["liveness:", "exit-deferred:", "cooldown:", "idle-grace:"],
      start ≠ start' → Clash start start' := by
  decide

theorem Kind.start_mem (kind : Kind) :
    kind.start ∈ ["liveness:", "exit-deferred:", "cooldown:", "idle-grace:"] := by
  cases kind <;> simp [start]

/-- Where names are shared, so are their beginnings. -/
theorem start_of_owned {owner owner' : OwnerId} {kind kind' : Kind}
    (same : owned owner kind = owned owner' kind') : kind.start = kind'.start := by
  by_contra apart
  obtain ⟨rest, starts⟩ := owned_starts owner kind
  obtain ⟨rest', starts'⟩ := owned_starts owner' kind'
  have clash := Kind.starts_clash _ kind.start_mem _ kind'.start_mem apart
  have missing := withoutPrefix_of_clash clash rest'
  rw [← starts', ← same, starts, withoutPrefix_append] at missing
  cases missing

theorem colon_free_toString (number : Nat) : ':' ∉ (toString number).toList := by
  have chars : (toString number).toList = Nat.toDigits 10 number := Nat.toList_repr
  rw [chars]
  intro member
  have digit := Nat.isDigit_of_mem_toDigits (by decide) (by decide) member
  cases digit

theorem toString_inj {left right : Nat} (same : toString left = toString right) :
    left = right := by
  have chars (number : Nat) : (toString number).toList = Nat.toDigits 10 number := Nat.toList_repr
  have digits : Nat.toDigits 10 left = Nat.toDigits 10 right := by
    rw [← chars, ← chars, same]
  have read := @Nat.ofDigitChars_ten_toDigits left
  rw [digits, Nat.ofDigitChars_ten_toDigits] at read
  exact read.symm

theorem cooldown_inj {start trigger trigger' : String} {chainPos chainPos' : Nat}
    (same : start ++ ":" ++ trigger ++ ":" ++ toString chainPos =
      start ++ ":" ++ trigger' ++ ":" ++ toString chainPos') :
    trigger = trigger' ∧ chainPos = chainPos' := by
  have split := congrArg (Handler.splitLast ':') same
  rw [splitLast_append rfl (colon_free_toString chainPos),
    splitLast_append rfl (colon_free_toString chainPos')] at split
  simp only [Option.some.injEq, Prod.mk.injEq] at split
  exact ⟨append_inj split.1, toString_inj split.2⟩

/-- The timers of one owner are told apart by their names. -/
theorem owned_inj {owner : OwnerId} {kind kind' : Kind}
    (same : owned owner kind = owned owner kind') : kind = kind' := by
  have starts := start_of_owned same
  cases kind with
  | cooldown trigger chainPos =>
      cases kind' with
      | cooldown trigger' chainPos' =>
          cases owner <;>
          · obtain ⟨rfl, rfl⟩ := cooldown_inj same
            rfl
      | _ => simp [Kind.start] at starts
  | _ => cases kind' <;> first | rfl | simp [Kind.start] at starts

/-! ## Timers and what they stand for -/

namespace Meaning

variable {runtime : Runtime}

theorem owned_decodes_iff {owner : OwnerId} {kind : Kind} (formed : (owned owner kind).WellFormed) :
    (owned owner kind).Decodes runtime ↔ (owned owner kind).Plain runtime := by
  change ownerId (Timer.owned owner kind) = some owner ↔ _
  cases owner with
  | agentRun id =>
      constructor
      · intro _ trigger chainPos _ same
        cases same
      · intro _
        exact ownerId_agentRun formed kind
  | job id =>
      constructor
      · rintro read trigger chainPos rfl same
        rw [same, ownerId_marker] at read
        cases read
      · intro plain
        exact ownerId_job formed fun trigger chainPos cools same =>
          plain trigger chainPos cools (congrArg OwnerId.job same)

theorem queueRetry_decodes_iff {ns queueName itemId : String}
    (formed : (queueRetry ns queueName itemId).WellFormed) :
    (queueRetry ns queueName itemId).Decodes runtime ↔
      (queueRetry ns queueName itemId).Plain runtime := by
  have read : retried (scopedName ns queueName ++ ":" ++ itemId) =
      some ((Handler.splitScopedName (scopedName ns queueName)).1,
        (Handler.splitScopedName (scopedName ns queueName)).2, itemId) := by
    unfold retried
    rw [splitLast_append rfl formed, Option.map_some]
  change (∃ rest, route (Timer.queueRetry (scopedName ns queueName) itemId) = _ ∧ _) ↔ _ ∧ _
  rw [route_queueRetry, ← splitScopedName_scopedName_iff]
  constructor
  · rintro ⟨rest, same, split⟩
    cases same
    rw [read] at split
    simp only [Option.some.injEq, Prod.mk.injEq] at split
    exact Prod.ext split.1 split.2.1
  · intro split
    refine ⟨_, rfl, ?_⟩
    rw [read, split]

theorem cron_decodes_iff (ns cronName : String) :
    (cron ns cronName).Decodes runtime ↔ (cron ns cronName).Plain runtime := by
  change (∃ rest, route (Timer.cron cronName ns) = _ ∧ _) ↔ _ ∧ _
  rw [route_cron]
  constructor
  · rintro ⟨rest, same, named, -, inside⟩
    cases same
    rw [named] at inside
    exact ⟨(afterLastSlash_scopedName_iff ns cronName).mp named, inside⟩
  · rintro ⟨free, inside⟩
    have named := afterLastSlash_scopedName free ns
    refine ⟨_, rfl, named, cronNamespace_scopedName free ns, ?_⟩
    rw [named]
    exact inside

theorem queuePoll_decodes_iff (ns workerName : String) :
    (queuePoll ns workerName).Decodes runtime ↔ (queuePoll ns workerName).Plain runtime := by
  change (∃ rest, route (Timer.queuePoll workerName ns) = _ ∧ _) ↔ _ ∧ _
  rw [route_queuePoll]
  constructor
  · rintro ⟨rest, same, named, inside⟩
    cases same
    rw [named] at inside
    exact ⟨(afterLastSlash_scopedName_iff ns workerName).mp named, inside⟩
  · rintro ⟨free, inside⟩
    have named := @afterLastSlash_scopedName workerName free ns
    refine ⟨_, rfl, named, ?_⟩
    rw [named]
    exact inside

/-- A timer is read back as it was named exactly where it is plain. -/
theorem decodes_iff {timer : Meaning} (formed : timer.WellFormed) :
    timer.Decodes runtime ↔ timer.Plain runtime := by
  cases timer with
  | queueRetry ns queueName itemId => exact queueRetry_decodes_iff formed
  | cron ns cronName => exact cron_decodes_iff ns cronName
  | queuePoll ns workerName => exact queuePoll_decodes_iff ns workerName
  | owned owner kind => exact owned_decodes_iff formed

/-- Timers that are read back are told apart. -/
theorem apart_of_decodes {left right : Meaning} (decodes : left.Decodes runtime)
    (decodes' : right.Decodes runtime) : left.Apart right := by
  rintro owner kind owner' kind' rfl rfl same
  change ownerId (Timer.owned owner kind) = some owner at decodes
  change ownerId (Timer.owned owner' kind') = some owner' at decodes'
  change Timer.owned owner kind = Timer.owned owner' kind' at same
  rw [same, decodes'] at decodes
  cases decodes
  exact ⟨rfl, owned_inj same⟩

end Meaning

/-- Two timers are read back as what they were named after, and told apart, exactly where
both are plain. -/
theorem timers_decode_iff (runtime : Runtime) {left right : Meaning} (formed : left.WellFormed)
    (formed' : right.WellFormed) :
    left.Decodes runtime ∧ right.Decodes runtime ∧ left.Apart right ↔
      left.Plain runtime ∧ right.Plain runtime := by
  rw [← Meaning.decodes_iff formed, ← Meaning.decodes_iff formed']
  constructor
  · rintro ⟨decodes, decodes', -⟩
    exact ⟨decodes, decodes'⟩
  · rintro ⟨decodes, decodes'⟩
    exact ⟨decodes, decodes', Meaning.apart_of_decodes decodes decodes'⟩

/-- The retry of a queue, and the cooldown of a job. -/
theorem timers_decode_shop :
    (Meaning.queueRetry "shop" "ci:fix" "item-1").Decodes (.idle {} {}) ∧
      (Meaning.owned (.job "job-1") (.cooldown "idle" 0)).Decodes (.idle {} {}) ∧
      (Meaning.queueRetry "shop" "ci:fix" "item-1").Apart
        (.owned (.job "job-1") (.cooldown "idle" 0)) := by
  refine (timers_decode_iff (.idle {} {}) ?_ ?_).mpr ⟨?_, ?_⟩
  · change ':' ∉ "item-1".toList
    decide
  · change ':' ∉ "job-1".toList
    decide
  · exact ⟨by decide, by decide⟩
  · rintro trigger chainPos - same
    simp at same

/-- A project whose configured name has a slash in it: the retry is taken for that of another
queue in another project. -/
theorem queueRetry_misread :
    (∃ rest, route (Meaning.queueRetry (resolveNamespace (some "acme/shop") none) "fix"
        "item-1").id = some (.queueRetry rest) ∧ retried rest = some ("acme", "shop/fix", "item-1")) ∧
      ¬∀ (runtime : Runtime) (left right : Meaning), left.WellFormed → right.WellFormed →
        left.Decodes runtime ∧ right.Decodes runtime ∧ left.Apart right := by
  have read : ∃ rest, route (Meaning.queueRetry "acme/shop" "fix" "item-1").id =
      some (.queueRetry rest) ∧ retried rest = some ("acme", "shop/fix", "item-1") :=
    ⟨_, route_queueRetry _ _, by decide⟩
  refine ⟨read, fun decode => ?_⟩
  have formed : (Meaning.queueRetry "acme/shop" "fix" "item-1").WellFormed := by
    change ':' ∉ "item-1".toList
    decide
  obtain ⟨⟨rest, routed, split⟩, -⟩ := decode (.idle {} {}) _ _ formed formed
  obtain ⟨rest', routed', split'⟩ := read
  rw [routed] at routed'
  cases routed'
  rw [split] at split'
  simp at split'

end Timer

end OddJobs
