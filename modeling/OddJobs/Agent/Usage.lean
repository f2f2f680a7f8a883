import Mathlib.Algebra.BigOperators.Group.List.Basic
import Mathlib.Algebra.Group.Pi.Basic
import Mathlib.Algebra.GroupWithZero.Nat
import Mathlib.Data.List.Nodup
import OddJobs.Agent.LogEntry
import OddJobs.Library.Map

/-!
# Token usage

The session logs are read for the tokens that the agents use.  For each agent a byte offset and
totals are kept; where the log of an agent does not exist yet, the most recent other one is read.
-/

namespace OddJobs

open Library

/-! ## Session logs of a project -/

structure LogFile where
  name : String
  content : List UInt8
  -- `metadata().ok().and_then(|m| m.modified().ok())`
  modified : Option Nat
  deriving DecidableEq, Repr

namespace LogFile

/-- The extension of the file is `jsonl`. -/
def isJsonl (file : LogFile) : Bool :=
  ".jsonl".toList.isSuffixOf file.name.toList && file.name != ".jsonl"

/-- The key by which files are compared; an unknown time is the least. -/
def stamp (file : LogFile) : Nat := (file.modified.map (· + 1)).getD 0

def mostRecent : List LogFile → Option LogFile
  | [] => none
  | file :: rest =>
      match mostRecent rest with
      | none => some file
      | some other => if file.stamp ≤ other.stamp then some other else some file

end LogFile

def logName (sessionId : String) : String := sessionId ++ ".jsonl"

def ownLog (directory : List LogFile) (sessionId : String) : Option LogFile :=
  directory.find? fun file => file.name == logName sessionId

def findSessionLogIn (directory : List LogFile) (sessionId : String) : Option LogFile :=
  match ownLog directory sessionId with
  | some file => some file
  | none => LogFile.mostRecent (directory.filter LogFile.isJsonl)

/-! ## Usage of records -/

inductive TokenKind where
  | input
  | output
  | cacheCreation
  | cacheRead
  deriving DecidableEq, Repr

def TokenKind.field : TokenKind → String
  | input => "input_tokens"
  | output => "output_tokens"
  | cacheCreation => "cache_creation_input_tokens"
  | cacheRead => "cache_read_input_tokens"

abbrev Tokens := TokenKind → Nat

/-- The counts as unsigned numbers of 64 bits, whose sums wrap around. -/
def Tokens.wrap (tokens : Tokens) : Tokens := fun kind => tokens kind % 2 ^ 64

def assistantMessage (json : Value) : Option Value :=
  if AgentLog.getStr json "type" = some "assistant" then json.get "message" else none

def tokensOf (json : Value) : Tokens := fun kind =>
  (((assistantMessage json).bind (·.get "usage")).bind fun usage =>
    (usage.get kind.field).bind Value.asU64).getD 0

def modelOf (json : Value) : Option String :=
  (assistantMessage json).bind (AgentLog.getStr · "model")

structure UsageDeltas where
  tokens : Tokens
  model : Option String

def UsageDeltas.record (deltas : UsageDeltas) (json : Value) : UsageDeltas :=
  ⟨Tokens.wrap (deltas.tokens + tokensOf json), (modelOf json).or deltas.model⟩

section Collecting

-- `serde_json::from_str`
variable (fromStr : List Char → Option Value)

def parseSessionUsage (file : Option (List UInt8)) (offset : Nat) : UsageDeltas × Nat :=
  let step := fun deltas json => (.ok (UsageDeltas.record deltas json) : Except Empty UsageDeltas)
  match SessionLog.readFrom fromStr step file offset ⟨0, none⟩ with
  | .ok read => read
  | .error impossible => impossible.elim

/-! ## Collection cycles -/

structure SessionParseState where
  offset : Nat
  tokens : Tokens
  model : Option String

structure AgentMeta where
  agentKind : Option String
  jobId : Option String
  jobKind : Option String
  jobStep : Option String
  ns : Option String
  status : String
  deriving DecidableEq, Repr

structure UsageRecord where
  timestamp : String
  agentId : String
  sessionId : String
  agentKind : Option String
  jobId : Option String
  jobKind : Option String
  jobStep : Option String
  ns : Option String
  status : String
  tokens : Tokens
  model : Option String

/-- `impl Display for AgentRecordStatus`. -/
def AgentRecordStatus.display : AgentRecordStatus → String
  | starting => "starting"
  | running => "running"
  | idle => "idle"
  | exited => "exited"
  | gone => "gone"

/-- What one cycle sees: the agents and jobs, the clock, and the logs of each project. -/
structure Cycle where
  agents : List AgentRecord
  jobs : HashMap Job
  now : String
  projects : PathBuf → List LogFile

def Cycle.agentMeta (cycle : Cycle) (record : AgentRecord) : AgentMeta :=
  let (jobId, jobKind, jobStep) : Option String × Option String × Option String :=
    match record.owner with
    | .job id => (some id, cycle.jobs[id]?.map Job.kind, cycle.jobs[id]?.map Job.step)
    | .agentRun _ => (none, none, none)
  ⟨some record.agentName, jobId, jobKind, jobStep, some record.ns, record.status.display⟩

structure UsageMetricsCollector where
  sessions : HashMap SessionParseState
  agentMeta : HashMap AgentMeta

namespace UsageMetricsCollector

def new : UsageMetricsCollector := ⟨∅, ∅⟩

def readOn (session : Option SessionParseState) (file : LogFile) : SessionParseState :=
  let session := session.getD ⟨0, 0, none⟩
  let (deltas, offset) := parseSessionUsage fromStr (some file.content) session.offset
  ⟨offset, Tokens.wrap (session.tokens + deltas.tokens), deltas.model.or session.model⟩

def collectAgent (cycle : Cycle) (collector : UsageMetricsCollector) (record : AgentRecord) :
    UsageMetricsCollector :=
  let agentMeta := collector.agentMeta.insert record.agentId (cycle.agentMeta record)
  match findSessionLogIn (cycle.projects record.workspacePath) record.agentId with
  | none => { collector with agentMeta }
  | some file =>
      let session := readOn fromStr collector.sessions[record.agentId]? file
      ⟨collector.sessions.insert record.agentId session, agentMeta⟩

def usageRecord (now : String) (collector : UsageMetricsCollector) (agentId : String)
    (parse : SessionParseState) : UsageRecord :=
  let info := collector.agentMeta[agentId]?
  ⟨now, agentId, agentId, info.bind AgentMeta.agentKind, info.bind AgentMeta.jobId,
    info.bind AgentMeta.jobKind, info.bind AgentMeta.jobStep, info.bind AgentMeta.ns,
    (info.map AgentMeta.status).getD "gone", parse.tokens, parse.model⟩

/-- Run one collection cycle: parse logs, and write records. -/
def collectOnce (cycle : Cycle) (collector : UsageMetricsCollector) :
    UsageMetricsCollector × List UsageRecord :=
  let collector := cycle.agents.foldl (collectAgent fromStr cycle) ⟨collector.sessions, ∅⟩
  (collector, collector.sessions.toList.map fun (agentId, parse) =>
    collector.usageRecord cycle.now agentId parse)

end UsageMetricsCollector

/-! ## Once and for the right agent -/

def used (records : List Value) : Tokens := (records.map tokensOf).sum

def ownTokens (content : List UInt8) : Tokens :=
  used (SessionLog.records fromStr (Lines.lines SessionLog.newline content))

def Cycle.log (cycle : Cycle) (agentId : String) (path : PathBuf) : Option LogFile :=
  ownLog (cycle.projects path) agentId

def UsageMetricsCollector.offset (collector : UsageMetricsCollector) (agentId : String) : Nat :=
  (collector.sessions[agentId]?.map SessionParseState.offset).getD 0

/-- In every cycle the totals that are written for an agent are those of its own log, and no record
with tokens is read of another. -/
def Counted (agentId : String) (path : PathBuf) (collector : UsageMetricsCollector) :
    List Cycle → Prop
  | [] => True
  | cycle :: rest =>
      let (after, written) := collector.collectOnce fromStr cycle
      (∀ record ∈ written, record.agentId = agentId → record.tokens =
        ((cycle.log agentId path).map fun file => ownTokens fromStr file.content).getD 0) ∧
      (∀ file, findSessionLogIn (cycle.projects path) agentId = some file →
        file.name ≠ logName agentId →
          ∀ json ∈ SessionLog.recordsIn fromStr (file.content.drop (collector.offset agentId)),
            tokensOf json = 0) ∧
      Counted agentId path after rest

/-- No tokens are read of other logs while an agent has none, and where bytes were skipped for them,
its own log has its counts behind these. -/
def Unmixed (agentId : String) (path : PathBuf) (skipped : Nat) : List Cycle → Prop
  | [] => True
  | cycle :: rest =>
      match cycle.log agentId path with
      | some file =>
          Tokens.wrap (used (SessionLog.recordsIn fromStr (file.content.drop skipped))) =
            ownTokens fromStr file.content ∧
          Unmixed agentId path skipped rest
      | none =>
          match LogFile.mostRecent ((cycle.projects path).filter LogFile.isJsonl) with
          | none => Unmixed agentId path skipped rest
          | some other =>
              (∀ json ∈ SessionLog.recordsIn fromStr (other.content.drop skipped),
                tokensOf json = 0) ∧
              Unmixed agentId path
                (skipped + SessionLog.readableLength (other.content.drop skipped)) rest

/-- The agents of a cycle are different, and one of them is the agent with its workspace. -/
structure Cycle.Has (cycle : Cycle) (agentId : String) (path : PathBuf) : Prop where
  distinct : (cycle.agents.map AgentRecord.agentId).Nodup
  present : ∃ record ∈ cycle.agents, record.agentId = agentId ∧ record.workspacePath = path

def Cycle.Grows (before after : Cycle) : Prop :=
  ∀ agentId path file, before.log agentId path = some file →
    ∃ later, after.log agentId path = some later ∧ file.content <+: later.content

variable {fromStr}

/-! ## Sums -/

theorem wrap_wrap_add (first second : Tokens) :
    Tokens.wrap (Tokens.wrap first + second) = Tokens.wrap (first + second) := by
  funext kind
  simp [Tokens.wrap]

theorem wrap_add_wrap (first second : Tokens) :
    Tokens.wrap (first + Tokens.wrap second) = Tokens.wrap (first + second) := by
  funext kind
  simp [Tokens.wrap]

theorem used_append (first second : List Value) :
    used (first ++ second) = used first + used second := by
  simp [used]

theorem used_eq_zero {records : List Value} (free : ∀ json ∈ records, tokensOf json = 0) :
    used records = 0 := by
  induction records with
  | nil => rfl
  | cons json rest ih =>
      have later := ih fun other member => free other (List.mem_cons_of_mem _ member)
      rw [used] at later ⊢
      rw [List.map_cons, List.sum_cons, free json List.mem_cons_self, later, add_zero]

theorem foldl_record (records : List Value) (deltas : UsageDeltas)
    (small : Tokens.wrap deltas.tokens = deltas.tokens) :
    (records.foldl UsageDeltas.record deltas).tokens =
      Tokens.wrap (deltas.tokens + used records) := by
  induction records generalizing deltas with
  | nil => simp [used, small]
  | cons json rest ih =>
      have wrapped : Tokens.wrap (deltas.record json).tokens = (deltas.record json).tokens := by
        funext kind
        simp [UsageDeltas.record, Tokens.wrap]
      rw [List.foldl_cons, ih _ wrapped]
      change Tokens.wrap (Tokens.wrap (deltas.tokens + tokensOf json) + used rest) = _
      rw [wrap_wrap_add, add_assoc]
      simp [used]

theorem parseSessionUsage_eq (content : List UInt8) (offset : Nat) :
    let read := parseSessionUsage fromStr (some content) offset
    read.1.tokens = Tokens.wrap (used (SessionLog.recordsIn fromStr (content.drop offset))) ∧
      read.2 = offset + SessionLog.readableLength (content.drop offset) := by
  have run : SessionLog.readFrom fromStr (fun deltas json =>
      (.ok (UsageDeltas.record deltas json) : Except Empty UsageDeltas)) (some content) offset
        ⟨0, none⟩ = .ok ((SessionLog.recordsIn fromStr (content.drop offset)).foldl
          UsageDeltas.record ⟨0, none⟩,
            offset + SessionLog.readableLength (content.drop offset)) := by
    rw [SessionLog.readFrom_eq]
    exact congrArg (Except.map _) (List.foldlM_pure (m := Except Empty))
  dsimp only
  rw [parseSessionUsage, run]
  refine ⟨?_, rfl⟩
  rw [foldl_record _ _ rfl, zero_add]

/-! ## One cycle -/

namespace UsageMetricsCollector

theorem readOn_eq (session : Option SessionParseState) (file : LogFile) :
    let offset := (session.map SessionParseState.offset).getD 0
    let tokens := (session.map SessionParseState.tokens).getD 0
    (readOn fromStr session file).offset =
        offset + SessionLog.readableLength (file.content.drop offset) ∧
      (readOn fromStr session file).tokens =
        Tokens.wrap (tokens + used (SessionLog.recordsIn fromStr (file.content.drop offset))) := by
  have kept : (session.getD ⟨0, 0, none⟩).offset =
      (session.map SessionParseState.offset).getD 0 ∧ (session.getD ⟨0, 0, none⟩).tokens =
        (session.map SessionParseState.tokens).getD 0 := by
    cases session <;> exact ⟨rfl, rfl⟩
  obtain ⟨tokens, offset⟩ :=
    @parseSessionUsage_eq fromStr file.content (session.getD ⟨0, 0, none⟩).offset
  dsimp only
  rw [readOn, ← kept.1, ← kept.2]
  refine ⟨offset, ?_⟩
  change Tokens.wrap (_ + _) = _
  rw [tokens, wrap_add_wrap]

variable (fromStr) in
def collected (cycle : Cycle) (agentId : String) (path : PathBuf)
    (session : Option SessionParseState) : Option SessionParseState :=
  match findSessionLogIn (cycle.projects path) agentId with
  | none => session
  | some file => some (readOn fromStr session file)

theorem collectAgent_own (cycle : Cycle) (collector : UsageMetricsCollector)
    (record : AgentRecord) :
    (collectAgent fromStr cycle collector record).sessions[record.agentId]? =
      collected fromStr cycle record.agentId record.workspacePath
        collector.sessions[record.agentId]? := by
  rw [collectAgent, collected]
  cases findSessionLogIn (cycle.projects record.workspacePath) record.agentId <;> simp

theorem collectAgent_other (cycle : Cycle) (collector : UsageMetricsCollector)
    {record : AgentRecord} {agentId : String} (other : record.agentId ≠ agentId) :
    (collectAgent fromStr cycle collector record).sessions[agentId]? =
      collector.sessions[agentId]? := by
  rw [collectAgent]
  cases findSessionLogIn (cycle.projects record.workspacePath) record.agentId with
  | none => rfl
  | some file => simp [Std.ExtTreeMap.getElem?_insert, other]

theorem foldl_other (cycle : Cycle) (agents : List AgentRecord) (collector : UsageMetricsCollector)
    {agentId : String} (other : ∀ record ∈ agents, record.agentId ≠ agentId) :
    (agents.foldl (collectAgent fromStr cycle) collector).sessions[agentId]? =
      collector.sessions[agentId]? := by
  induction agents generalizing collector with
  | nil => rfl
  | cons record rest ih =>
      rw [List.foldl_cons, ih _ fun later member => other later (List.mem_cons_of_mem _ member),
        collectAgent_other cycle collector (other record List.mem_cons_self)]

/-- Each agent is collected once, whatever the order of the agents is. -/
theorem foldl_own (cycle : Cycle) (agents : List AgentRecord) (collector : UsageMetricsCollector)
    {record : AgentRecord} (member : record ∈ agents)
    (distinct : (agents.map AgentRecord.agentId).Nodup) :
    (agents.foldl (collectAgent fromStr cycle) collector).sessions[record.agentId]? =
      collected fromStr cycle record.agentId record.workspacePath
        collector.sessions[record.agentId]? := by
  obtain ⟨before, after, rfl⟩ := List.append_of_mem member
  rw [List.map_append, List.map_cons, List.nodup_middle, List.nodup_cons,
    ← List.map_append] at distinct
  have other : ∀ later ∈ before ++ after, later.agentId ≠ record.agentId := fun later member same =>
    distinct.1 (List.mem_map.mpr ⟨later, member, same⟩)
  rw [List.foldl_append, List.foldl_cons,
    foldl_other cycle after _ fun later member => other later (List.mem_append_right _ member),
    collectAgent_own,
    foldl_other cycle before _ fun later member => other later (List.mem_append_left _ member)]

theorem collectOnce_session {cycle : Cycle} {agentId : String} {path : PathBuf}
    (has : cycle.Has agentId path) (collector : UsageMetricsCollector) :
    (collector.collectOnce fromStr cycle).1.sessions[agentId]? =
      collected fromStr cycle agentId path collector.sessions[agentId]? := by
  obtain ⟨record, member, rfl, rfl⟩ := has.present
  exact foldl_own cycle cycle.agents ⟨collector.sessions, ∅⟩ member has.distinct

/-- What is written for an agent is what is kept of it. -/
theorem written_tokens {cycle : Cycle} {agentId : String} {collector : UsageMetricsCollector}
    {total : Tokens} :
    (∀ record ∈ (collector.collectOnce fromStr cycle).2, record.agentId = agentId →
      record.tokens = total) ↔
    ∀ session, (collector.collectOnce fromStr cycle).1.sessions[agentId]? = some session →
      session.tokens = total := by
  constructor
  · intro all session found
    refine all _ (List.mem_map.mpr ⟨(agentId, session), ?_, rfl⟩) rfl
    exact Std.ExtTreeMap.mem_toList_iff_getElem?_eq_some.mpr found
  · intro all record member own
    obtain ⟨⟨key, session⟩, listed, rfl⟩ := List.mem_map.mp member
    have found := Std.ExtTreeMap.mem_toList_iff_getElem?_eq_some.mp listed
    have same : key = agentId := own
    subst same
    exact all session found

/-! ## Many cycles -/

variable (fromStr) in
/-- What is kept of an agent that has skipped some bytes of its log for those of other ones. -/
structure Knows (collector : UsageMetricsCollector) (agentId : String) (skipped : Nat)
    (content : List UInt8) : Prop where
  offset : collector.offset agentId = skipped + SessionLog.readableLength (content.drop skipped)
  tokens : (collector.sessions[agentId]?.map SessionParseState.tokens).getD 0 =
    Tokens.wrap (used (SessionLog.recordsIn fromStr (content.drop skipped)))

theorem log_found {cycle : Cycle} {agentId : String} {path : PathBuf} {file : LogFile}
    (own : cycle.log agentId path = some file) :
    findSessionLogIn (cycle.projects path) agentId = some file ∧ file.name = logName agentId := by
  change ownLog _ _ = _ at own
  rw [findSessionLogIn, own]
  refine ⟨rfl, ?_⟩
  simpa using List.find?_some own

theorem mostRecent_mem {files : List LogFile} {file : LogFile}
    (found : LogFile.mostRecent files = some file) : file ∈ files := by
  induction files generalizing file with
  | nil => cases found
  | cons first rest ih =>
      rw [LogFile.mostRecent] at found
      rcases later : LogFile.mostRecent rest with _ | other
      · rw [later] at found
        cases found
        exact List.mem_cons_self
      · rw [later] at found
        dsimp only at found
        split at found
        · cases found
          exact List.mem_cons_of_mem _ (ih later)
        · cases found
          exact List.mem_cons_self

/-- Where an agent has no log, the one that is found is another. -/
theorem other_found {cycle : Cycle} {agentId : String} {path : PathBuf}
    (missing : cycle.log agentId path = none) :
    findSessionLogIn (cycle.projects path) agentId =
        LogFile.mostRecent ((cycle.projects path).filter LogFile.isJsonl) ∧
      ∀ file, findSessionLogIn (cycle.projects path) agentId = some file →
        file.name ≠ logName agentId := by
  change ownLog _ _ = _ at missing
  have found : findSessionLogIn (cycle.projects path) agentId =
      LogFile.mostRecent ((cycle.projects path).filter LogFile.isJsonl) := by
    rw [findSessionLogIn, missing]
  refine ⟨found, fun file is => ?_⟩
  rw [found] at is
  have listed := (List.mem_filter.mp (mostRecent_mem is)).1
  simpa using List.find?_eq_none.mp missing file listed

/-- A longer log is read on where it was left. -/
theorem Knows.grown {collector after : UsageMetricsCollector} {agentId : String} {skipped : Nat}
    {content : List UInt8} {file : LogFile}
    (knows : Knows fromStr collector agentId skipped content)
    (grows : content <+: file.content)
    (read : after.sessions[agentId]? = some (readOn fromStr collector.sessions[agentId]? file)) :
    Knows fromStr after agentId skipped file.content := by
  obtain ⟨more, split⟩ := grows
  obtain ⟨offset, tokens⟩ := @readOn_eq fromStr collector.sessions[agentId]? file
  rw [knows.tokens, wrap_wrap_add, ← used_append] at tokens
  have at_ : (collector.sessions[agentId]?.map SessionParseState.offset).getD 0 =
      skipped + SessionLog.readableLength (content.drop skipped) := knows.offset
  rw [at_] at offset tokens
  have whole : file.content.drop skipped =
      content.drop skipped ++ more.drop (skipped - content.length) := by
    rw [← split, List.drop_append]
  have behind : file.content.drop (skipped + SessionLog.readableLength (content.drop skipped)) =
      (content.drop skipped ++ more.drop (skipped - content.length)).drop
        (SessionLog.readableLength (content.drop skipped)) := by
    rw [← whole, List.drop_drop]
  rw [behind] at offset tokens
  constructor
  · rw [UsageMetricsCollector.offset, read, whole, Option.map_some, Option.getD_some, offset,
      Nat.add_assoc, ← SessionLog.readableLength_append]
  · rw [read, whole, Option.map_some, Option.getD_some, tokens, ← SessionLog.recordsIn_append]

theorem counted_cons {agentId : String} {path : PathBuf} {cycle : Cycle} {rest : List Cycle}
    {collector : UsageMetricsCollector} :
    Counted fromStr agentId path collector (cycle :: rest) ↔
      (∀ session, (collector.collectOnce fromStr cycle).1.sessions[agentId]? = some session →
        session.tokens =
          ((cycle.log agentId path).map fun file => ownTokens fromStr file.content).getD 0) ∧
      (∀ file, findSessionLogIn (cycle.projects path) agentId = some file →
        file.name ≠ logName agentId →
          ∀ json ∈ SessionLog.recordsIn fromStr (file.content.drop (collector.offset agentId)),
            tokensOf json = 0) ∧
      Counted fromStr agentId path (collector.collectOnce fromStr cycle).1 rest := by
  rw [← written_tokens]
  exact Iff.rfl

theorem knows_nil {collector : UsageMetricsCollector} {agentId : String} {skipped : Nat} :
    Knows fromStr collector agentId skipped [] ↔ collector.offset agentId = skipped ∧
      (collector.sessions[agentId]?.map SessionParseState.tokens).getD 0 = 0 := by
  have nothing : SessionLog.recordsIn fromStr ([].drop skipped) = [] := by
    rw [List.drop_nil]
    rfl
  have length : SessionLog.readableLength ([].drop skipped) = 0 := by
    rw [List.drop_nil]
    rfl
  constructor
  · rintro ⟨offset, tokens⟩
    rw [length] at offset
    rw [nothing] at tokens
    exact ⟨offset, tokens⟩
  · rintro ⟨offset, tokens⟩
    exact ⟨by rw [offset, length]; rfl, by rw [tokens, nothing]; rfl⟩

section Step

variable {agentId : String} {path : PathBuf} {skipped : Nat} {cycle : Cycle} {rest : List Cycle}
  {collector : UsageMetricsCollector}

/-- A cycle that finds the agent's own log. -/
theorem counted_own {content : List UInt8} {file : LogFile}
    (knows : Knows fromStr collector agentId skipped content) (has : cycle.Has agentId path)
    (own : cycle.log agentId path = some file) (grows : content <+: file.content) :
    let after := (collector.collectOnce fromStr cycle).1
    Knows fromStr after agentId skipped file.content ∧
      (Counted fromStr agentId path collector (cycle :: rest) ↔
        Tokens.wrap (used (SessionLog.recordsIn fromStr (file.content.drop skipped))) =
          ownTokens fromStr file.content ∧ Counted fromStr agentId path after rest) := by
  have found := log_found own
  have read : (collector.collectOnce fromStr cycle).1.sessions[agentId]? =
      some (readOn fromStr collector.sessions[agentId]? file) := by
    rw [collectOnce_session has, collected, found.1]
  have after := knows.grown grows read
  have tokens := after.tokens
  rw [read, Option.map_some, Option.getD_some] at tokens
  refine ⟨after, ?_⟩
  rw [counted_cons, read, own, Option.map_some, Option.getD_some, ← tokens]
  constructor
  · rintro ⟨total, -, later⟩
    exact ⟨total _ rfl, later⟩
  · rintro ⟨total, later⟩
    refine ⟨fun session is => ?_, fun other is different => ?_, later⟩
    · cases is
      exact total
    · rw [found.1] at is
      cases is
      exact absurd found.2 different

/-- A cycle that finds no log. -/
theorem counted_missing (knows : Knows fromStr collector agentId skipped [])
    (has : cycle.Has agentId path) (missing : cycle.log agentId path = none)
    (found : findSessionLogIn (cycle.projects path) agentId = none) :
    let after := (collector.collectOnce fromStr cycle).1
    Knows fromStr after agentId skipped [] ∧
      (Counted fromStr agentId path collector (cycle :: rest) ↔
        Counted fromStr agentId path after rest) := by
  have kept : (collector.collectOnce fromStr cycle).1.sessions[agentId]? =
      collector.sessions[agentId]? := by
    rw [collectOnce_session has, collected, found]
  obtain ⟨offset, tokens⟩ := knows_nil.mp knows
  refine ⟨knows_nil.mpr ⟨?_, ?_⟩, ?_⟩
  · rw [← offset, UsageMetricsCollector.offset, kept]
    rfl
  · rw [kept, tokens]
  · rw [counted_cons, kept, missing, found]
    refine ⟨fun ⟨_, _, later⟩ => later, fun later => ⟨fun session is => ?_, ?_, later⟩⟩
    · rw [is] at tokens
      exact tokens
    · intro file is
      cases is

/-- A cycle that finds another log. -/
theorem counted_other {file : LogFile} (knows : Knows fromStr collector agentId skipped [])
    (has : cycle.Has agentId path) (missing : cycle.log agentId path = none)
    (found : findSessionLogIn (cycle.projects path) agentId = some file) :
    let after := (collector.collectOnce fromStr cycle).1
    let read := file.content.drop skipped
    ((∀ json ∈ SessionLog.recordsIn fromStr read, tokensOf json = 0) →
      Knows fromStr after agentId (skipped + SessionLog.readableLength read) []) ∧
      (Counted fromStr agentId path collector (cycle :: rest) ↔
        (∀ json ∈ SessionLog.recordsIn fromStr read, tokensOf json = 0) ∧
          Counted fromStr agentId path after rest) := by
  have session : (collector.collectOnce fromStr cycle).1.sessions[agentId]? =
      some (readOn fromStr collector.sessions[agentId]? file) := by
    rw [collectOnce_session has, collected, found]
  obtain ⟨offset, tokens⟩ := knows_nil.mp knows
  obtain ⟨offset', tokens'⟩ := @readOn_eq fromStr collector.sessions[agentId]? file
  have at_ : (collector.sessions[agentId]?.map SessionParseState.offset).getD 0 = skipped := offset
  rw [at_] at offset' tokens'
  have free : (∀ json ∈ SessionLog.recordsIn fromStr (file.content.drop skipped),
      tokensOf json = 0) → (readOn fromStr collector.sessions[agentId]? file).tokens = 0 := by
    intro free
    rw [tokens', tokens, used_eq_zero free]
    rfl
  refine ⟨fun none => knows_nil.mpr ⟨?_, ?_⟩, ?_⟩
  · rw [UsageMetricsCollector.offset, session, Option.map_some, Option.getD_some, offset']
  · rw [session, Option.map_some, Option.getD_some, free none]
  · rw [counted_cons, session, missing, found, offset]
    constructor
    · rintro ⟨-, others, later⟩
      exact ⟨others file rfl ((other_found missing).2 file found), later⟩
    · rintro ⟨none, later⟩
      refine ⟨fun session is => ?_, fun other is _ => ?_, later⟩
      · cases is
        exact free none
      · cases is
        exact none

end Step

theorem counted_knows {agentId : String} {path : PathBuf} {skipped : Nat} {last : Option LogFile}
    {cycles : List Cycle} {collector : UsageMetricsCollector}
    (knows : Knows fromStr collector agentId skipped ((last.map LogFile.content).getD []))
    (continues : ∀ file, last = some file → ∀ cycle, cycles.head? = some cycle →
      ∃ later, cycle.log agentId path = some later ∧ file.content <+: later.content)
    (has : ∀ cycle ∈ cycles, cycle.Has agentId path) (grows : cycles.IsChain Cycle.Grows) :
    Counted fromStr agentId path collector cycles ↔
      Unmixed fromStr agentId path skipped cycles := by
  induction cycles generalizing collector last skipped with
  | nil => exact Iff.rfl
  | cons cycle rest ih =>
      have here := has cycle List.mem_cons_self
      have there : ∀ other ∈ rest, other.Has agentId path :=
        fun other member => has other (List.mem_cons_of_mem _ member)
      have chain : rest.IsChain Cycle.Grows := List.IsChain.of_cons grows
      rcases own : cycle.log agentId path with _ | file
      · have none : last = none := by
          refine Option.eq_none_iff_forall_ne_some.mpr fun file was => ?_
          obtain ⟨later, is, -⟩ := continues file was cycle rfl
          rw [own] at is
          cases is
        subst none
        rw [Unmixed, own]
        dsimp only
        rw [← (other_found own).1]
        rcases found : findSessionLogIn (cycle.projects path) agentId with _ | file
        · obtain ⟨after, step⟩ := @counted_missing fromStr agentId path skipped cycle rest
            collector knows here own found
          rw [step]
          exact @ih skipped none _ after (fun file is => by cases is) there chain
        · obtain ⟨after, step⟩ := @counted_other fromStr agentId path skipped cycle rest collector
            file knows here own found
          rw [step]
          refine and_congr_right fun free => ?_
          exact @ih _ none _ (after free) (fun file is => by cases is) there chain
      · have content : ((last.map LogFile.content).getD []) <+: file.content := by
          cases was : last with
          | none => exact List.nil_prefix
          | some before =>
              obtain ⟨later, is, grown⟩ := continues before was cycle rfl
              rw [own] at is
              cases is
              exact grown
        obtain ⟨after, step⟩ := @counted_own fromStr agentId path skipped cycle rest collector
          _ file knows here own content
        rw [step, Unmixed, own]
        refine and_congr_right fun _ => ?_
        refine @ih skipped (some file) _ after (fun before same other first => ?_) there chain
        cases same
        cases rest with
        | nil => cases first
        | cons next later =>
            cases first
            exact (List.isChain_cons_cons.mp grows).1 agentId path file own

/-- The totals that are written for an agent are those of its own log, and no other contributes, if
and only if no other log is read for it that has tokens or hides those of its own. -/
theorem counted_iff {agentId : String} {path : PathBuf} {cycles : List Cycle}
    (has : ∀ cycle ∈ cycles, cycle.Has agentId path) (grows : cycles.IsChain Cycle.Grows) :
    Counted fromStr agentId path .new cycles ↔ Unmixed fromStr agentId path 0 cycles := by
  have fresh : Knows fromStr .new agentId 0 [] :=
    knows_nil.mpr ⟨by simp [UsageMetricsCollector.offset, new], by simp [new]⟩
  exact @counted_knows fromStr agentId path 0 none cycles .new fresh (fun file is => by cases is)
    has grows

end UsageMetricsCollector

end Collecting

/-! ## Two agents in one project -/

namespace SharedProject

def usageLine : List Char :=
  ("\x7b\"type\":\"assistant\",\"message\":\x7b\"usage\":" ++
    "\x7b\"input_tokens\":5\x7d\x7d\x7d").toList

def usageValue : Value :=
  .object [("type", .string "assistant"),
    ("message", .object [("usage", .object [("input_tokens", .number "5")])])]

def parseLine (text : List Char) : Option Value :=
  if text = usageLine then some usageValue else none

def agent (agentId : String) : AgentRecord :=
  { (default : AgentRecord) with agentId, workspacePath := "/project" }

def cycle (logs : List (String × Nat)) : Cycle where
  agents := [agent "first", agent "second"]
  jobs := ∅
  now := ""
  projects := fun _ => logs.map fun (name, records) =>
    ⟨name, (List.replicate records (SessionLog.writeLine usageLine)).flatten, none⟩

theorem cycle_has (logs : List (String × Nat)) {agentId : String}
    (is : agentId = "first" ∨ agentId = "second") : (cycle logs).Has agentId "/project" := by
  refine ⟨by simp [cycle, agent], agent agentId, ?_, rfl, rfl⟩
  rcases is with rfl | rfl <;> simp [cycle]

/-- The log of the first agent grows, and that of the second appears. -/
theorem cycle_grows :
    (cycle [("first.jsonl", 1)]).Grows (cycle [("first.jsonl", 2), ("second.jsonl", 1)]) := by
  intro agentId path file found
  simp only [Cycle.log, ownLog, cycle, List.map_cons, List.map_nil] at found ⊢
  by_cases named : "first.jsonl" = logName agentId
  · refine ⟨⟨"first.jsonl", (List.replicate 2 (SessionLog.writeLine usageLine)).flatten, none⟩,
      ?_, ?_⟩
    · rw [List.find?_cons_of_pos (by simpa using named)]
    · rw [List.find?_cons_of_pos (by simpa using named)] at found
      cases found
      exact ⟨SessionLog.writeLine usageLine, by simp [List.replicate]⟩
  · rw [List.find?_cons_of_neg (by simpa using named)] at found
    cases found

end SharedProject

namespace UsageMetricsCollector

open SharedProject

/-- The agent that has a log from the start is counted. -/
theorem first_counted :
    Counted parseLine "first" "/project" .new
      [cycle [("first.jsonl", 1)], cycle [("first.jsonl", 2), ("second.jsonl", 1)]] := by
  refine (counted_iff (fun seen member => ?_) (by simp [cycle_grows])).mpr ⟨?_, ?_, trivial⟩
  · rcases List.mem_pair.mp member with rfl | rfl <;> exact cycle_has _ (.inl rfl)
  · funext kind
    cases kind <;> decide +kernel
  · funext kind
    cases kind <;> decide +kernel

/-- An agent without a log is given the tokens of another. -/
theorem second_miscounted :
    ¬∀ (fromStr : List Char → Option Value) (agentId : String) (path : PathBuf)
      (cycles : List Cycle), (∀ cycle ∈ cycles, cycle.Has agentId path) →
        cycles.IsChain Cycle.Grows → Counted fromStr agentId path .new cycles := by
  intro all
  have counted := all parseLine "second" "/project" [cycle [("first.jsonl", 1)]]
    (fun _ member => List.mem_singleton.mp member ▸ cycle_has _ (.inr rfl)) (by simp)
  have session := (counted_cons.mp counted).1
  have read : ((new.collectOnce parseLine (cycle [("first.jsonl", 1)])).1.sessions["second"]?).map
      (fun session => session.tokens .input) = some 5 := by
    decide +kernel
  obtain ⟨kept, found, tokens⟩ := Option.map_eq_some_iff.mp read
  have total := congrFun (session kept found) .input
  rw [tokens] at total
  revert total
  decide +kernel

end UsageMetricsCollector

end OddJobs
