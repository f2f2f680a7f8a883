import OddJobs.Agent.LogEntry
import Mathlib.Data.List.Chain

/-!
# Entries in batches

The log of an agent is polled while it grows, and each poll knows only the records it reads
itself.  The entries are those of the whole log unless a record refers back to an earlier poll.
-/

namespace OddJobs.AgentLog

open Library

/-! ## What a record does -/

/-- What a record does to the entries, whatever they are. -/
inductive Action where
  /-- The user speaks, at a time. -/
  | user (timestamp : Option String)
  /-- Entries are added; at the end of a turn also that of the turn, at a time, with its tokens. -/
  | push (entries : List AgentLogEntry) (turn : Option (String × Option Nat))
  /-- A command has ended. -/
  | complete (code : Int)
  | skip
  deriving DecidableEq, Repr

section Actions

variable (toLowercase : List Char → List Char)

def actionOf (json : Value) : Except Panic Action :=
  let recordType := (getStr json "type").getD ""
  let timestamp := (extractTimestamp json).getD ""
  if recordType = "user" then .ok (.user (extractTimestamp json))
  else
    match extractError json with
    | some error => .ok (.push [⟨timestamp, .error error⟩] none)
    | none =>
        if recordType = "assistant" then
          match json.get "message" with
          | none => .ok .skip
          | some message => do
              let tools ← toolEntries timestamp message
              let tokens := ((message.get "usage").bind (·.get "output_tokens")).bind Value.asU64
              return .push tools (if endsTurn message then some (timestamp, tokens) else none)
        else if recordType = "result" then
          match getStr json "content" with
          | none => .ok .skip
          | some content =>
              (extractExitCode toLowercase content.toList).run.map fun
                | none => .skip
                | some code => .complete code
        else .ok .skip

def turnEntry (lastUserTimestamp : Option String) :
    Option (String × Option Nat) → Except Panic (List AgentLogEntry)
  | none => .ok []
  | some (timestamp, tokens) => do
      let durationSecs ← (computeDurationSecs lastUserTimestamp timestamp).run
      return [⟨timestamp, .turnComplete durationSecs tokens⟩]

def Progress.act (progress : Progress) : Action → Except Panic Progress
  | .user timestamp =>
      .ok { progress with lastUserTimestamp := timestamp.or progress.lastUserTimestamp }
  | .push entries turn => do
      let turn ← turnEntry progress.lastUserTimestamp turn
      return { progress with entries := progress.entries ++ entries ++ turn }
  | .complete code => .ok { progress with entries := completeLast code progress.entries }
  | .skip => .ok progress

theorem extractEntries_eq (progress : Progress) (json : Value) :
    extractEntries toLowercase progress json = actionOf toLowercase json >>= progress.act := by
  unfold extractEntries actionOf
  dsimp only
  by_cases user : (getStr json "type").getD "" = "user"
  · rw [if_pos user, if_pos user]
    rfl
  rw [if_neg user, if_neg user]
  rcases extractError json with _ | error
  · dsimp only
    by_cases assistant : (getStr json "type").getD "" = "assistant"
    · rw [if_pos assistant, if_pos assistant]
      rcases json.get "message" with _ | message
      · rfl
      dsimp only
      rcases toolEntries _ message with error | tools
      · rfl
      cases ends : endsTurn message with
      | false =>
          simp [turnEntries, turnEntry, Progress.act, ends, bind, Except.bind, pure, Except.pure]
      | true =>
          simp only [turnEntries, ends, bind, Except.bind, pure, Except.pure, if_true,
            Progress.act, turnEntry]
    rw [if_neg assistant, if_neg assistant]
    by_cases result : (getStr json "type").getD "" = "result"
    · rw [if_pos result, if_pos result]
      rcases getStr json "content" with _ | content
      · rfl
      dsimp only
      rcases OptionT.run _ with error | _ | code <;> rfl
    rw [if_neg result, if_neg result]
    rfl
  · simp [Progress.act, turnEntry, bind, Except.bind, pure, Except.pure]

end Actions

/-! ## Open commands -/

def isOpen (entry : AgentLogEntry) : Bool :=
  match entry.kind with
  | .bashCommand _ none => true
  | _ => false

theorem completeFirst_of_closed {code : Int} {entries : List AgentLogEntry}
    (closed : ∀ entry ∈ entries, isOpen entry = false) : completeFirst code entries = entries := by
  induction entries with
  | nil => rfl
  | cons entry rest ih =>
      obtain ⟨first, later⟩ := List.forall_mem_cons.mp closed
      rw [completeFirst]
      split
      · rename_i command is
        simp [isOpen, is] at first
      · rw [ih later]

def finished (code : Int) (entry : AgentLogEntry) : AgentLogEntry :=
  match entry.kind with
  | .bashCommand command none => { entry with kind := .bashCommand command (some code) }
  | _ => entry

theorem kind_of_open {entry : AgentLogEntry} (opened : isOpen entry = true) :
    ∃ command, entry.kind = .bashCommand command none := by
  rw [isOpen] at opened
  split at opened
  · exact ⟨_, ‹_›⟩
  · cases opened

theorem finished_ne {code : Int} {entry : AgentLogEntry} (opened : isOpen entry = true) :
    finished code entry ≠ entry := by
  obtain ⟨command, is⟩ := kind_of_open opened
  intro same
  have kinds := congrArg AgentLogEntry.kind same
  simp [finished, is] at kinds

theorem isOpen_finished (code : Int) {entry : AgentLogEntry} (opened : isOpen entry = true) :
    isOpen (finished code entry) = false := by
  obtain ⟨command, is⟩ := kind_of_open opened
  simp [finished, isOpen, is]

/-- The first open command ends. -/
theorem completeFirst_of_open {code : Int} {front back : List AgentLogEntry}
    {entry : AgentLogEntry} (closed : ∀ entry ∈ front, isOpen entry = false)
    (opened : isOpen entry = true) :
    completeFirst code (front ++ entry :: back) = front ++ finished code entry :: back := by
  induction front with
  | nil =>
      obtain ⟨command, is⟩ := kind_of_open opened
      simp [completeFirst, finished, is]
  | cons first rest ih =>
      obtain ⟨closes, later⟩ := List.forall_mem_cons.mp closed
      rw [List.cons_append, completeFirst]
      split
      · rename_i command is
        simp [isOpen, is] at closes
      · rw [ih later, List.cons_append]

def openCount (entries : List AgentLogEntry) : Nat := entries.countP isOpen

theorem completeLast_of_closed {code : Int} {entries : List AgentLogEntry}
    (none : openCount entries = 0) : completeLast code entries = entries := by
  rw [completeLast, completeFirst_of_closed, List.reverse_reverse]
  intro entry member
  have closed := List.countP_eq_zero.mp none entry (List.mem_reverse.mp member)
  exact Bool.eq_false_iff.mpr closed

/-- The last open command, with closed ones behind it. -/
theorem exists_last_open {entries : List AgentLogEntry} (some : 0 < openCount entries) :
    ∃ front entry back, entries = front ++ entry :: back ∧ isOpen entry = true ∧
      openCount back = 0 := by
  induction entries using List.reverseRecOn with
  | nil => cases some
  | append_singleton front entry ih =>
      by_cases opened : isOpen entry = true
      · exact ⟨front, entry, [], rfl, opened, rfl⟩
      · have before : 0 < openCount front := by simpa [openCount, opened] using some
        obtain ⟨first, found, back, rfl, opens, closed⟩ := ih before
        refine ⟨first, found, back ++ [entry], by simp, opens, ?_⟩
        simp only [openCount, List.countP_append] at closed ⊢
        simp [closed, opened]

theorem completeLast_of_open {code : Int} {front back : List AgentLogEntry}
    {entry : AgentLogEntry} (opened : isOpen entry = true) (closed : openCount back = 0) :
    completeLast code (front ++ entry :: back) = front ++ finished code entry :: back := by
  have none : ∀ entry ∈ back.reverse, isOpen entry = false := fun entry member =>
    Bool.eq_false_iff.mpr (List.countP_eq_zero.mp closed entry (List.mem_reverse.mp member))
  have turned : (front ++ entry :: back).reverse = back.reverse ++ entry :: front.reverse := by
    simp
  rw [completeLast, turned, completeFirst_of_open none opened]
  simp

/-- An open command of a later batch hides those of the earlier ones. -/
theorem completeLast_append {code : Int} {before entries : List AgentLogEntry}
    (some : 0 < openCount entries) :
    completeLast code (before ++ entries) = before ++ completeLast code entries := by
  obtain ⟨front, entry, back, rfl, opened, closed⟩ := exists_last_open some
  rw [← List.append_assoc, completeLast_of_open opened closed, completeLast_of_open opened closed,
    List.append_assoc]

theorem completeLast_append_closed {code : Int} {before entries : List AgentLogEntry}
    (none : openCount entries = 0) :
    completeLast code (before ++ entries) = completeLast code before ++ entries := by
  by_cases opened : 0 < openCount before
  · obtain ⟨front, entry, back, rfl, opens, closed⟩ := exists_last_open opened
    have later : openCount (back ++ entries) = 0 := by
      rw [openCount, List.countP_append]
      exact Nat.add_eq_zero_iff.mpr ⟨closed, none⟩
    rw [List.append_assoc, List.cons_append, completeLast_of_open opens later,
      completeLast_of_open opens closed, List.append_assoc, List.cons_append]
  · have closed := Nat.eq_zero_of_not_pos opened
    have all : openCount (before ++ entries) = 0 := by
      rw [openCount, List.countP_append]
      exact Nat.add_eq_zero_iff.mpr ⟨closed, none⟩
    rw [completeLast_of_closed all, completeLast_of_closed closed]

theorem openCount_completeLast (code : Int) (entries : List AgentLogEntry) :
    openCount (completeLast code entries) = openCount entries - 1 := by
  by_cases opened : 0 < openCount entries
  · obtain ⟨front, entry, back, rfl, opens, closed⟩ := exists_last_open opened
    rw [completeLast_of_open opens closed]
    simp [openCount, isOpen_finished code opens, opens]
  · rw [completeLast_of_closed (Nat.eq_zero_of_not_pos opened)]
    omega

/-- Entries other than open commands stay where they are. -/
theorem getElem?_completeLast {code : Int} {entries : List AgentLogEntry} {index : Nat}
    {entry : AgentLogEntry} (stands : entries[index]? = some entry) (closed : isOpen entry = false) :
    (completeLast code entries)[index]? = some entry := by
  by_cases opened : 0 < openCount entries
  · obtain ⟨front, found, back, rfl, opens, none⟩ := exists_last_open opened
    rw [completeLast_of_open opens none]
    have elsewhere : index ≠ front.length := by
      rintro rfl
      rw [List.getElem?_append_right (Nat.le_refl _)] at stands
      simp only [Nat.sub_self, List.getElem?_cons_zero, Option.some.injEq] at stands
      rw [stands, closed] at opens
      cases opens
    rw [← stands, List.getElem?_append, List.getElem?_append]
    split
    · rfl
    · rcases position : index - front.length with _ | later
      · omega
      · rfl
  · rw [completeLast_of_closed (Nat.eq_zero_of_not_pos opened)]
    exact stands

/-! ## What a batch knows -/

/-- The commands that are open, and when the user spoke last. -/
structure Known where
  openCommands : Nat
  lastUserTimestamp : Option String
  deriving DecidableEq, Repr

namespace Known

def nothing : Known := ⟨0, none⟩

def after (own : Known) : Action → Known
  | .user timestamp => { own with lastUserTimestamp := timestamp.or own.lastUserTimestamp }
  | .push entries _ => { own with openCommands := own.openCommands + openCount entries }
  | .complete _ => { own with openCommands := own.openCommands - 1 }
  | .skip => own

def join (carried own : Known) : Known :=
  ⟨carried.openCommands + own.openCommands, own.lastUserTimestamp.or carried.lastUserTimestamp⟩

/-- A record does not refer back to earlier batches: the command that has ended is of its own
batch, or none is open in the earlier ones; the turn that ends began in its own batch, or the
earlier ones do not tell how long it took. -/
def Suffices (carried own : Known) : Action → Prop
  | .complete _ => 0 < own.openCommands ∨ carried.openCommands = 0
  | .push _ (some (timestamp, _)) =>
      own.lastUserTimestamp.isSome ∨
        (computeDurationSecs carried.lastUserTimestamp timestamp).run = .ok none
  | _ => True

end Known

def Progress.known (progress : Progress) : Known :=
  ⟨openCount progress.entries, progress.lastUserTimestamp⟩

/-- The whole log has an entry that the batches have otherwise, for good: the entries of the
batches before this one were returned, and those of this one are no open commands. -/
def Diverged (whole returned own : List AgentLogEntry) : Prop :=
  ∃ (index : Nat) (entry other : AgentLogEntry), whole[index]? = some entry ∧ isOpen entry = false ∧
    (returned ++ own)[index]? = some other ∧ entry ≠ other ∧
      (index < returned.length ∨ isOpen other = false)

/-- The whole log, and a batch of it behind the entries that were returned and the last time that
the user spoke. -/
structure Follows (returned : List AgentLogEntry) (carried : Option String)
    (whole own : Progress) : Prop where
  entries_eq : whole.entries = returned ++ own.entries
  user_eq : whole.lastUserTimestamp = own.lastUserTimestamp.or carried

theorem turnEntry_closed {last : Option String} {turn : Option (String × Option Nat)}
    {entries : List AgentLogEntry} (made : turnEntry last turn = .ok entries) :
    openCount entries = 0 := by
  rcases turn with _ | ⟨timestamp, tokens⟩
  · cases made
    rfl
  · obtain ⟨duration, -, rest⟩ := bind_eq_ok.mp made
    cases rest
    rfl

/-- What is known behind a record is what the record adds. -/
theorem known_act {progress next : Progress} {action : Action}
    (acted : progress.act action = .ok next) : next.known = progress.known.after action := by
  cases action with
  | user timestamp =>
      cases acted
      rfl
  | push entries turn =>
      obtain ⟨ended, made, rest⟩ := bind_eq_ok.mp acted
      cases rest
      have closed := turnEntry_closed made
      simp only [openCount] at closed
      simp [Progress.known, Known.after, openCount, closed]
  | complete code =>
      cases acted
      simp [Progress.known, Known.after, openCount_completeLast]
  | skip =>
      cases acted
      rfl

/-- An entry that is no open command stays. -/
theorem getElem?_act {progress next : Progress} {action : Action}
    (acted : progress.act action = .ok next) {index : Nat} {entry : AgentLogEntry}
    (stands : progress.entries[index]? = some entry) (closed : isOpen entry = false) :
    next.entries[index]? = some entry := by
  cases action with
  | user timestamp =>
      cases acted
      exact stands
  | push entries turn =>
      obtain ⟨ended, -, rest⟩ := bind_eq_ok.mp acted
      cases rest
      have within := (List.getElem?_eq_some_iff.mp stands).1
      simp only [List.append_assoc]
      rw [List.getElem?_append_left within]
      exact stands
  | complete code =>
      cases acted
      exact getElem?_completeLast stands closed
  | skip =>
      cases acted
      exact stands

section Steps

variable {returned : List AgentLogEntry} {carried : Known} {whole own next : Progress}
  {action : Action}

/-- A batch can do what the whole log can. -/
theorem act_of_whole (user : whole.lastUserTimestamp = own.lastUserTimestamp.or carried.lastUserTimestamp)
    (acted : whole.act action = .ok next) :
    ∃ after, own.act action = .ok after ∧
      next.lastUserTimestamp = after.lastUserTimestamp.or carried.lastUserTimestamp := by
  cases action with
  | user timestamp =>
      cases acted
      exact ⟨_, rfl, by rw [user, Option.or_assoc]⟩
  | push entries turn =>
      obtain ⟨ended, made, rest⟩ := bind_eq_ok.mp acted
      cases rest
      rcases turn with _ | ⟨timestamp, tokens⟩
      · exact ⟨_, rfl, user⟩
      · rcases spoke : own.lastUserTimestamp with _ | last
        · refine ⟨{ own with entries := own.entries ++ entries ++
            [⟨timestamp, .turnComplete none tokens⟩] }, ?_, by rw [user]⟩
          rw [Progress.act, spoke]
          rfl
        · rw [spoke, Option.some_or] at user
          refine ⟨{ own with entries := own.entries ++ entries ++ ended }, ?_, ?_⟩
          · rw [Progress.act, spoke, ← user, made]
            rfl
          · dsimp only
            rw [user, spoke, Option.some_or]
  | complete code =>
      cases acted
      exact ⟨_, rfl, user⟩
  | skip =>
      cases acted
      exact ⟨_, rfl, user⟩

/-- Where they have diverged they never agree again. -/
theorem Diverged.act {after : Progress} (diverged : Diverged whole.entries returned own.entries)
    (acted : whole.act action = .ok next) (batch : own.act action = .ok after) :
    Diverged next.entries returned after.entries := by
  obtain ⟨index, entry, other, stands, closed, listed, differ, stays⟩ := diverged
  refine ⟨index, entry, other, getElem?_act acted stands closed, closed, ?_, differ, stays⟩
  by_cases within : index < returned.length
  · rw [List.getElem?_append_left within] at listed ⊢
    exact listed
  · have behind := Nat.le_of_not_lt within
    rw [List.getElem?_append_right behind] at listed ⊢
    exact getElem?_act batch listed (stays.resolve_left within)

/-- One record: a batch that suffices follows the whole log, and otherwise they diverge. -/
theorem Follows.act {after : Progress}
    (follows : Follows returned carried.lastUserTimestamp whole own)
    (opened : carried.openCommands = openCount returned)
    (acted : whole.act action = .ok next) (batch : own.act action = .ok after) :
    (carried.Suffices own.known action ∧ next.entries = returned ++ after.entries) ∨
      (¬carried.Suffices own.known action ∧ Diverged next.entries returned after.entries) := by
  cases action with
  | user timestamp =>
      cases acted
      cases batch
      exact .inl ⟨trivial, follows.entries_eq⟩
  | skip =>
      cases acted
      cases batch
      exact .inl ⟨trivial, follows.entries_eq⟩
  | complete code =>
      cases acted
      cases batch
      by_cases inside : 0 < openCount own.entries
      · refine .inl ⟨.inl inside, ?_⟩
        rw [follows.entries_eq, completeLast_append inside]
      · have none := Nat.eq_zero_of_not_pos inside
        rw [follows.entries_eq, completeLast_append_closed none, completeLast_of_closed none]
        by_cases before : 0 < openCount returned
        · refine .inr ⟨?_, ?_⟩
          · rintro (some | zero)
            · exact inside some
            · omega
          · obtain ⟨front, entry, back, rfl, opens, closed⟩ := exists_last_open before
            rw [completeLast_of_open opens closed]
            exact ⟨front.length, finished code entry, entry, by simp, isOpen_finished code opens,
              by simp, finished_ne opens, .inl (by simp)⟩
        · have closed := Nat.eq_zero_of_not_pos before
          refine .inl ⟨.inr (opened.trans closed), ?_⟩
          rw [completeLast_of_closed closed]
  | push entries turn =>
      obtain ⟨ended, made, rest⟩ := bind_eq_ok.mp acted
      cases rest
      obtain ⟨others, alike, rest⟩ := bind_eq_ok.mp batch
      cases rest
      have entries_eq (same : ended = others) : whole.entries ++ entries ++ ended =
          returned ++ (own.entries ++ entries ++ others) := by
        rw [follows.entries_eq, same]
        simp
      rcases turn with _ | ⟨timestamp, tokens⟩
      · cases made
        cases alike
        exact .inl ⟨trivial, entries_eq rfl⟩
      rw [follows.user_eq] at made
      rcases spoke : own.lastUserTimestamp with _ | last
      · rw [spoke, Option.none_or] at made
        rw [spoke] at alike
        cases alike
        obtain ⟨duration, computed, rest⟩ := bind_eq_ok.mp made
        cases rest
        cases duration with
        | none => exact .inl ⟨.inr computed, entries_eq rfl⟩
        | some duration =>
            refine .inr ⟨?_, (returned ++ (own.entries ++ entries)).length,
              ⟨timestamp, .turnComplete (some duration) tokens⟩,
              ⟨timestamp, .turnComplete none tokens⟩, ?_, rfl, ?_, by simp, .inr rfl⟩
            · rintro (some | none)
              · simp [Progress.known, spoke] at some
              · rw [none] at computed
                cases computed
            · simp [follows.entries_eq]
            · simp
      · rw [spoke, Option.some_or] at made
        rw [spoke, made] at alike
        cases alike
        exact .inl ⟨.inl (by simp [Progress.known, spoke]), entries_eq rfl⟩

end Steps

/-! ## Runs over records -/

section Runs

variable (toLowercase : List Char → List Char)

def Known.behind (own : Known) (json : Value) : Known :=
  match actionOf toLowercase json with
  | .ok action => own.after action
  | .error _ => own

/-- No record of a batch refers back to earlier ones. -/
def Known.SufficesFor (carried : Known) : Known → List Value → Prop
  | _, [] => True
  | own, json :: rest =>
      (∀ action, actionOf toLowercase json = .ok action → carried.Suffices own action) ∧
        carried.SufficesFor (own.behind toLowercase json) rest

/-- No record of the batches refers back to earlier ones. -/
def SelfContained : Known → List (List Value) → Prop
  | _, [] => True
  | carried, batch :: rest =>
      carried.SufficesFor toLowercase .nothing batch ∧
        SelfContained (carried.join (batch.foldl (Known.behind toLowercase) .nothing)) rest

def entriesOf : List (List Value) → Except Panic (List AgentLogEntry)
  | [] => .ok []
  | batch :: rest => do
      let progress ← batch.foldlM (extractEntries toLowercase) ⟨[], none⟩
      let later ← entriesOf rest
      return progress.entries ++ later

variable {toLowercase} {returned : List AgentLogEntry} {carried : Known}
  {whole own next : Progress} {records : List Value}

theorem run_cons_ok {json : Value} {rest : List Value} :
    (json :: rest).foldlM (extractEntries toLowercase) whole = .ok next ↔
      ∃ action middle, actionOf toLowercase json = .ok action ∧ whole.act action = .ok middle ∧
        rest.foldlM (extractEntries toLowercase) middle = .ok next := by
  constructor
  · intro ran
    obtain ⟨middle, extracted, later⟩ := foldlM_cons_ok ran
    rw [extractEntries_eq] at extracted
    obtain ⟨action, does, acted⟩ := bind_eq_ok.mp extracted
    exact ⟨action, middle, does, acted, later⟩
  · rintro ⟨action, middle, does, acted, later⟩
    have extracted : extractEntries toLowercase whole json = .ok middle := by
      rw [extractEntries_eq]
      exact bind_eq_ok.mpr ⟨action, does, acted⟩
    rw [foldlM_cons_of_ok rest extracted, later]

theorem behind_of_action {json : Value} {action : Action}
    (does : actionOf toLowercase json = .ok action) (own : Known) :
    own.behind toLowercase json = own.after action := by
  rw [Known.behind, does]

/-- What is known behind records is what they add. -/
theorem run_known (ran : records.foldlM (extractEntries toLowercase) own = .ok next) :
    next.known = records.foldl (Known.behind toLowercase) own.known := by
  induction records generalizing own with
  | nil =>
      cases ran
      rfl
  | cons json rest ih =>
      obtain ⟨action, middle, does, acted, later⟩ := run_cons_ok.mp ran
      rw [ih later, known_act acted, List.foldl_cons, behind_of_action does]

theorem run_diverged (diverged : Diverged whole.entries returned own.entries)
    (user : whole.lastUserTimestamp = own.lastUserTimestamp.or carried.lastUserTimestamp)
    (ran : records.foldlM (extractEntries toLowercase) whole = .ok next) :
    ∃ after, records.foldlM (extractEntries toLowercase) own = .ok after ∧
      next.lastUserTimestamp = after.lastUserTimestamp.or carried.lastUserTimestamp ∧
      Diverged next.entries returned after.entries := by
  induction records generalizing whole own with
  | nil =>
      cases ran
      exact ⟨own, rfl, user, diverged⟩
  | cons json rest ih =>
      obtain ⟨action, middle, does, acted, later⟩ := run_cons_ok.mp ran
      obtain ⟨between, batch, spoke⟩ := act_of_whole user acted
      obtain ⟨after, run, ends⟩ := ih (diverged.act acted batch) spoke later
      exact ⟨after, run_cons_ok.mpr ⟨action, between, does, batch, run⟩, ends⟩

/-- The records of a batch: it follows the whole log as long as they do not refer back. -/
theorem run_follows (follows : Follows returned carried.lastUserTimestamp whole own)
    (opened : carried.openCommands = openCount returned)
    (ran : records.foldlM (extractEntries toLowercase) whole = .ok next) :
    ∃ after, records.foldlM (extractEntries toLowercase) own = .ok after ∧
      next.lastUserTimestamp = after.lastUserTimestamp.or carried.lastUserTimestamp ∧
      ((carried.SufficesFor toLowercase own.known records ∧
          next.entries = returned ++ after.entries) ∨
        (¬carried.SufficesFor toLowercase own.known records ∧
          Diverged next.entries returned after.entries)) := by
  induction records generalizing whole own with
  | nil =>
      cases ran
      exact ⟨own, rfl, follows.user_eq, .inl ⟨trivial, follows.entries_eq⟩⟩
  | cons json rest ih =>
      obtain ⟨action, middle, does, acted, later⟩ := run_cons_ok.mp ran
      obtain ⟨between, batch, spoke⟩ := act_of_whole follows.user_eq acted
      have known : own.known.behind toLowercase json = between.known := by
        rw [behind_of_action does, known_act batch]
      rcases follows.act opened acted batch with ⟨suffices_, same⟩ | ⟨fails, diverged⟩
      · obtain ⟨after, run, ends, outcome⟩ := ih ⟨same, spoke⟩ later
        refine ⟨after, run_cons_ok.mpr ⟨action, between, does, batch, run⟩, ends, ?_⟩
        rw [Known.SufficesFor, known]
        refine outcome.imp (fun ⟨kept, agree⟩ => ⟨⟨fun other is => ?_, kept⟩, agree⟩)
          (fun ⟨refers, differ⟩ => ⟨fun all => refers all.2, differ⟩)
        rw [does] at is
        cases is
        exact suffices_
      · obtain ⟨after, run, ends, differ⟩ := run_diverged diverged spoke later
        exact ⟨after, run_cons_ok.mpr ⟨action, between, does, batch, run⟩, ends,
          .inr ⟨fun all => fails (all.1 action does), differ⟩⟩

/-! ## Runs over batches -/

variable {batches : List (List Value)}

theorem Diverged.settle {entries earlier own : List AgentLogEntry}
    (diverged : Diverged entries earlier own) : Diverged entries (earlier ++ own) [] := by
  obtain ⟨index, entry, other, stands, closed, listed, differ, -⟩ := diverged
  have within := (List.getElem?_eq_some_iff.mp listed).1
  exact ⟨index, entry, other, stands, closed, by rwa [List.append_nil], differ, .inl within⟩

theorem batches_diverged (diverged : Diverged whole.entries returned [])
    (ran : batches.flatten.foldlM (extractEntries toLowercase) whole = .ok next) :
    ∃ later, entriesOf toLowercase batches = .ok later ∧
      Diverged next.entries (returned ++ later) [] := by
  induction batches generalizing whole returned with
  | nil =>
      cases ran
      exact ⟨[], rfl, by rwa [List.append_nil]⟩
  | cons batch rest ih =>
      rw [List.flatten_cons, List.foldlM_append] at ran
      obtain ⟨middle, first, ran⟩ := bind_eq_ok.mp ran
      obtain ⟨after, run, -, differ⟩ := @run_diverged toLowercase returned
        ⟨0, whole.lastUserTimestamp⟩ whole ⟨[], none⟩ middle batch diverged rfl first
      obtain ⟨later, rests, ends⟩ := ih differ.settle ran
      refine ⟨after.entries ++ later, ?_, by rwa [← List.append_assoc]⟩
      exact bind_eq_ok.mpr ⟨after, run, bind_eq_ok.mpr ⟨later, rests, rfl⟩⟩

/-- Batches, each read on its own, give the entries of the whole log if and only if no record
refers back. -/
theorem batches_follow (entries : whole.entries = returned)
    (opened : carried.openCommands = openCount returned)
    (user : whole.lastUserTimestamp = carried.lastUserTimestamp)
    (ran : batches.flatten.foldlM (extractEntries toLowercase) whole = .ok next) :
    ∃ later, entriesOf toLowercase batches = .ok later ∧
      ((SelfContained toLowercase carried batches ∧ next.entries = returned ++ later) ∨
        (¬SelfContained toLowercase carried batches ∧
          Diverged next.entries (returned ++ later) [])) := by
  induction batches generalizing whole returned carried with
  | nil =>
      cases ran
      exact ⟨[], rfl, .inl ⟨trivial, by rw [entries, List.append_nil]⟩⟩
  | cons batch rest ih =>
      rw [List.flatten_cons, List.foldlM_append] at ran
      obtain ⟨middle, first, ran⟩ := bind_eq_ok.mp ran
      have follows : Follows returned carried.lastUserTimestamp whole ⟨[], none⟩ :=
        ⟨by rw [entries, List.append_nil], user⟩
      obtain ⟨after, run, spoke, outcome⟩ := run_follows follows opened first
      have known := run_known run
      rcases outcome with ⟨kept, agree⟩ | ⟨refers, differ⟩
      · have joined : (carried.join (batch.foldl (Known.behind toLowercase) .nothing)) =
            ⟨openCount (returned ++ after.entries), middle.lastUserTimestamp⟩ := by
          rw [show Known.nothing = (⟨[], none⟩ : Progress).known from rfl, ← known, spoke]
          simp [Known.join, Progress.known, opened, openCount]
        obtain ⟨later, rests, ends⟩ := @ih (returned ++ after.entries)
          (carried.join (batch.foldl (Known.behind toLowercase) .nothing)) middle agree
          (by rw [joined]) (by rw [joined]) ran
        refine ⟨after.entries ++ later, ?_, ?_⟩
        · exact bind_eq_ok.mpr ⟨after, run, bind_eq_ok.mpr ⟨later, rests, rfl⟩⟩
        · rw [← List.append_assoc]
          exact ends.imp (fun ⟨all, same⟩ => ⟨⟨kept, all⟩, same⟩)
            (fun ⟨refers, differ⟩ => ⟨fun all => refers all.2, differ⟩)
      · obtain ⟨later, rests, ends⟩ := batches_diverged differ.settle ran
        refine ⟨after.entries ++ later, ?_, .inr ⟨fun all => refers all.1, ?_⟩⟩
        · exact bind_eq_ok.mpr ⟨after, run, bind_eq_ok.mpr ⟨later, rests, rfl⟩⟩
        · rwa [← List.append_assoc]

end Runs

/-! ## Polls of a growing log -/

section Polls

variable (toLowercase : List Char → List Char) (fromStr : List Char → Option Value)

def pollAll : List (List UInt8) → Nat → Except Panic (List AgentLogEntry)
  | [], _ => .ok []
  | content :: rest, offset => do
      let (entries, offset) ← parseEntriesFrom toLowercase fromStr (some content) offset
      let later ← pollAll rest offset
      return entries ++ later

def batches : List (List UInt8) → Nat → List (List Value)
  | [], _ => []
  | content :: rest, offset =>
      SessionLog.recordsIn fromStr (content.drop offset) ::
        batches rest (offset + SessionLog.readableLength (content.drop offset))

variable {toLowercase fromStr}

theorem parseEntriesFrom_eq (content : List UInt8) (offset : Nat) :
    parseEntriesFrom toLowercase fromStr (some content) offset =
      ((SessionLog.recordsIn fromStr (content.drop offset)).foldlM (extractEntries toLowercase)
        ⟨[], none⟩).map fun progress =>
          (progress.entries, offset + SessionLog.readableLength (content.drop offset)) := by
  rw [parseEntriesFrom, SessionLog.readFrom_eq]
  rcases List.foldlM _ _ _ with error | progress <;> rfl

theorem pollAll_eq (contents : List (List UInt8)) (offset : Nat) :
    pollAll toLowercase fromStr contents offset =
      entriesOf toLowercase (batches fromStr contents offset) := by
  induction contents generalizing offset with
  | nil => rfl
  | cons content rest ih =>
      rw [pollAll, batches, entriesOf, parseEntriesFrom_eq]
      rcases List.foldlM _ _ _ with error | progress
      · rfl
      · exact congrArg (· >>= fun later => pure (progress.entries ++ later)) (ih _)

/-- Together the polls read what is read of the whole log. -/
theorem flatten_batches {contents : List (List UInt8)} {whole : List UInt8} {offset : Nat}
    (grows : (contents ++ [whole]).Pairwise (· <+: ·))
    (within : ∀ content ∈ contents ++ [whole], offset ≤ content.length) :
    (batches fromStr (contents ++ [whole]) offset).flatten =
      SessionLog.recordsIn fromStr (whole.drop offset) := by
  induction contents generalizing offset with
  | nil => simp [batches]
  | cons content rest ih =>
      obtain ⟨prefixes, later⟩ := List.pairwise_cons.mp grows
      obtain ⟨more, rfl⟩ := prefixes whole (by simp)
      have inside := within content List.mem_cons_self
      have dropped : (content ++ more).drop offset = content.drop offset ++ more :=
        List.drop_append_of_le_length inside
      have short := SessionLog.readableLength_le (content.drop offset)
      rw [List.length_drop] at short
      rw [List.cons_append, batches, List.flatten_cons, ih later, dropped,
        SessionLog.recordsIn_append, ← dropped, List.drop_drop]
      intro other member
      have longer := (prefixes other member).length_le
      omega

/-- The entries that successive polls return are those of the whole log if and only if no record
refers back to an earlier poll. -/
theorem polled_entries_iff {contents : List (List UInt8)} {whole : List UInt8}
    {entries : List AgentLogEntry} (grows : (contents ++ [whole]).IsChain (· <+: ·))
    (returns : (parseEntriesFrom toLowercase fromStr (some whole) 0).map Prod.fst = .ok entries) :
    pollAll toLowercase fromStr (contents ++ [whole]) 0 = .ok entries ↔
      SelfContained toLowercase .nothing (batches fromStr (contents ++ [whole]) 0) := by
  have transitive : Trans (fun first second : List UInt8 => first <+: second)
      (fun first second => first <+: second) (fun first second => first <+: second) :=
    ⟨List.IsPrefix.trans⟩
  have pairs := List.isChain_iff_pairwise.mp grows
  rw [parseEntriesFrom_eq, ← flatten_batches pairs fun content _ => Nat.zero_le _] at returns
  rcases ran : List.foldlM (extractEntries toLowercase) ⟨[], none⟩
    (batches fromStr (contents ++ [whole]) 0).flatten with error | next
  · rw [ran] at returns
    cases returns
  rw [ran] at returns
  cases returns
  obtain ⟨later, polled, outcome⟩ := @batches_follow toLowercase [] .nothing ⟨[], none⟩ next
    (batches fromStr (contents ++ [whole]) 0) rfl rfl rfl ran
  rw [pollAll_eq, polled]
  rcases outcome with ⟨contained, same⟩ | ⟨refers, diverged⟩
  · refine iff_of_true ?_ contained
    dsimp only
    rw [same, List.nil_append]
  · refine iff_of_false ?_ refers
    intro same
    obtain ⟨index, entry, other, stands, -, listed, differ, -⟩ := diverged
    rw [List.nil_append, List.append_nil, Except.ok.inj same, stands] at listed
    exact differ (Option.some.inj listed)

end Polls

/-! ## A command that ends between two polls -/

def bashLine : List Char :=
  ("\x7b\"type\":\"assistant\",\"message\":\x7b\"content\":[\x7b\"type\":\"tool_use\"," ++
    "\"name\":\"Bash\",\"input\":\x7b\"command\":\"ls\"\x7d\x7d]\x7d\x7d").toList

def resultLine : List Char := "\x7b\"type\":\"result\",\"content\":\"exit code: 1\"\x7d".toList

def bashRecord : Value :=
  .object [("type", .string "assistant"), ("message", .object [("content", .array [.object
    [("type", .string "tool_use"), ("name", .string "Bash"),
      ("input", .object [("command", .string "ls")])]])])]

def resultRecord : Value := .object [("type", .string "result"), ("content", .string "exit code: 1")]

def parseLine (text : List Char) : Option Value :=
  if text = bashLine then some bashRecord else if text = resultLine then some resultRecord else none

theorem bashLine_single : '\n' ∉ bashLine := by decide

theorem resultLine_single : '\n' ∉ resultLine := by decide

def commandLog : List UInt8 := SessionLog.writeLine bashLine ++ SessionLog.writeLine resultLine

theorem behind_bashLine :
    commandLog.drop (SessionLog.readableLength (SessionLog.writeLine bashLine)) =
      SessionLog.writeLine resultLine := by
  rw [SessionLog.readableLength_writeLine bashLine_single, commandLog, List.drop_left]

theorem records_commandLog :
    SessionLog.recordsIn parseLine commandLog = [bashRecord, resultRecord] := by
  rw [commandLog, SessionLog.recordsIn_append, ← commandLog, behind_bashLine,
    SessionLog.recordsIn_writeLine bashLine_single rfl,
    SessionLog.recordsIn_writeLine resultLine_single rfl]
  rfl

theorem commandLog_returns :
    (parseEntriesFrom id parseLine (some commandLog) 0).map Prod.fst =
      .ok [⟨"", .bashCommand "ls" (some 1)⟩] := by
  rw [parseEntriesFrom_eq, List.drop_zero, records_commandLog]
  rfl

theorem readableLength_commandLog :
    SessionLog.readableLength commandLog = commandLog.length := by
  have single : ∀ text ∈ [bashLine, resultLine], '\n' ∉ text := by
    rintro text member
    rcases List.mem_pair.mp member with rfl | rfl
    · exact bashLine_single
    · exact resultLine_single
  have read := SessionLog.readableLength_written single
  rwa [List.flatMap_cons, List.flatMap_singleton] at read

/-- The command has ended in each poll. -/
theorem commandLog_two_polls :
    pollAll id parseLine ([commandLog] ++ [commandLog ++ commandLog]) 0 =
      .ok [⟨"", .bashCommand "ls" (some 1)⟩, ⟨"", .bashCommand "ls" (some 1)⟩] := by
  have returns : (parseEntriesFrom id parseLine (some (commandLog ++ commandLog)) 0).map Prod.fst =
      .ok [⟨"", .bashCommand "ls" (some 1)⟩, ⟨"", .bashCommand "ls" (some 1)⟩] := by
    rw [parseEntriesFrom_eq, List.drop_zero, SessionLog.recordsIn_append,
      readableLength_commandLog, List.drop_left, records_commandLog]
    rfl
  refine (polled_entries_iff (by simp) returns).mpr ?_
  have read : batches parseLine ([commandLog] ++ [commandLog ++ commandLog]) 0 =
      [[bashRecord, resultRecord], [bashRecord, resultRecord]] := by
    rw [List.singleton_append, batches, batches, batches, List.drop_zero, Nat.zero_add,
      readableLength_commandLog, List.drop_left, records_commandLog]
  have begins : actionOf id bashRecord = .ok (.push [⟨"", .bashCommand "ls" none⟩] none) := rfl
  have ends : actionOf id resultRecord = .ok (.complete 1) := rfl
  have alone (carried : Known) :
      carried.SufficesFor id .nothing [bashRecord, resultRecord] := by
    refine ⟨fun action does => ?_, fun action does => ?_, trivial⟩
    · rw [begins] at does
      cases does
      trivial
    · rw [ends] at does
      cases does
      exact .inl (by decide)
  rw [read]
  exact ⟨alone _, alone _, trivial⟩

/-- A command that ends after it was polled has no exit code. -/
theorem polled_command_open :
    ¬∀ (toLowercase : List Char → List Char) (fromStr : List Char → Option Value)
      (contents : List (List UInt8)) (whole : List UInt8) (entries : List AgentLogEntry),
      (contents ++ [whole]).IsChain (· <+: ·) →
        (parseEntriesFrom toLowercase fromStr (some whole) 0).map Prod.fst = .ok entries →
          pollAll toLowercase fromStr (contents ++ [whole]) 0 = .ok entries := by
  intro same
  have polled := same id parseLine [SessionLog.writeLine bashLine] commandLog _
    (by simp [commandLog]) commandLog_returns
  have read : batches parseLine ([SessionLog.writeLine bashLine] ++ [commandLog]) 0 =
      [[bashRecord], [resultRecord]] := by
    rw [List.singleton_append, batches, batches, batches, List.drop_zero, Nat.zero_add,
      behind_bashLine, SessionLog.recordsIn_writeLine bashLine_single rfl,
      SessionLog.recordsIn_writeLine resultLine_single rfl]
  rw [pollAll_eq, read] at polled
  revert polled
  decide

end OddJobs.AgentLog
