import OddJobs.Library.Results
import OddJobs.Shell.Exec

/-!
# What is printed and what is kept

What a list of commands leaves in its traces is told from the record of what has run.  Output is
lost where a group fails, and where a snippet is cut.
-/

namespace OddJobs.Shell

open Library

/-! ## Decoding -/

theorem length_bytes_eq (text : List Char) : (bytes text).length = Text.size text := by
  induction text with
  | nil => rfl
  | cons c text ih =>
      rw [bytes_cons, List.length_append, ih, String.length_utf8EncodeChar]
      rfl

theorem lossyFrom_bytes {fuel : Nat} {text : List Char} (enough : (bytes text).length ≤ fuel) :
    lossyFrom fuel (bytes text) = text := by
  induction text generalizing fuel with
  | nil => cases fuel <;> rfl
  | cons c text ih =>
      have positive := c.utf8Size_pos
      rw [length_bytes_eq] at enough
      have split : Text.size (c :: text) = c.utf8Size + Text.size text := rfl
      rw [split] at enough
      cases fuel with
      | zero => omega
      | succ fuel =>
          have first : (bytes (c :: text)).toByteArray.utf8DecodeChar? 0 = some c := by
            rw [bytes_cons, List.toByteArray_append]
            exact ByteArray.utf8DecodeChar?_utf8EncodeChar_append
          have rest : (bytes (c :: text)).drop c.utf8Size = bytes text := by
            rw [bytes_cons, ← String.length_utf8EncodeChar, List.drop_left]
          have some : bytes (c :: text) ≠ [] := by
            intro nothing
            have size := length_bytes_eq (c :: text)
            rw [nothing, split] at size
            change 0 = _ at size
            omega
          rw [lossyFrom, if_neg some, first]
          dsimp only
          rw [rest, ih (by rw [length_bytes_eq]; omega)]

/-- Text is decoded as it is. -/
theorem fromUtf8Lossy_bytes (text : List Char) : fromUtf8Lossy (bytes text) = text :=
  lossyFrom_bytes (Nat.le_refl _)

theorem size_takeBytes (limit : Nat) (text : List Char) :
    Text.size (takeBytes limit text) ≤ limit ∧ Text.size (takeBytes limit text) ≤ Text.size text := by
  induction text generalizing limit with
  | nil => exact ⟨Nat.zero_le _, Nat.le_refl _⟩
  | cons c rest ih =>
      rw [takeBytes]
      split
      · obtain ⟨within, shorter⟩ := ih (limit - c.utf8Size)
        change c.utf8Size + Text.size _ ≤ _ ∧ c.utf8Size + Text.size _ ≤ c.utf8Size + Text.size _
        omega
      · exact ⟨Nat.zero_le _, Nat.zero_le _⟩

def Fits (limit : Option Nat) (text : List Char) : Prop := ∀ most ∈ limit, Text.size text ≤ most

theorem truncateSnippet_bytes (limit : Option Nat) (text : List Char) :
    (bytes ((truncateSnippet (bytes text) limit).getD [])).length ≤ (bytes text).length ∧
      (bytes ((truncateSnippet (bytes text) limit).getD []) = bytes text ↔ Fits limit text) := by
  unfold truncateSnippet
  rw [fromUtf8Lossy_bytes]
  split
  · rename_i nothing
    have empty : Text.size text = 0 := by rw [← length_bytes_eq, nothing]; rfl
    refine ⟨Nat.zero_le _, iff_of_true nothing.symm fun most _ => ?_⟩
    rw [empty]
    exact Nat.zero_le _
  · cases limit with
    | none => exact ⟨Nat.le_refl _, iff_of_true rfl fun most none => by cases none⟩
    | some limit =>
        dsimp only
        split
        · rename_i fits
          refine ⟨Nat.le_refl _, iff_of_true rfl fun most same => ?_⟩
          cases same
          exact fits
        · rename_i long
          obtain ⟨within, shorter⟩ := size_takeBytes limit text
          rw [Option.getD_some, length_bytes_eq, length_bytes_eq]
          refine ⟨shorter, iff_of_false (fun same => ?_) fun fits => long (fits limit rfl)⟩
          have size := congrArg List.length same
          rw [length_bytes_eq, length_bytes_eq] at size
          omega

/-! ## Records -/

/-- Induction on a record and the records of its groups. -/
theorem Ran.induction {motive : List Ran → Prop} (nil : motive [])
    (command : ∀ stdout rest, motive rest → motive (.command stdout :: rest))
    (group : ∀ failed written inner rest, motive inner → motive rest →
      motive (.group failed written inner :: rest)) (ran : List Ran) : motive ran :=
  match ran with
  | [] => nil
  | .command stdout :: rest => command stdout rest (Ran.induction nil command group rest)
  | .group failed written inner :: rest =>
      group failed written inner rest (Ran.induction nil command group inner)
        (Ran.induction nil command group rest)

def outputs : List Ran → List UInt8
  | [] => []
  | .command stdout :: rest => stdout ++ outputs rest
  | .group _ written inner :: rest =>
      (if written.isSome then [] else outputs inner) ++ outputs rest

def kept (limit : Option Nat) : List Ran → List Char
  | [] => []
  | .command stdout :: rest => (truncateSnippet stdout limit).getD [] ++ kept limit rest
  | .group failed written inner :: rest =>
      (if failed || written.isSome then [] else kept limit inner) ++ kept limit rest

/-- What has been written for a redirected group is what is left of the output of its commands,
and nothing where the group has failed. -/
def Told (limit : Option Nat) : List Ran → Prop
  | [] => True
  | .command _ :: rest => Told limit rest
  | .group failed written inner :: rest =>
      (∀ text ∈ written, text = if failed then [] else kept limit inner) ∧ Told limit inner ∧
        Told limit rest

/-- What has been written for a redirected group is all that its commands have printed. -/
def GroupsWhole : List Ran → Prop
  | [] => True
  | .command _ :: rest => GroupsWhole rest
  | .group _ written inner :: rest =>
      (∀ text ∈ written, bytes text = outputs inner) ∧ GroupsWhole inner ∧ GroupsWhole rest

/-- Nothing is lost that is wanted, by a substitution around or by a redirected group: each
output is text within the limit, and where a group fails its commands have printed nothing. -/
def NothingLost (limit : Option Nat) (wanted : Bool) : List Ran → Prop
  | [] => True
  | .command stdout :: rest =>
      (wanted = true → ∃ text, stdout = bytes text ∧ Fits limit text) ∧
        NothingLost limit wanted rest
  | .group failed written inner :: rest =>
      (failed = true → (wanted || written.isSome) = true → outputs inner = []) ∧
        NothingLost limit ((wanted || written.isSome) && !failed) inner ∧
        NothingLost limit wanted rest

def AllText : List Ran → Prop
  | [] => True
  | .command stdout :: rest => (∃ text, stdout = bytes text) ∧ AllText rest
  | .group _ _ inner :: rest => AllText inner ∧ AllText rest

section Records

variable {limit : Option Nat}

theorem kept_append (first second : List Ran) :
    kept limit (first ++ second) = kept limit first ++ kept limit second := by
  induction first using Ran.induction with
  | nil => rw [kept, List.nil_append, List.nil_append]
  | command stdout rest ih => rw [List.cons_append, kept, kept, ih, List.append_assoc]
  | group failed written inner rest _ ih =>
      rw [List.cons_append, kept, kept, ih, List.append_assoc]

theorem told_append {first second : List Ran} (firstTold : Told limit first)
    (secondTold : Told limit second) : Told limit (first ++ second) := by
  induction first using Ran.induction with
  | nil => exact secondTold
  | command stdout rest ih =>
      rw [Told] at firstTold
      rw [List.cons_append, Told]
      exact ih firstTold
  | group failed written inner rest _ ih =>
      rw [Told] at firstTold
      rw [List.cons_append, Told]
      exact ⟨firstTold.1, firstTold.2.1, ih firstTold.2.2⟩

theorem length_kept {ran : List Ran} (text : AllText ran) :
    (bytes (kept limit ran)).length ≤ (outputs ran).length := by
  induction ran using Ran.induction with
  | nil =>
      rw [kept, outputs]
      exact Nat.le_refl _
  | command stdout rest ih =>
      rw [AllText] at text
      obtain ⟨⟨printed, rfl⟩, text⟩ := text
      have shorter := (truncateSnippet_bytes limit printed).1
      have later := ih text
      rw [kept, outputs, bytes_append, List.length_append, List.length_append]
      omega
  | group failed written inner rest innerShorter ih =>
      rw [AllText] at text
      rw [kept, outputs, bytes_append, List.length_append, List.length_append]
      refine Nat.add_le_add ?_ (ih text.2)
      have within := innerShorter text.1
      cases failed with
      | true => exact Nat.zero_le _
      | false =>
          cases written with
          | some written => exact Nat.zero_le _
          | none => exact within

/-- Where nothing is lost, all is kept. -/
theorem whole_of_nothingLost {ran : List Ran} {wanted : Bool} (told : Told limit ran)
    (nothingLost : NothingLost limit wanted ran) :
    GroupsWhole ran ∧ (wanted = true → bytes (kept limit ran) = outputs ran) := by
  induction ran using Ran.induction generalizing wanted with
  | nil =>
      rw [GroupsWhole, kept, outputs]
      exact ⟨trivial, fun _ => rfl⟩
  | command stdout rest ih =>
      rw [Told] at told
      rw [NothingLost] at nothingLost
      obtain ⟨fits, nothingLost⟩ := nothingLost
      obtain ⟨groups, all⟩ := ih told nothingLost
      rw [GroupsWhole, kept, outputs]
      refine ⟨groups, fun wants => ?_⟩
      obtain ⟨text, rfl, fit⟩ := fits wants
      rw [bytes_append, (truncateSnippet_bytes limit text).2.mpr fit, all wants]
  | group failed written inner rest innerWhole ih =>
      rw [Told] at told
      rw [NothingLost] at nothingLost
      obtain ⟨writes, toldInner, toldRest⟩ := told
      obtain ⟨silent, lostInner, lostRest⟩ := nothingLost
      obtain ⟨groups, all⟩ := ih toldRest lostRest
      obtain ⟨groupsInner, allInner⟩ := innerWhole toldInner lostInner
      rw [GroupsWhole, kept, outputs]
      refine ⟨⟨fun text is => ?_, groupsInner, groups⟩, fun wants => ?_⟩
      · cases is
        have tells := writes text rfl
        cases failed with
        | true =>
            rw [tells, silent rfl (Bool.or_true _)]
            rfl
        | false =>
            rw [tells]
            exact allInner (by simp)
      · rw [bytes_append, all wants]
        refine congrArg (· ++ outputs rest) ?_
        cases written with
        | some text =>
            rw [Option.isSome_some, Bool.or_true]
            rfl
        | none =>
            cases failed with
            | true =>
                rw [silent rfl (by rw [wants]; rfl)]
                rfl
            | false => exact allInner (by simp [wants])

/-- Where all is kept that is text, nothing is lost. -/
theorem nothingLost_of_whole {ran : List Ran} {wanted : Bool} (text : AllText ran)
    (told : Told limit ran) (groups : GroupsWhole ran)
    (all : wanted = true → bytes (kept limit ran) = outputs ran) :
    NothingLost limit wanted ran := by
  -- Two outputs in a row that are kept are kept each, since neither grows.
  have apart {first second : List UInt8} {printed rest : List UInt8}
      (firstShorter : first.length ≤ printed.length) (secondShorter : second.length ≤ rest.length)
      (both : first ++ second = printed ++ rest) : first = printed ∧ second = rest := by
    have size := congrArg List.length both
    rw [List.length_append, List.length_append] at size
    exact List.append_inj both (by omega)
  induction ran using Ran.induction generalizing wanted with
  | nil =>
      rw [NothingLost]
      trivial
  | command stdout rest ih =>
      rw [AllText] at text
      rw [Told] at told
      rw [GroupsWhole] at groups
      obtain ⟨⟨printed, rfl⟩, text⟩ := text
      have each (wants : wanted = true) :
          bytes ((truncateSnippet (bytes printed) limit).getD []) = bytes printed ∧
            bytes (kept limit rest) = outputs rest := by
        have both := all wants
        rw [kept, outputs, bytes_append] at both
        exact apart (truncateSnippet_bytes limit printed).1 (length_kept text) both
      rw [NothingLost]
      refine ⟨fun wants => ⟨printed, rfl, ?_⟩, ih text told groups fun wants => (each wants).2⟩
      exact (truncateSnippet_bytes limit printed).2.mp (each wants).1
  | group failed written inner rest innerLost ih =>
      rw [AllText] at text
      rw [Told] at told
      rw [GroupsWhole] at groups
      obtain ⟨writes, toldInner, toldRest⟩ := told
      obtain ⟨wholeWritten, groupsInner, groupsRest⟩ := groups
      have innerShorter := @length_kept limit inner text.1
      have each (wants : wanted = true) :
          bytes (if failed || written.isSome then [] else kept limit inner) =
              (if written.isSome then [] else outputs inner) ∧
            bytes (kept limit rest) = outputs rest := by
        have both := all wants
        rw [kept, outputs, bytes_append] at both
        refine apart ?_ (length_kept text.2) both
        cases failed with
        | true => exact Nat.zero_le _
        | false =>
            cases written with
            | some written => exact Nat.zero_le _
            | none => exact innerShorter
      rw [NothingLost]
      have wantedInner (wants : (wanted || written.isSome) = true) :
          (if failed then [] else bytes (kept limit inner)) = outputs inner := by
        cases written with
        | some told =>
            rw [← wholeWritten told rfl, writes told rfl]
            cases failed <;> rfl
        | none =>
            rw [Option.isSome_none, Bool.or_false] at wants
            have same := (each wants).1
            cases failed with
            | true => exact same
            | false => exact same
      refine ⟨fun fails wants => ?_, innerLost text.1 toldInner groupsInner fun wants => ?_,
        ih text.2 toldRest groupsRest fun wants => (each wants).2⟩
      · have same := wantedInner wants
        rw [fails] at same
        exact same.symm
      · obtain ⟨wants, holds⟩ := Bool.and_eq_true_iff.mp wants
        have same := wantedInner wants
        rw [(Bool.not_eq_true' failed).mp holds] at same
        exact same

end Records

/-! ## What a run reports -/

section Reports

variable {Io : Type} (limit : Option Nat)

/-- A program adds to the record, whatever comes of it; and the text of what it returns is the
text before, and what is left of the output that it has recorded. -/
def Reports {A : Type} (front : List Char) (text : A → List Char) (program : Run Io A) : Prop :=
  ∀ before, ∃ ran, (program before).2.ran = before.ran ++ ran ∧ Told limit ran ∧
    ∀ value, (program before).1 = .ok value → text value = front ++ kept limit ran

variable {limit}

namespace Reports

variable {A B : Type} {front : List Char} {text : A → List Char} {program : Run Io A}

theorem bind {last : B → List Char} {next : A → Run Io B} (first : Reports limit front text program)
    (second : ∀ value, Reports limit (text value) last (next value)) :
    Reports limit front last (program >>= next) := by
  intro before
  obtain ⟨ran, grows, told, reports⟩ := first before
  rw [Program.run_bind]
  rcases started : program before with ⟨result, middle⟩
  rw [started] at grows reports
  cases result with
  | error error =>
      refine ⟨ran, grows, told, fun value returned => ?_⟩
      cases returned
  | ok value =>
      obtain ⟨later, growsLater, toldLater, reportsLater⟩ := second value middle
      refine ⟨ran ++ later, ?_, told_append told toldLater, fun final returned => ?_⟩
      · rw [growsLater, grows, List.append_assoc]
      · rw [reportsLater final returned, reports value rfl, kept_append, List.append_assoc]

/-- A program that records nothing. -/
theorem silent (quiet : ∀ before, (program before).2.ran = before.ran) :
    Reports limit front (fun _ => front) program := by
  intro before
  refine ⟨[], (quiet before).trans (List.append_nil _).symm, ?_, fun value _ => ?_⟩
  · rw [Told]
    trivial
  · rw [kept, List.append_nil]

theorem pure {value : A} (same : text value = front) :
    Reports limit front text (Pure.pure value : Run Io A) := by
  intro before
  refine ⟨[], (List.append_nil _).symm, ?_, fun other returned => ?_⟩
  · rw [Told]
    trivial
  · cases returned
    rw [kept, List.append_nil, same]

theorem throw (error : ExecError Io) : Reports limit front text (Program.throw error) := by
  intro before
  refine ⟨[], (List.append_nil _).symm, ?_, fun value returned => ?_⟩
  · rw [Told]
    trivial
  · cases returned

theorem inContext (program : Program Context (ExecError Io) A) :
    Reports limit front (fun _ => front) (inContext program) := silent fun _ => rfl

theorem ofExcept (result : Except (ExecError Io) A) :
    Reports limit front (fun _ => front) (Program.ofExcept result) :=
  silent fun _ => by cases result <;> rfl

theorem record {ran : List Ran} (told : Told limit ran) :
    Reports limit front (fun _ => front ++ kept limit ran) (record ran : Run Io Unit) := by
  intro before
  exact ⟨ran, rfl, told, fun _ _ => rfl⟩

variable {last : B → List Char}

/-- What is returned is known to the rest. -/
theorem ofExcept_bind {result : Except (ExecError Io) A} {next : A → Run Io B}
    (second : ∀ value, result = .ok value → Reports limit front last (next value)) :
    Reports limit front last (Program.ofExcept result >>= next) := by
  cases result with
  | ok value => exact second value rfl
  | error error => exact throw error

theorem inContext_bind {program : Program Context (ExecError Io) A} {next : A → Run Io B}
    (second : ∀ value before after, program before = (.ok value, after) →
      Reports limit front last (next value)) :
    Reports limit front last (Shell.inContext program >>= next) := by
  intro before
  rw [Program.run_bind, Shell.inContext]
  rcases started : program before.context with ⟨result, after⟩
  cases result with
  | ok value => exact second value before.context after started { before with context := after }
  | error error =>
      refine ⟨[], (List.append_nil _).symm, ?_, fun value returned => ?_⟩
      · rw [Told]
        trivial
      · cases returned

/-- What has run apart is recorded by the rest. -/
theorem apart_bind {program : Run Io A} {next : Except (ExecError Io) A × List Ran → Run Io B}
    (first : Reports limit [] text program)
    (second : ∀ result inner, Told limit inner →
      (∀ value, result = .ok value → text value = kept limit inner) →
      Reports limit front last (next (result, inner))) :
    Reports limit front last (apart program >>= next) := by
  intro before
  obtain ⟨ran, grows, told, reports⟩ := first { before with ran := [] }
  rw [List.nil_append] at grows
  rw [Program.run_bind, apart]
  dsimp only
  rw [grows]
  exact second _ ran told (fun value returned => (reports value returned).trans
    (List.nil_append _)) _

end Reports

theorem stdoutOf_append (first second : List CommandTrace) :
    stdoutOf (first ++ second) = stdoutOf first ++ stdoutOf second := List.flatMap_append

section Execution

variable {shell : ShellExecutor Io} {substitute : Context → CommandList →
  Except (ExecError Io) (List Char)} {body : CommandList → Run Io ExecOutput}

abbrev afterText (front : List Char) (result : Int × List CommandTrace) : List Char :=
  front ++ stdoutOf result.2

theorem kept_commands (stages : List (CommandTrace × List UInt8))
    (snippets : ∀ stage ∈ stages, stage.1.stdoutSnippet = truncateSnippet stage.2 limit) :
    kept limit (stages.map fun stage => .command stage.2) = stdoutOf (stages.map (·.1)) := by
  induction stages with
  | nil => rw [List.map_nil, kept]; rfl
  | cons stage rest ih =>
      have later := ih fun other member => snippets other (List.mem_cons_of_mem _ member)
      rw [List.map_cons, kept, later, ← snippets stage List.mem_cons_self]
      rfl

theorem told_commands (stages : List (CommandTrace × List UInt8)) :
    Told limit (stages.map fun stage => .command stage.2) := by
  induction stages with
  | nil => rw [List.map_nil, Told]; trivial
  | cons stage rest ih =>
      rw [List.map_cons, Told]
      exact ih

theorem executeSimpleCommand_reports (command : SimpleCommand CommandList) (front : List Char) :
    Reports limit front (afterText front)
      (executeSimpleCommand shell limit substitute command) := by
  unfold executeSimpleCommand
  refine Reports.bind (Reports.inContext _) fun expanded => ?_
  split
  · refine Reports.bind (Reports.inContext _) fun _ => Reports.pure ?_
    exact List.append_nil _
  · refine Reports.bind (Reports.inContext _) fun spawned => ?_
    refine Reports.bind (Reports.ofExcept _) fun output => ?_
    have told : Told limit [.command output.stdout] := by
      rw [Told, Told]
      trivial
    refine Reports.bind (Reports.record told) fun _ => Reports.pure ?_
    rw [kept, kept]
    rfl

theorem waitStages_snippets {relayed : Option (List UInt8)}
    {spawned : List (SimpleCommand CommandList × Launch × Option (List Char))}
    {stages : List (CommandTrace × List UInt8)}
    (waited : waitStages shell limit relayed spawned = .ok stages) :
    ∀ stage ∈ stages, stage.1.stdoutSnippet = truncateSnippet stage.2 limit := by
  induction spawned generalizing relayed stages with
  | nil =>
      cases waited
      exact fun stage absent => absurd absent List.not_mem_nil
  | cons stage rest ih =>
      obtain ⟨output, -, waited⟩ := bind_eq_ok.mp waited
      obtain ⟨later, waitedLater, returned⟩ := bind_eq_ok.mp waited
      cases returned
      intro stage member
      rcases List.mem_cons.mp member with rfl | member
      · rfl
      · exact ih waitedLater stage member

theorem executeJob_reports (job : Job CommandList) (front : List Char) :
    Reports limit front (afterText front) (executeJob shell limit substitute job) := by
  unfold executeJob
  refine Reports.bind (Reports.inContext _) fun expanded => ?_
  refine Reports.bind (Reports.inContext _) fun spawned => ?_
  refine Reports.ofExcept_bind fun stages waited => ?_
  refine Reports.bind (Reports.record (told_commands stages)) fun _ => Reports.pure ?_
  rw [kept_commands stages (waitStages_snippets waited)]

/-- What is written for a group is its captured output, which is cleared from the traces. -/
theorem redirectTraces_written {redirections : List (Redirection CommandList)}
    {traces cleared : List CommandTrace} {written : Option (List Char)} {before after : Context}
    (ran : redirectTraces shell substitute redirections traces before =
      (.ok (cleared, written), after)) :
    (∀ text ∈ written, text = stdoutOf traces) ∧
      stdoutOf cleared = if written.isSome then [] else stdoutOf traces := by
  unfold redirectTraces at ran
  split at ran
  · cases ran
    exact ⟨fun text none => absurd none (Option.not_mem_none text), rfl⟩
  · obtain ⟨result, _, -, returned⟩ := Program.bind_eq_ok.mp ran
    cases returned
    cases result.stdoutRedirected with
    | true =>
        refine ⟨fun text is => (Option.some.inj is).symm, ?_⟩
        simp [stdoutOf]
    | false =>
        refine ⟨fun text none => absurd none (Option.not_mem_none text), ?_⟩
        simp [stdoutOf, List.flatMap_map]

theorem finishGroup_reports {result : Except (ExecError Io) ExecOutput} {inner : List Ran}
    (told : Told limit inner)
    (reports : ∀ output, result = .ok output → stdoutOf output.traces = kept limit inner)
    (redirections : List (Redirection CommandList)) (front : List Char) :
    Reports limit front (afterText front)
      (finishGroup shell substitute redirections result inner) := by
  unfold finishGroup
  have group (failed : Bool) (written : Option (List Char))
      (writes : ∀ text ∈ written, text = if failed then [] else kept limit inner) :
      Told limit [.group failed written inner] := by
    rw [Told, Told]
    exact ⟨writes, told, trivial⟩
  have goesOn (output : ExecOutput)
      (is : stdoutOf output.traces = if failedIn result then [] else kept limit inner) :
      Reports limit front (afterText front) (@inContext Io _
        (redirectTraces shell substitute redirections output.traces) >>= fun redirected =>
          record [.group (failedIn result) redirected.2 inner] >>= fun _ =>
            pure (output.exitCode, redirected.1)) := by
    refine Reports.inContext_bind fun redirected before after ran => ?_
    obtain ⟨writes, cleared⟩ := redirectTraces_written ran
    rw [is] at writes cleared
    refine Reports.bind (Reports.record (group _ _ writes)) fun _ => Reports.pure ?_
    refine congrArg (front ++ ·) ?_
    rw [kept, kept, List.append_nil]
    dsimp only
    rw [cleared]
    cases failedIn result <;> cases redirected.2 <;> rfl
  cases result with
  | ok output => exact goesOn output (reports output rfl)
  | error error =>
      cases failed : error.failedCode with
      | none =>
          have stays : groupOutput (.error error : Except (ExecError Io) ExecOutput) =
              .error error := by rw [groupOutput, failed]
          have nothing : ∀ text ∈ (none : Option (List Char)),
              text = if true then [] else kept limit inner :=
            fun text none => absurd none (Option.not_mem_none text)
          rw [stays]
          exact Reports.bind (Reports.record (group true none nothing)) fun _ =>
            Reports.throw error
      | some code =>
          have goes : groupOutput (.error error : Except (ExecError Io) ExecOutput) =
              .ok ⟨code, []⟩ := by rw [groupOutput, failed]
          rw [goes]
          exact goesOn ⟨code, []⟩ rfl

section Bodies

variable (bodies : ∀ list, Reports limit [] (fun output => stdoutOf output.traces) (body list))

include bodies

theorem executeCommandItem_reports (item : CommandItem CommandList) (front : List Char) :
    Reports limit front (afterText front)
      (executeCommandItem shell limit substitute body item) := by
  unfold executeCommandItem
  split
  · exact Reports.throw _
  · cases item.command with
    | simple command => exact executeSimpleCommand_reports command front
    | job job => exact executeJob_reports job front
    | subshell subshell =>
        refine Reports.bind (Reports.silent fun _ => rfl) fun context => ?_
        refine Reports.apart_bind (bodies subshell.body) fun result inner told reports => ?_
        refine Reports.bind (Reports.silent fun _ => rfl) fun _ => ?_
        exact finishGroup_reports told reports subshell.redirections front
    | braceGroup group =>
        refine Reports.apart_bind (bodies group.body) fun result inner told reports => ?_
        exact finishGroup_reports told reports group.redirections front

theorem executeRest_reports (code : Int) (rest : List (LogicalOp × CommandItem CommandList))
    (front : List Char) : Reports limit front (afterText front)
      (executeRest shell limit substitute body code rest) := by
  induction rest generalizing code front with
  | nil => exact Reports.pure (List.append_nil _)
  | cons next rest ih =>
      obtain ⟨op, item⟩ := next
      rw [executeRest]
      split
      · refine Reports.bind (executeCommandItem_reports bodies item front) fun first => ?_
        refine Reports.bind (Reports.silent fun _ => rfl) fun _ => ?_
        refine Reports.bind (ih first.1 _) fun later => Reports.pure ?_
        rw [afterText, afterText, afterText, stdoutOf_append, List.append_assoc]
      · exact ih code front

theorem executeAndOrList_reports (andOr : AndOrList CommandList) (front : List Char) :
    Reports limit front (afterText front)
      (executeAndOrList shell limit substitute body andOr) := by
  unfold executeAndOrList
  refine Reports.bind (executeCommandItem_reports bodies andOr.first front) fun first => ?_
  refine Reports.bind (Reports.silent fun _ => rfl) fun _ => ?_
  refine Reports.bind (executeRest_reports bodies first.1 andOr.rest _) fun later =>
    Reports.pure ?_
  rw [afterText, afterText, afterText, stdoutOf_append, List.append_assoc]

theorem executeChains_reports (code : Int) (chains : List (AndOrList CommandList))
    (front : List Char) : Reports limit front (fun output => front ++ stdoutOf output.traces)
      (executeChains shell limit substitute body code chains) := by
  induction chains generalizing code front with
  | nil => exact Reports.pure (List.append_nil _)
  | cons andOr rest ih =>
      rw [executeChains]
      refine Reports.bind (executeAndOrList_reports bodies andOr front) fun (last, traces) => ?_
      dsimp only
      split
      · exact Reports.throw _
      · refine Reports.bind (ih last _) fun later => Reports.pure ?_
        rw [afterText, stdoutOf_append, List.append_assoc]

end Bodies

end Execution

/-- The traces of a list hold what is left of what its commands have printed. -/
theorem executeCommandList_reports (shell : ShellExecutor Io) (stack : Nat)
    (limit : Option Nat) (list : CommandList) : Reports limit []
      (fun output => stdoutOf output.traces) (executeCommandList shell stack limit list) := by
  induction stack generalizing limit list with
  | zero => exact Reports.throw _
  | succ stack ih => exact executeChains_reports (ih limit) 0 list.commands []

end Reports

/-! ## When no output is lost -/

def recorded {Io A : Type} (program : Run Io A) (context : Context) : List Ran :=
  (program ⟨context, []⟩).2.ran

theorem told_recorded {Io : Type} (shell : ShellExecutor Io) (stack : Nat) (context : Context)
    (limit : Option Nat) (list : CommandList) :
    Told limit (recorded (executeCommandList shell stack limit list) context) := by
  obtain ⟨ran, grows, told, -⟩ := executeCommandList_reports shell stack limit list ⟨context, []⟩
  rw [recorded, grows]
  exact told

/-- A substitution brings what is kept of the output of its list. -/
theorem executeSubstitution_kept {Io : Type} {shell : ShellExecutor Io} {stack : Nat}
    {context : Context} {list : CommandList} {text : List Char}
    (ran : executeSubstitution shell stack context list = .ok text) :
    text = kept none (recorded (executeCommandList shell stack none list) context) := by
  obtain ⟨record, grows, -, reports⟩ :=
    executeCommandList_reports shell stack none list ⟨context, []⟩
  unfold executeSubstitution executeCommandListCapture at ran
  rw [Program.run_bind] at ran
  rw [recorded, grows]
  rcases executed : executeCommandList shell stack none list ⟨context, []⟩ with ⟨result, after⟩
  rw [executed] at ran reports
  cases result with
  | error error => cases ran
  | ok output =>
      cases ran
      exact reports output rfl

/-- What the groups of a script write and what a substitution brings is all that has been
printed, where nothing is lost; and only there, as far as text is printed. -/
theorem outputs_whole_iff {Io : Type} (shell : ShellExecutor Io) (stack : Nat)
    (context : Context) (list : CommandList) :
    (∀ limit, ∀ ran, recorded (executeCommandList shell stack limit list) context = ran →
      (NothingLost limit false ran → GroupsWhole ran) ∧
        (AllText ran → (GroupsWhole ran ↔ NothingLost limit false ran))) ∧
    ∀ text ran, executeSubstitution shell stack context list = .ok text →
      recorded (executeCommandList shell stack none list) context = ran →
      (NothingLost none true ran → GroupsWhole ran ∧ bytes text = outputs ran) ∧
        (AllText ran → (GroupsWhole ran ∧ bytes text = outputs ran ↔ NothingLost none true ran)) := by
  constructor
  · rintro limit ran rfl
    have told := told_recorded shell stack context limit list
    have whole (nothingLost : NothingLost limit false _) := (whole_of_nothingLost told nothingLost).1
    exact ⟨whole, fun text => ⟨fun groups =>
      nothingLost_of_whole text told groups Bool.noConfusion, whole⟩⟩
  · rintro text ran brings rfl
    have told := told_recorded shell stack context none list
    rw [executeSubstitution_kept brings]
    have whole (nothingLost : NothingLost none true _) := whole_of_nothingLost told nothingLost
    refine ⟨fun nothingLost => ⟨(whole nothingLost).1, (whole nothingLost).2 rfl⟩, fun text =>
      ⟨?_, fun nothingLost => ⟨(whole nothingLost).1, (whole nothingLost).2 rfl⟩⟩⟩
    rintro ⟨groups, all⟩
    exact nothingLost_of_whole text told groups fun _ => all

/-! ## Commands that print their name -/

/-- Each command prints its name, and `b` fails. -/
def namingShell : ShellExecutor Unit where
  homeDir := none
  user := none
  processId := 1
  directory := openDirectory
  processes := {
    spawn := fun _ => none
    writeStdin := fun _ _ => none
    output := fun launch _ =>
      .ok ⟨bytes launch.name, [], some (if launch.name = ['b'] then 1 else 0)⟩ }
  pathnames := fun _ => .ok []
  pipefail := false

def bareCommand (name : Char) : CommandItem CommandList :=
  ⟨.simple ⟨[], ⟨[.literal [name] .unquoted], .default⟩, [], [], .default⟩, false, .default⟩

/-- The list that runs `a` and `c` in a group, and then `d`. -/
def groupedList : CommandList :=
  .mk [⟨⟨.braceGroup ⟨.mk [⟨bareCommand 'a', [], .default⟩, ⟨bareCommand 'c', [], .default⟩] .default,
    [], .default⟩, false, .default⟩, [(.and, bareCommand 'd')], .default⟩] .default

theorem outputs_whole_group : ∃ text ran,
    executeSubstitution namingShell 2 bareContext groupedList = .ok text ∧
      recorded (executeCommandList namingShell 2 none groupedList) bareContext = ran ∧
      GroupsWhole ran ∧ bytes text = outputs ran := by
  have brings : executeSubstitution namingShell 2 bareContext groupedList =
      .ok ['a', 'c', 'd'] := by rfl
  have ran : recorded (executeCommandList namingShell 2 none groupedList) bareContext =
      [.group false none [.command (bytes ['a']), .command (bytes ['c'])],
        .command (bytes ['d'])] := by rfl
  refine ⟨['a', 'c', 'd'], _, brings, ran, ?_⟩
  obtain ⟨-, substitutes⟩ := outputs_whole_iff namingShell 2 bareContext groupedList
  have fits (text : List Char) : ∃ same, bytes text = bytes same ∧ Fits none same :=
    ⟨text, rfl, fun most none => absurd none (Option.not_mem_none most)⟩
  refine (substitutes _ _ brings ran).1 ?_
  simp only [NothingLost]
  exact ⟨nofun, ⟨fun _ => fits _, fun _ => fits _, trivial⟩, fun _ => fits _, trivial⟩

/-- The list that runs `a` and `b` in a group, and `c` where the group fails. -/
def rescuedList : CommandList :=
  .mk [⟨⟨.braceGroup ⟨.mk [⟨bareCommand 'a', [], .default⟩, ⟨bareCommand 'b', [], .default⟩] .default,
    [], .default⟩, false, .default⟩, [(.or, bareCommand 'c')], .default⟩] .default

/-- What a group has printed is lost where it fails. -/
theorem failed_group_silent : ¬∀ (shell : ShellExecutor Unit) (stack : Nat) (context : Context)
    (list : CommandList) (text : List Char),
    executeSubstitution shell stack context list = .ok text →
      bytes text = outputs (recorded (executeCommandList shell stack none list) context) := by
  intro whole
  have brings : executeSubstitution namingShell 2 bareContext rescuedList = .ok ['c'] := by rfl
  have ran : recorded (executeCommandList namingShell 2 none rescuedList) bareContext =
      [.group true none [.command (bytes ['a']), .command (bytes ['b'])],
        .command (bytes ['c'])] := by rfl
  have same := whole namingShell 2 bareContext rescuedList ['c'] brings
  rw [ran, outputs, outputs, outputs, outputs, outputs, outputs] at same
  have size := congrArg List.length same
  cases size

end OddJobs.Shell
