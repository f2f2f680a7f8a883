import Mathlib.Tactic.Choose
import OddJobs.Library.Results
import OddJobs.Shell.Descriptors

/-!
# Where the output goes

What a process is given, and what is done with the output of a group, are compared with the
table of the redirections.
-/

namespace OddJobs.Shell

open Library

/-! ## Redirections of output -/

def Redirection.isOutput : Redirection CommandList → Bool
  | .output fd _ _ => (Stream.ofFd (fd.getD 1)).isSome
  | .both _ _ => true
  | .duplicate source .close _ => (Stream.ofFd source).isSome
  | .duplicate source (.fd target) toOutput =>
      (Stream.ofFd source).isSome && (Stream.ofFd target).isSome && toOutput
  | _ => false

section Resolving

variable {Io : Type} (host : Host (ExecError Io))

def resolveRedirection :
    Redirection CommandList → Program Context (ExecError Io) (Option Wiring)
  | .output fd target append => do
      let path ← expandWordIn host target
      return (Stream.ofFd (fd.getD 1)).map (.opens · ⟨path, append⟩)
  | .both append target => do
      let path ← expandWordIn host target
      return some (.opensBoth ⟨path, append⟩)
  | .duplicate source .close _ => pure ((Stream.ofFd source).map .closes)
  | .duplicate source (.fd target) _ =>
      pure ((Stream.ofFd source).bind fun source =>
        (Stream.ofFd target).map (.duplicates source))
  | _ => pure none

def resolveRedirections :
    List (Redirection CommandList) → Program Context (ExecError Io) (List Wiring)
  | [] => pure []
  | redirection :: rest => do
      let wiring ← resolveRedirection host redirection
      let wirings ← resolveRedirections rest
      return wiring.toList ++ wirings

end Resolving

/-! ## The sinks of a process and of a group -/

def Sink.ofFile (files : List Opening) (number : Nat) : Sink :=
  .file number (files.getD number ⟨[], false⟩)

def ProcessStdio.sink (process : ProcessStdio) (s : Stream) : Sink :=
  let stdio := match s with
    | .stdout => process.stdout
    | .stderr => process.stderr
  match stdio with
  | .output number => .ofFile process.files number
  | .null => .nowhere
  | .inherit | .piped | .input _ => .captured s

def CapturedRedirection.sinks (captured : CapturedRedirection Stream) (s : Stream) : List Sink :=
  let redirected := match s with
    | .stdout => captured.stdoutRedirected
    | .stderr => captured.stderrRedirected
  ((captured.writes.filter (·.2 = s)).map fun write => .ofFile captured.files write.1) ++
    if redirected then [] else [.captured s]

section Places

variable {Io : Type} (directory : Directory Io)

/-- A sink without the number of its file, whose path is resolved. -/
def Directory.place : Sink → Sink
  | .file _ opening => .file 0 ⟨directory.resolvePath opening.path, opening.append⟩
  | sink => sink

/-- Two tables have the same sinks: each stream goes to the same place, and the streams share
one file in both or in neither. -/
structure SameSinks (first second : Stream → Sink) : Prop where
  place : ∀ s, directory.place (first s) = directory.place (second s)
  shared : first .stdout = first .stderr ↔ second .stdout = second .stderr

end Places

/-! ## The sinks of a process -/

def Sink.config : Sink → StdioConfig
  | captured _ => .default
  | file _ opening => .file opening.path opening.append
  | nowhere => .null

def FdTable.configs (table : FdTable) (configs : StdioConfigs) : Prop :=
  configs.stdout = (table.sinks .stdout).config ∧ configs.stderr = (table.sinks .stderr).config

section Process

variable {Io : Type} {host : Host (ExecError Io)}

theorem resolveRedirection_output {context after : Context} {fd : Option Nat}
    {target : Word CommandList} {path : List Char} {stream : Stream} (append : Bool)
    (expanded : expandWordIn host target context = (.ok path, after))
    (is : Stream.ofFd (fd.getD 1) = some stream) :
    resolveRedirection host (.output fd target append) context =
      (.ok (some (.opens stream ⟨path, append⟩)), after) := by
  refine Program.bind_eq_ok.mpr ⟨_, _, expanded, ?_⟩
  rw [is]
  rfl

theorem readRedirection_wires {context after : Context} {configs read : StdioConfigs}
    {redirection : Redirection CommandList} {table : FdTable}
    (outputs : redirection.isOutput = true)
    (before : table.configs configs)
    (ran : readRedirection host configs redirection context = (.ok read, after)) :
    ∃ wiring, resolveRedirection host redirection context = (.ok (some wiring), after) ∧
      (table.rewire wiring).configs read ∧ read.stdin = configs.stdin := by
  obtain ⟨stdout, stderr⟩ := before
  cases redirection with
  | output fd target append =>
      obtain ⟨path, later, expanded, rest⟩ := Program.bind_eq_ok.mp ran
      have resolved {stream : Stream} (is : Stream.ofFd (fd.getD 1) = some stream) :=
        resolveRedirection_output append expanded is
      split at rest
      · rename_i first
        cases rest
        refine ⟨_, resolved (if_pos first), ⟨rfl, ?_⟩, rfl⟩
        exact stderr
      · rename_i notFirst
        split at rest
        · rename_i second
          cases rest
          refine ⟨_, resolved ((if_neg notFirst).trans (if_pos second)), ⟨?_, rfl⟩, rfl⟩
          exact stdout
        · cases rest
  | both append target =>
      obtain ⟨path, later, expanded, rest⟩ := Program.bind_eq_ok.mp ran
      cases rest
      exact ⟨.opensBoth ⟨path, append⟩, Program.bind_eq_ok.mpr ⟨_, _, expanded, rfl⟩, ⟨rfl, rfl⟩, rfl⟩
  | duplicate source target toOutput =>
      cases target with
      | close =>
          rcases Stream.fd_of_isSome outputs with rfl | rfl
          · cases ran
            exact ⟨.closes .stdout, rfl, ⟨rfl, stderr⟩, rfl⟩
          · cases ran
            exact ⟨.closes .stderr, rfl, ⟨stdout, rfl⟩, rfl⟩
      | fd target =>
          obtain ⟨both, isOutput⟩ := Bool.and_eq_true_iff.mp outputs
          obtain ⟨ofSource, ofTarget⟩ := Bool.and_eq_true_iff.mp both
          subst isOutput
          rcases Stream.fd_of_isSome ofSource with rfl | rfl
          · rcases Stream.fd_of_isSome ofTarget with rfl | rfl
            · cases ran
              exact ⟨.duplicates .stdout .stdout, rfl, ⟨stdout, stderr⟩, rfl⟩
            · cases ran
              exact ⟨.duplicates .stdout .stderr, rfl, ⟨stderr, stderr⟩, rfl⟩
          · rcases Stream.fd_of_isSome ofTarget with rfl | rfl
            · cases ran
              exact ⟨.duplicates .stderr .stdout, rfl, ⟨stdout, stdout⟩, rfl⟩
            · cases ran
              exact ⟨.duplicates .stderr .stderr, rfl, ⟨stdout, stderr⟩, rfl⟩
  | input | hereDoc | hereString => cases outputs

theorem readRedirections_wires {context after : Context} {configs read : StdioConfigs}
    {redirections : List (Redirection CommandList)} {table : FdTable}
    (outputs : ∀ redirection ∈ redirections, redirection.isOutput = true)
    (before : table.configs configs)
    (ran : readRedirections host configs redirections context = (.ok read, after)) :
    ∃ wirings, resolveRedirections host redirections context = (.ok wirings, after) ∧
      (wirings.foldl FdTable.rewire table).configs read ∧ read.stdin = configs.stdin := by
  induction redirections generalizing context configs table with
  | nil =>
      cases ran
      exact ⟨[], rfl, before, rfl⟩
  | cons redirection rest ih =>
      obtain ⟨first, middle, readFirst, ran⟩ := Program.bind_eq_ok.mp ran
      obtain ⟨wiring, resolved, between, stdin⟩ :=
        readRedirection_wires (outputs redirection List.mem_cons_self) before readFirst
      obtain ⟨wirings, resolvedLater, whole, stdinLater⟩ :=
        ih (fun other member => outputs other (List.mem_cons_of_mem _ member)) between ran
      refine ⟨wiring :: wirings, ?_, whole, stdinLater.trans stdin⟩
      exact Program.bind_eq_ok.mpr ⟨_, _, resolved,
        Program.bind_eq_ok.mpr ⟨_, _, resolvedLater, rfl⟩⟩

def ProcessStdio.capturing (stdin : Stdio) : ProcessStdio := ⟨stdin, .piped, .piped, []⟩

variable {directory : Directory Io}

theorem openFile_ok {files opened : List Opening} {path : List Char} {append : Bool} {span : Span}
    (ran : directory.openFile files path append span = .ok opened) :
    opened = files ++ [⟨path, append⟩] := by
  obtain ⟨_, -, returned⟩ := bind_eq_ok.mp ran
  cases returned
  rfl

/-- What a process is given for a table: a stream of its own in place of one that is shared
with what captures the output, and one file for two of the same name. -/
structure Given (table sinks : Stream → Sink) : Prop where
  sink : ∀ s, (∃ stream, table s = .captured stream ∧ sinks s = .captured s) ∨
    (∃ number place opening, table s = .file number opening ∧ sinks s = .file place opening) ∨
    table s = .nowhere ∧ sinks s = .nowhere
  shared : sinks .stdout = sinks .stderr ↔
    (table .stdout = .nowhere ∧ table .stderr = .nowhere) ∨
      ∃ first second opening, table .stdout = .file first opening ∧
        table .stderr = .file second opening

def Sink.give (fd : Nat) (process : ProcessStdio) : Sink → ProcessStdio
  | captured _ => process
  | file _ opening =>
      { process with files := process.files ++ [opening] }.put fd (.output process.files.length)
  | nowhere => process.put fd .null

theorem applyOutput_given {fd : Nat} {sink : Sink} {process after : ProcessStdio}
    (ran : applyOutput directory fd sink.config process = .ok after) :
    after = sink.give fd process := by
  cases sink with
  | captured stream =>
      cases ran
      rfl
  | file number opening =>
      obtain ⟨files, opened, returned⟩ := bind_eq_ok.mp ran
      cases returned
      rw [openFile_ok opened]
      rfl
  | nowhere =>
      cases ran
      rfl

theorem given_apart {table : Stream → Sink} {stdin : Stdio} {process : ProcessStdio}
    (apart : ∀ first second opening, table .stdout = .file first opening →
      table .stderr ≠ .file second opening)
    (is : process = (table .stderr).give 2 ((table .stdout).give 1 (.capturing stdin))) :
    Given table process.sink := by
  subst is
  constructor
  · intro s
    cases out : table .stdout <;> cases err : table .stderr <;> cases s <;>
      simp [out, err, Sink.give, ProcessStdio.capturing, ProcessStdio.put, ProcessStdio.sink,
        Sink.ofFile]
  · cases out : table .stdout with
    | file number opening =>
        have other (second : Nat) : table .stderr ≠ .file second opening :=
          apart number second opening out
        cases err : table .stderr with
        | file second same =>
            have different : opening ≠ same := fun equal => other second (equal ▸ err)
            simp [different, Sink.give, ProcessStdio.capturing, ProcessStdio.put,
              ProcessStdio.sink, Sink.ofFile]
        | captured | nowhere =>
            simp [Sink.give, ProcessStdio.capturing, ProcessStdio.put, ProcessStdio.sink,
              Sink.ofFile]
    | captured | nowhere =>
        cases err : table .stderr <;>
          simp [Sink.give, ProcessStdio.capturing, ProcessStdio.put, ProcessStdio.sink,
            Sink.ofFile]

theorem applyOutputs_given {table : Stream → Sink} {stdin : Stdio} {process : ProcessStdio}
    (ran : applyOutputs directory (table .stdout).config (table .stderr).config
      (.capturing stdin) = .ok process) : Given table process.sink := by
  have separately
      (apart : ∀ first second opening, table .stdout = .file first opening →
        table .stderr ≠ .file second opening)
      (ran : (applyOutput directory 1 (table .stdout).config (.capturing stdin) >>= fun process =>
        applyOutput directory 2 (table .stderr).config process) = .ok process) :
      Given table process.sink := by
    obtain ⟨middle, first, second⟩ := bind_eq_ok.mp ran
    rw [applyOutput_given first] at second
    exact given_apart apart (applyOutput_given second)
  unfold applyOutputs at ran
  cases out : table .stdout with
  | file number opening =>
      cases err : table .stderr with
      | file other same =>
          rw [out, err] at ran
          dsimp only [Sink.config] at ran
          split at ran
          · rename_i equal
            obtain ⟨files, opened, ran⟩ := bind_eq_ok.mp ran
            obtain ⟨_, -, returned⟩ := bind_eq_ok.mp ran
            cases returned
            cases openFile_ok opened
            have one : opening = same := congrArg₂ Opening.mk equal.1 equal.2
            subst one
            refine ⟨fun s => ?_, ?_⟩
            · right
              left
              cases s with
              | stdout => exact ⟨number, 0, opening, out, rfl⟩
              | stderr => exact ⟨other, 0, opening, err, rfl⟩
            · exact iff_of_true rfl (Or.inr ⟨number, other, opening, out, err⟩)
          · rename_i different
            refine separately (fun first second opened fileOut fileErr => different ?_)
              (by rw [out, err]; exact ran)
            cases out.symm.trans fileOut
            cases err.symm.trans fileErr
            exact ⟨rfl, rfl⟩
      | captured | nowhere =>
          refine separately (fun first second opened _ file => ?_)
            (by rw [out, err] at ran ⊢; exact ran)
          cases err.symm.trans file
  | captured | nowhere =>
      refine separately (fun first second opened file _ => ?_)
        (by rw [out] at ran ⊢; exact ran)
      cases out.symm.trans file

theorem applyRedirections_given {context after : Context} {stdin : Stdio} {process : ProcessStdio}
    {data : Option (List Char)} {redirections : List (Redirection CommandList)}
    (outputs : ∀ redirection ∈ redirections, redirection.isOutput = true)
    (ran : applyRedirections host directory (.capturing stdin) redirections context =
      (.ok (process, data), after)) :
    ∃ wirings, resolveRedirections host redirections context = (.ok wirings, after) ∧
      Given (posixTable wirings).sinks process.sink := by
  obtain ⟨configs, _, read, ran⟩ := Program.bind_eq_ok.mp ran
  obtain ⟨wirings, resolved, ⟨stdout, stderr⟩, noInput⟩ :=
    @readRedirections_wires _ host context _ {} configs redirections .new outputs ⟨rfl, rfl⟩ read
  rw [noInput] at ran
  obtain ⟨begun, _, input, ran⟩ := Program.bind_eq_ok.mp ran
  cases input
  obtain ⟨put, _, puts, returned⟩ := Program.bind_eq_ok.mp ran
  obtain ⟨applied, rfl⟩ := Program.ofExcept_eq_ok.mp puts
  cases returned
  rw [stdout, stderr] at applied
  exact ⟨wirings, resolved, applyOutputs_given applied⟩

end Process

/-! ## The sinks of a group -/

section Captured

variable {Io : Type} {host : Host (ExecError Io)} {directory : Directory Io}

theorem writeFile_ok {A : Type} {result after : CapturedRedirection A} {path : List Char}
    {append : Bool} {span : Span} {outputs : List A}
    (ran : result.writeFile directory path append span outputs = .ok after) :
    after = { result with
      files := result.files ++ [⟨path, append⟩]
      writes := result.writes ++ outputs.map (result.files.length, ·) } := by
  obtain ⟨files, opened, ran⟩ := bind_eq_ok.mp ran
  obtain ⟨_, -, returned⟩ := bind_eq_ok.mp ran
  cases returned
  rw [openFile_ok opened]

def CapturedRedirection.redirected (captured : CapturedRedirection Stream) : Stream → Bool
  | .stdout => captured.stdoutRedirected
  | .stderr => captured.stderrRedirected

/-- Each stream has been written to the files opened for it. -/
structure Written (wirings : List Wiring) (captured : CapturedRedirection Stream) : Prop where
  files : captured.files = openings wirings
  writes : ∀ s, captured.writes.filter (·.2 = s) = (openers s wirings).map fun entry => (entry.1, s)
  redirected : ∀ s, captured.redirected s = !(openers s wirings).isEmpty

theorem Written.step {context after : Context} {captured result : CapturedRedirection Stream}
    {redirection : Redirection CommandList} {wirings : List Wiring}
    (outputs : redirection.isOutput = true) (written : Written wirings captured)
    (ran : applyCapturedRedirection host directory .stdout .stderr captured redirection context =
      (.ok result, after)) :
    ∃ wiring, resolveRedirection host redirection context = (.ok (some wiring), after) ∧
      Written (wirings ++ [wiring]) result := by
  obtain ⟨files, writes, redirected⟩ := written
  have unopened {wiring : Wiring} (nothing : wiring.opened = none) :
      Written (wirings ++ [wiring]) captured := by
    have same (s : Stream) : openers s (wirings ++ [wiring]) = openers s wirings := by
      rw [openers_snoc, openersFrom, nothing]
      exact List.append_nil _
    refine ⟨?_, fun s => ?_, fun s => ?_⟩
    · rw [files, openings, openings, List.filterMap_append, List.filterMap_cons, nothing]
      exact (List.append_nil _).symm
    · rw [same, writes]
    · rw [same, redirected]
  have opened {wiring : Wiring} {opening : Opening} {streams : List Stream}
      {result : CapturedRedirection Stream} (opens : wiring.opened = some opening)
      (serves : ∀ s, streams.filter (· = s) = if wiring.serves s then [s] else [])
      (filesThen : result.files = captured.files ++ [opening])
      (writesThen : result.writes =
        captured.writes ++ streams.map fun s => (captured.files.length, s))
      (redirectedThen : ∀ s, result.redirected s = (captured.redirected s || wiring.serves s)) :
      Written (wirings ++ [wiring]) result := by
    have grown (s : Stream) : openers s (wirings ++ [wiring]) =
        openers s wirings ++ if wiring.serves s then [(captured.files.length, opening)] else [] := by
      rw [openers_snoc, openersFrom, opens, files]
      rfl
    refine ⟨?_, fun s => ?_, fun s => ?_⟩
    · rw [filesThen, files, openings, openings, List.filterMap_append, List.filterMap_cons, opens]
      rfl
    · have taken : (streams.map fun s => (captured.files.length, s)).filter (·.2 = s) =
          (streams.filter (· = s)).map fun s => (captured.files.length, s) := List.filter_map
      rw [writesThen, List.filter_append, writes, taken, serves, grown, List.map_append]
      cases wiring.serves s <;> rfl
    · rw [redirectedThen, redirected, grown]
      cases wiring.serves s <;> cases openers s wirings <;> rfl
  cases redirection with
  | output fd target append =>
      obtain ⟨path, later, expanded, rest⟩ := Program.bind_eq_ok.mp ran
      have resolved {stream : Stream} (is : Stream.ofFd (fd.getD 1) = some stream) :=
        resolveRedirection_output append expanded is
      split at rest
      · rename_i first
        obtain ⟨written, _, puts, returned⟩ := Program.bind_eq_ok.mp rest
        obtain ⟨wrote, rfl⟩ := Program.ofExcept_eq_ok.mp puts
        cases writeFile_ok wrote
        cases returned
        refine ⟨_, resolved (if_pos first), ?_⟩
        refine @opened _ ⟨path, append⟩ [.stdout] _ rfl (fun s => ?_) rfl rfl fun s => ?_
        · cases s <;> rfl
        · cases s
          · exact (Bool.or_true _).symm
          · exact (Bool.or_false _).symm
      · rename_i notFirst
        split at rest
        · rename_i second
          obtain ⟨written, _, puts, returned⟩ := Program.bind_eq_ok.mp rest
          obtain ⟨wrote, rfl⟩ := Program.ofExcept_eq_ok.mp puts
          cases writeFile_ok wrote
          cases returned
          refine ⟨_, resolved ((if_neg notFirst).trans (if_pos second)), ?_⟩
          refine @opened _ ⟨path, append⟩ [.stderr] _ rfl (fun s => ?_) rfl rfl fun s => ?_
          · cases s <;> rfl
          · cases s
            · exact (Bool.or_false _).symm
            · exact (Bool.or_true _).symm
        · cases rest
  | both append target =>
      obtain ⟨path, later, expanded, rest⟩ := Program.bind_eq_ok.mp ran
      obtain ⟨written, _, puts, returned⟩ := Program.bind_eq_ok.mp rest
      obtain ⟨wrote, rfl⟩ := Program.ofExcept_eq_ok.mp puts
      cases writeFile_ok wrote
      cases returned
      refine ⟨.opensBoth ⟨path, append⟩, Program.bind_eq_ok.mpr ⟨_, _, expanded, rfl⟩, ?_⟩
      refine @opened _ ⟨path, append⟩ [.stdout, .stderr] _ rfl (fun s => ?_) rfl rfl fun s => ?_
      · cases s <;> rfl
      · cases s <;> exact (Bool.or_true _).symm
  | duplicate source target toOutput =>
      cases ran
      cases target with
      | close =>
          obtain ⟨stream, is⟩ := Option.isSome_iff_exists.mp outputs
          refine ⟨.closes stream, ?_, unopened rfl⟩
          unfold resolveRedirection
          dsimp only
          rw [is]
          rfl
      | fd target =>
          obtain ⟨both, -⟩ := Bool.and_eq_true_iff.mp outputs
          obtain ⟨ofSource, ofTarget⟩ := Bool.and_eq_true_iff.mp both
          obtain ⟨first, source⟩ := Option.isSome_iff_exists.mp ofSource
          obtain ⟨second, target⟩ := Option.isSome_iff_exists.mp ofTarget
          refine ⟨.duplicates first second, ?_, unopened rfl⟩
          unfold resolveRedirection
          dsimp only
          rw [source, target]
          rfl
  | input | hereDoc | hereString => cases outputs

theorem Written.run {context after : Context} {captured result : CapturedRedirection Stream}
    {redirections : List (Redirection CommandList)} {wirings : List Wiring}
    (outputs : ∀ redirection ∈ redirections, redirection.isOutput = true)
    (written : Written wirings captured)
    (ran : applyCapturedFrom host directory .stdout .stderr captured redirections context =
      (.ok result, after)) :
    ∃ later, resolveRedirections host redirections context = (.ok later, after) ∧
      Written (wirings ++ later) result := by
  induction redirections generalizing context captured wirings with
  | nil =>
      cases ran
      exact ⟨[], rfl, (List.append_nil wirings).symm ▸ written⟩
  | cons redirection rest ih =>
      obtain ⟨first, middle, applied, ran⟩ := Program.bind_eq_ok.mp ran
      obtain ⟨wiring, resolved, between⟩ :=
        written.step (outputs redirection List.mem_cons_self) applied
      obtain ⟨later, resolvedLater, whole⟩ :=
        ih (fun other member => outputs other (List.mem_cons_of_mem _ member)) between ran
      refine ⟨wiring :: later, ?_, ?_⟩
      · exact Program.bind_eq_ok.mpr ⟨_, _, resolved,
        Program.bind_eq_ok.mpr ⟨_, _, resolvedLater, rfl⟩⟩
      · rw [List.append_cons]
        exact whole

theorem Written.sinks {wirings : List Wiring} {captured : CapturedRedirection Stream}
    (written : Written wirings captured) (s : Stream) : captured.sinks s =
      (openers s wirings).map (fun entry => .file entry.1 entry.2) ++
        if (openers s wirings).isEmpty then [.captured s] else [] := by
  have files : (openers s wirings).map (fun entry => Sink.ofFile captured.files entry.1) =
      (openers s wirings).map fun entry => .file entry.1 entry.2 := by
    refine List.map_congr_left fun entry member => ?_
    rw [Sink.ofFile, written.files, List.getD_eq_getElem?_getD, opening_of_openers member]
    rfl
  have captures : captured.sinks s =
      (captured.writes.filter (·.2 = s)).map (fun write => Sink.ofFile captured.files write.1) ++
        if captured.redirected s then [] else [.captured s] := by
    cases s <;> rfl
  rw [captures, written.writes, written.redirected, List.map_map]
  refine congrArg₂ (· ++ ·) files ?_
  cases (openers s wirings).isEmpty <;> rfl

end Captured

/-! ## When both send the output to the same sinks -/

def Wiring.shape : Wiring → Wiring
  | opens stream _ => opens stream ⟨[], false⟩
  | opensBoth _ => opensBoth ⟨[], false⟩
  | wiring => wiring

section Law

variable {Io : Type} {host : Host (ExecError Io)} {directory : Directory Io}

theorem openersFrom_shape (s : Stream) (number : Nat) (wirings : List Wiring) :
    (openersFrom s number (wirings.map Wiring.shape)).map Prod.fst =
      (openersFrom s number wirings).map Prod.fst := by
  induction wirings generalizing number with
  | nil => rfl
  | cons wiring rest ih =>
      rw [List.map_cons, openersFrom, openersFrom]
      cases wiring with
      | opens stream opening =>
          by_cases same : (s == stream) = true <;>
            simp [Wiring.shape, Wiring.opened, Wiring.serves, same, ih]
      | opensBoth opening => exact congrArg (number :: ·) (ih (number + 1))
      | duplicates | closes => exact ih number

theorem resolveRedirection_shape {context later after last : Context}
    {redirection : Redirection CommandList} {wiring other : Option Wiring}
    (first : resolveRedirection host redirection context = (.ok wiring, after))
    (second : resolveRedirection host redirection later = (.ok other, last)) :
    other.map Wiring.shape = wiring.map Wiring.shape := by
  cases redirection with
  | output fd target append =>
      obtain ⟨_, _, -, returned⟩ := Program.bind_eq_ok.mp first
      obtain ⟨_, _, -, same⟩ := Program.bind_eq_ok.mp second
      cases returned
      cases same
      cases Stream.ofFd (fd.getD 1) <;> rfl
  | both append target =>
      obtain ⟨_, _, -, returned⟩ := Program.bind_eq_ok.mp first
      obtain ⟨_, _, -, same⟩ := Program.bind_eq_ok.mp second
      cases returned
      cases same
      rfl
  | duplicate source target toOutput =>
      cases target <;>
      · cases first
        cases second
        rfl
  | input | hereDoc | hereString =>
      cases first
      cases second
      rfl

theorem resolveRedirections_shape {context later after last : Context}
    {redirections : List (Redirection CommandList)} {wirings others : List Wiring}
    (first : resolveRedirections host redirections context = (.ok wirings, after))
    (second : resolveRedirections host redirections later = (.ok others, last)) :
    others.map Wiring.shape = wirings.map Wiring.shape := by
  induction redirections generalizing context later wirings others with
  | nil =>
      cases first
      cases second
      rfl
  | cons redirection rest ih =>
      obtain ⟨wiring, _, resolved, first⟩ := Program.bind_eq_ok.mp first
      obtain ⟨wiringsThen, _, resolvedThen, returned⟩ := Program.bind_eq_ok.mp first
      obtain ⟨other, _, resolvedOther, second⟩ := Program.bind_eq_ok.mp second
      obtain ⟨othersThen, _, resolvedOthers, same⟩ := Program.bind_eq_ok.mp second
      cases returned
      cases same
      rw [List.map_append, List.map_append, ih resolvedThen resolvedOthers]
      refine congrArg (· ++ _) ?_
      have shapes := resolveRedirection_shape resolved resolvedOther
      cases wiring <;> cases other
      · rfl
      · cases shapes
      · cases shapes
      · exact congrArg ([·]) (Option.some.inj shapes)

def Directory.resolved (opening : Opening) : Opening :=
  ⟨directory.resolvePath opening.path, opening.append⟩

/-- In the end each stream goes to the only file that is opened for it, or is captured if none
is; and the streams do not go to a file of the same name that is opened for each of them. -/
structure OneFileEach (wirings : List Wiring) : Prop where
  sink : ∀ s, (openers s wirings = [] ∧ (posixTable wirings).sinks s = .captured s) ∨
    ∃ number opening, openers s wirings = [(number, opening)] ∧
      (posixTable wirings).sinks s = .file number opening
  once : ∀ first second opening, (posixTable wirings).sinks .stdout = .file first opening →
    (posixTable wirings).sinks .stderr = .file second opening → first = second

theorem place_captured {sink : Sink} {stream : Stream} :
    directory.place sink = .captured stream ↔ sink = .captured stream := by
  cases sink <;> simp [Directory.place]

theorem Given.same_iff {table sinks : Stream → Sink} (given : Given table sinks) :
    SameSinks directory table sinks ↔
      (∀ s stream, table s = .captured stream → stream = s) ∧
        ∀ first second opening, table .stdout = .file first opening →
          table .stderr = .file second opening → first = second := by
  obtain ⟨sink, shared⟩ := given
  constructor
  · rintro ⟨place, same⟩
    constructor
    · intro s stream captured
      rcases sink s with ⟨_, _, is⟩ | ⟨_, _, _, file, _⟩ | ⟨none, _⟩
      · have placed := place s
        rw [captured, is] at placed
        cases placed
        rfl
      · cases captured.symm.trans file
      · cases captured.symm.trans none
    · intro first second opening out err
      have both := same.mpr (shared.mpr (Or.inr ⟨first, second, opening, out, err⟩))
      rw [out, err] at both
      cases both
      rfl
  · rintro ⟨own, once⟩
    constructor
    · intro s
      rcases sink s with ⟨stream, captured, is⟩ | ⟨_, _, opening, file, is⟩ | ⟨none, is⟩
      · rw [captured, is, own s stream captured]
      · rw [file, is]
        rfl
      · rw [none, is]
    · rw [shared]
      constructor
      · intro both
        rcases sink .stdout with
          ⟨stream, captured, _⟩ | ⟨number, _, opening, file, _⟩ | ⟨none, _⟩
        · have first := own _ _ captured
          have second := own _ _ (both.symm.trans captured)
          cases first.symm.trans second
        · exact Or.inr ⟨number, number, opening, file, both.symm.trans file⟩
        · exact Or.inl ⟨none, both.symm.trans none⟩
      · rintro (⟨out, err⟩ | ⟨first, second, opening, out, err⟩)
        · exact out.trans err.symm
        · rw [out, err, once first second opening out err]

/-- The output of each stream of a group goes to one sink, its own. -/
theorem Written.single_iff {wirings : List Wiring} {captured : CapturedRedirection Stream}
    (written : Written wirings captured) {s : Stream} {sink : Sink} : captured.sinks s = [sink] ↔
      (openers s wirings = [] ∧ sink = .captured s) ∨
        ∃ number opening, openers s wirings = [(number, opening)] ∧ sink = .file number opening := by
  rw [written.sinks]
  rcases openers s wirings with _ | ⟨⟨number, opening⟩, _ | ⟨other, rest⟩⟩
  · simp [eq_comm]
  · simp [eq_comm]
  · simp

/-- The files that the redirections of a group name are those that they would name for the
command alone. -/
def SameFiles (directory : Directory Io) (wirings others : List Wiring) : Prop :=
  (openings others).map directory.resolved = (openings wirings).map directory.resolved

/-- The streams of a group go where the table has them. -/
def GroupSinks (directory : Directory Io) (table : Stream → Sink)
    (captured : CapturedRedirection Stream) : Prop :=
  ∃ sinks, (∀ s, captured.sinks s = [sinks s]) ∧ SameSinks directory table sinks

/-- The table and the group agree on a stream: it is captured, or goes to one file. -/
def Agreed (wirings others : List Wiring) (table sinks : Stream → Sink) (s : Stream) : Prop :=
  (table s = .captured s ∧ sinks s = .captured s) ∨
    ∃ number opening other, table s = .file number opening ∧ sinks s = .file number other ∧
      (openings wirings)[number]? = some opening ∧ (openings others)[number]? = some other

theorem Agreed.shared {wirings others : List Wiring} {table sinks : Stream → Sink}
    (agreed : ∀ s, Agreed wirings others table sinks s) :
    table .stdout = table .stderr ↔ sinks .stdout = sinks .stderr := by
  rcases agreed .stdout with
    ⟨out, outSink⟩ | ⟨first, opening, other, out, outSink, found, foundOther⟩
  · rcases agreed .stderr with ⟨err, errSink⟩ | ⟨_, _, _, err, errSink, _⟩ <;>
      simp [out, outSink, err, errSink]
  · rcases agreed .stderr with ⟨err, errSink⟩ | ⟨second, _, _, err, errSink, knows, knowsOther⟩
    · simp [out, outSink, err, errSink]
    · rw [out, err, outSink, errSink]
      constructor
      · rintro ⟨⟩
        cases foundOther.symm.trans knowsOther
        rfl
      · rintro ⟨⟩
        cases found.symm.trans knows
        rfl

theorem openings_shape (wirings : List Wiring) :
    (openings (wirings.map Wiring.shape)).length = (openings wirings).length := by
  induction wirings with
  | nil => rfl
  | cons wiring rest ih =>
      rw [List.map_cons, openings, openings, List.filterMap_cons, List.filterMap_cons]
      cases wiring with
      | opens | opensBoth => exact congrArg (· + 1) ih
      | duplicates | closes => exact ih

/-- Two lists of redirections of one shape. -/
theorem numbers_of_shape {wirings others : List Wiring}
    (shape : others.map Wiring.shape = wirings.map Wiring.shape) :
    (∀ s, (openers s others).map Prod.fst = (openers s wirings).map Prod.fst) ∧
      (openings others).length = (openings wirings).length := by
  constructor
  · intro s
    rw [openers, openers, ← openersFrom_shape, ← openersFrom_shape s 0 wirings, shape]
  · rw [← openings_shape, ← openings_shape wirings, shape]

section Comparison

variable {wirings others : List Wiring} {captured : CapturedRedirection Stream}
  {sinks : Stream → Sink}

theorem groupSinks_of (shape : others.map Wiring.shape = wirings.map Wiring.shape)
    (written : Written others captured) (each : OneFileEach wirings)
    (files : SameFiles directory wirings others) :
    GroupSinks directory (posixTable wirings).sinks captured := by
  obtain ⟨numbers, -⟩ := numbers_of_shape shape
  have found (s : Stream) : ∃ sink, captured.sinks s = [sink] ∧
      directory.place ((posixTable wirings).sinks s) = directory.place sink ∧
      Agreed wirings others (posixTable wirings).sinks (fun _ => sink) s := by
    rcases each.sink s with ⟨none, is⟩ | ⟨number, opening, one, is⟩
    · have noneThen : openers s others = [] := by
        have same := numbers s
        rw [none] at same
        exact List.map_eq_nil_iff.mp same
      refine ⟨.captured s, written.single_iff.mpr (Or.inl ⟨noneThen, rfl⟩), ?_, Or.inl ⟨is, rfl⟩⟩
      rw [is]
    · have oneThen : ∃ other, openers s others = [(number, other)] := by
        have same := numbers s
        rw [one] at same
        obtain ⟨⟨_, other⟩, single, rfl⟩ := List.map_eq_singleton_iff.mp same
        exact ⟨other, single⟩
      obtain ⟨other, oneThen⟩ := oneThen
      have opened := opening_of_openers (s := s) (one ▸ List.mem_cons_self)
      have openedThen := @opening_of_openers s others number other (oneThen ▸ List.mem_cons_self)
      have same : directory.resolved other = directory.resolved opening := by
        have both := congrArg (·[number]?) files
        rw [List.getElem?_map, List.getElem?_map, opened, openedThen] at both
        exact Option.some.inj both
      refine ⟨.file number other, written.single_iff.mpr (Or.inr ⟨number, other, oneThen, rfl⟩),
        ?_, Or.inr ⟨number, opening, other, is, rfl, opened, openedThen⟩⟩
      rw [is]
      exact congrArg (Sink.file 0) same.symm
  choose sinks single place agreed using found
  exact ⟨sinks, single, place, Agreed.shared agreed⟩

/-- What a stream of a group goes to is captured in the table too, or a file that is alone. -/
theorem single_of_group (shape : others.map Wiring.shape = wirings.map Wiring.shape)
    (written : Written others captured) {s : Stream} {sink : Sink}
    (single : captured.sinks s = [sink])
    (place : directory.place ((posixTable wirings).sinks s) = directory.place sink) :
    (openers s wirings = [] ∧ (posixTable wirings).sinks s = .captured s) ∨
      ∃ number opening other standing table, openers s wirings = [(number, opening)] ∧
        openers s others = [(number, other)] ∧ sink = .file number other ∧
        (posixTable wirings).sinks s = .file standing table ∧
        directory.resolved other = directory.resolved table := by
  obtain ⟨numbers, -⟩ := numbers_of_shape shape
  have same := numbers s
  rcases written.single_iff.mp single with ⟨none, rfl⟩ | ⟨number, other, one, rfl⟩
  · rw [none] at same
    exact Or.inl ⟨List.map_eq_nil_iff.mp same.symm, place_captured.mp place⟩
  · rw [one] at same
    obtain ⟨⟨_, opening⟩, alone, rfl⟩ := List.map_eq_singleton_iff.mp same.symm
    cases is : (posixTable wirings).sinks s with
    | captured | nowhere =>
        rw [is] at place
        cases place
    | file standing table =>
        rw [is] at place
        exact Or.inr ⟨_, opening, other, standing, table, alone, one, rfl, rfl,
          (Sink.file.inj place).2.symm⟩

/-- A stream that goes to a file in both goes to its own. -/
theorem own_of_group (shape : others.map Wiring.shape = wirings.map Wiring.shape)
    (written : Written others captured) (single : ∀ s, captured.sinks s = [sinks s])
    (same : SameSinks directory (posixTable wirings).sinks sinks) {s : Stream}
    {number standing : Nat} {opening table : Opening}
    (alone : openers s wirings = [(number, opening)])
    (is : (posixTable wirings).sinks s = .file standing table) : standing = number := by
  obtain ⟨known, own⟩ := tabled wirings
  by_contra apart
  have shared : (posixTable wirings).sinks s = (posixTable wirings).sinks s.other ↔
      sinks s = sinks s.other := by
    cases s with
    | stdout => exact same.shared
    | stderr => exact eq_comm.trans (same.shared.trans eq_comm)
  -- The file of the stream is the only one of the other stream.
  obtain ⟨stream, member⟩ := known s standing table is
  rcases s.eq_or_other stream with rfl | rfl
  · rw [alone] at member
    cases List.mem_singleton.mp member
    exact apart rfl
  rcases single_of_group shape written (single s.other) (same.place s.other) with
    ⟨none, -⟩ | ⟨first, second, third, crossed, file, aloneThen, -, sink, isThen, -⟩
  · rw [none] at member
    cases member
  rw [aloneThen] at member
  cases List.mem_singleton.mp member
  have differ : (posixTable wirings).sinks s ≠ (posixTable wirings).sinks s.other := by
    intro equal
    rcases single_of_group shape written (single s) (same.place s) with
      ⟨none, -⟩ | ⟨_, _, _, _, _, aloneToo, -, sinkToo, -⟩
    · rw [none] at alone
      cases alone
    · have both := shared.mp equal
      rw [sink, sinkToo] at both
      cases both
      cases alone.symm.trans aloneToo
      exact apart rfl
  -- So the other stream goes to the file of this one, and neither goes to its own.
  have swapped : crossed = number := by
    obtain ⟨stream, member⟩ := known s.other crossed file isThen
    rcases s.eq_or_other stream with rfl | rfl
    · rw [alone] at member
      cases List.mem_singleton.mp member
      rfl
    · rw [aloneThen] at member
      cases List.mem_singleton.mp member
      exact (differ (is.trans isThen.symm)).elim
  rcases own with equal | ⟨stream, owns⟩
  · cases s with
    | stdout => exact differ equal
    | stderr => exact differ equal.symm
  · rcases s.eq_or_other stream with rfl | rfl
    · have member := owns standing table is
      rw [alone] at member
      cases List.mem_singleton.mp member
      exact apart rfl
    · have member := owns crossed file isThen
      rw [aloneThen] at member
      cases List.mem_singleton.mp member
      exact apart swapped

theorem oneFileEach_of (shape : others.map Wiring.shape = wirings.map Wiring.shape)
    (written : Written others captured)
    (once : ∀ first second opening, (posixTable wirings).sinks .stdout = .file first opening →
      (posixTable wirings).sinks .stderr = .file second opening → first = second)
    (group : GroupSinks directory (posixTable wirings).sinks captured) :
    OneFileEach wirings ∧ SameFiles directory wirings others := by
  obtain ⟨sinks, single, same⟩ := group
  have each (s : Stream) : (openers s wirings = [] ∧
        (posixTable wirings).sinks s = .captured s) ∨
      ∃ number opening other, openers s wirings = [(number, opening)] ∧
        openers s others = [(number, other)] ∧
        (posixTable wirings).sinks s = .file number opening ∧
        directory.resolved other = directory.resolved opening := by
    rcases single_of_group shape written (single s) (same.place s) with
      none | ⟨number, opening, other, standing, table, alone, one, -, is, resolved⟩
    · exact Or.inl none
    · cases own_of_group shape written single same alone is
      obtain ⟨stream, member⟩ := (tabled wirings).known s _ table is
      have first := opening_of_openers member
      have second := @opening_of_openers s wirings _ opening (alone ▸ List.mem_cons_self)
      cases first.symm.trans second
      exact Or.inr ⟨_, _, other, alone, one, is, resolved⟩
  refine ⟨⟨fun s => ?_, once⟩, ?_⟩
  · rcases each s with none | ⟨number, opening, _, alone, -, is, -⟩
    · exact Or.inl none
    · exact Or.inr ⟨number, opening, alone, is⟩
  · refine List.ext_getElem? fun number => ?_
    rw [List.getElem?_map, List.getElem?_map]
    cases opened : (openings wirings)[number]? with
    | none =>
        have outside := List.getElem?_eq_none_iff.mp opened
        rw [← (numbers_of_shape shape).2] at outside
        rw [List.getElem?_eq_none_iff.mpr outside]
    | some opening =>
        obtain ⟨s, member⟩ := openers_of_opening 0 opened
        rw [Nat.zero_add] at member
        have member : (number, opening) ∈ openers s wirings := member
        rcases each s with ⟨none, -⟩ | ⟨first, second, other, alone, one, -, resolved⟩
        · rw [none] at member
          cases member
        · rw [alone] at member
          cases List.mem_singleton.mp member
          have openedThen := @opening_of_openers s others number other (one ▸ List.mem_cons_self)
          rw [openedThen]
          exact congrArg some resolved

end Comparison

/-- A command and a group with the same redirections send their output to the sinks of the
table exactly where each stream has one file, or none, and both name the same files. -/
theorem sinks_iff {context later after last : Context} {stdin : Stdio} {process : ProcessStdio}
    {data : Option (List Char)} {captured : CapturedRedirection Stream}
    {redirections : List (Redirection CommandList)}
    (outputs : ∀ redirection ∈ redirections, redirection.isOutput = true)
    (alone : applyRedirections host directory (.capturing stdin) redirections context =
      (.ok (process, data), after))
    (grouped : applyCapturedRedirections host directory .stdout .stderr redirections later =
      (.ok captured, last)) :
    ∃ wirings others, resolveRedirections host redirections context = (.ok wirings, after) ∧
      resolveRedirections host redirections later = (.ok others, last) ∧
      ((SameSinks directory (posixTable wirings).sinks process.sink ∧
          GroupSinks directory (posixTable wirings).sinks captured) ↔
        OneFileEach wirings ∧ SameFiles directory wirings others) := by
  obtain ⟨wirings, wired, given⟩ := applyRedirections_given outputs alone
  have begun : Written [] (.new : CapturedRedirection Stream) :=
    ⟨rfl, fun s => rfl, fun s => by cases s <;> rfl⟩
  obtain ⟨others, rewired, written⟩ := begun.run outputs grouped
  have shape := resolveRedirections_shape wired rewired
  refine ⟨wirings, others, wired, rewired, ?_⟩
  rw [given.same_iff]
  constructor
  · rintro ⟨⟨-, once⟩, group⟩
    exact oneFileEach_of shape written once group
  · rintro ⟨each, files⟩
    refine ⟨⟨fun s stream captured => ?_, each.once⟩, groupSinks_of shape written each files⟩
    rcases each.sink s with ⟨-, is⟩ | ⟨_, _, -, is⟩
    · cases is.symm.trans captured
      rfl
    · cases is.symm.trans captured

end Law

/-! ## Two descriptors -/

/-- The path `f`. -/
def fileTarget : Word CommandList := ⟨[.literal ['f'] .unquoted], .default⟩

/-- The redirections `> f 2>> g`. -/
def twoFiles : List (Redirection CommandList) :=
  [.output none fileTarget false,
    .output (some 2) ⟨[.literal ['g'] .unquoted], .default⟩ true]

/-- Each stream goes to a file of its own. -/
theorem sinks_toFiles : ∃ process captured wirings,
    applyRedirections quietHost openDirectory (.capturing .inherit) twoFiles bareContext =
      (.ok (process, none), bareContext) ∧
    applyCapturedRedirections quietHost openDirectory Stream.stdout Stream.stderr twoFiles
      bareContext = (.ok captured, bareContext) ∧
    resolveRedirections quietHost twoFiles bareContext = (.ok wirings, bareContext) ∧
    SameSinks openDirectory (posixTable wirings).sinks process.sink ∧
    GroupSinks openDirectory (posixTable wirings).sinks captured := by
  have outputs : ∀ redirection ∈ twoFiles, redirection.isOutput = true := by
    intro redirection member
    rcases List.mem_pair.mp member with rfl | rfl <;> rfl
  let process : ProcessStdio := ⟨.inherit, .output 0, .output 1, [⟨['f'], false⟩, ⟨['g'], true⟩]⟩
  let captured : CapturedRedirection Stream :=
    ⟨[⟨['f'], false⟩, ⟨['g'], true⟩], [(0, .stdout), (1, .stderr)], true, true⟩
  have alone : applyRedirections quietHost openDirectory (.capturing .inherit) twoFiles
      bareContext = (.ok (process, none), bareContext) := rfl
  have grouped : applyCapturedRedirections quietHost openDirectory Stream.stdout Stream.stderr
      twoFiles bareContext = (.ok captured, bareContext) := rfl
  obtain ⟨wirings, others, wired, rewired, same⟩ := sinks_iff outputs alone grouped
  have is : resolveRedirections quietHost twoFiles bareContext =
      (.ok [.opens .stdout ⟨['f'], false⟩, .opens .stderr ⟨['g'], true⟩], bareContext) := rfl
  cases is.symm.trans wired
  cases is.symm.trans rewired
  refine ⟨process, captured, _, alone, grouped, wired, same.mpr ⟨⟨fun s => ?_, ?_⟩, rfl⟩⟩
  · cases s with
    | stdout => exact Or.inr ⟨0, ⟨['f'], false⟩, rfl, rfl⟩
    | stderr => exact Or.inr ⟨1, ⟨['g'], true⟩, rfl, rfl⟩
  · intro first second opening out err
    cases out
    cases err

/-- In `> f 2>&1` the errors of a group are not sent to the file. -/
theorem group_ignores_duplicate : ¬∀ (host : Host (ExecError Unit)) (directory : Directory Unit)
    (context later after last : Context) (stdin : Stdio) (process : ProcessStdio)
    (data : Option (List Char)) (captured : CapturedRedirection Stream)
    (redirections : List (Redirection CommandList)) (wirings : List Wiring),
    (∀ redirection ∈ redirections, redirection.isOutput = true) →
    applyRedirections host directory (.capturing stdin) redirections context =
      (.ok (process, data), after) →
    applyCapturedRedirections host directory .stdout .stderr redirections later =
      (.ok captured, last) →
    resolveRedirections host redirections context = (.ok wirings, after) →
    SameSinks directory (posixTable wirings).sinks process.sink ∧
      GroupSinks directory (posixTable wirings).sinks captured := by
  intro keep
  have outputs : ∀ redirection ∈
      [Redirection.output none fileTarget false, .duplicate 2 (.fd 1) true],
      redirection.isOutput = true := by
    intro redirection member
    rcases List.mem_pair.mp member with rfl | rfl <;> rfl
  obtain ⟨-, sinks, single, same⟩ := keep quietHost openDirectory bareContext bareContext
    bareContext bareContext .inherit ⟨.inherit, .output 0, .output 0, [⟨['f'], false⟩]⟩ none
    ⟨[⟨['f'], false⟩], [(0, .stdout)], true, false⟩
    [.output none fileTarget false, .duplicate 2 (.fd 1) true]
    [.opens .stdout ⟨['f'], false⟩, .duplicates .stderr .stdout] outputs rfl rfl rfl
  have captured : [sinks .stderr] = [.captured .stderr] := (single .stderr).symm
  have place := same.place .stderr
  rw [List.singleton_inj.mp captured] at place
  cases place

end OddJobs.Shell
