import OddJobs.Core.Base
import OddJobs.Library.Lines
import OddJobs.Library.Map
import OddJobs.Library.Program
import OddJobs.Library.Text

/-!
# Files of environment variables

One variable a line.  The writer puts key and value down as they are; the reader trims the line
before it looks for the key.
-/

namespace OddJobs

open Library

abbrev BTreeMap (V : Type) := Std.ExtTreeMap String V

/-! ## Files -/

inductive IoError where
  | notFound
  | other (message : String)
  deriving DecidableEq, Repr

structure FileSystem where
  files : HashMap String
  readFault : PathBuf → Option String := fun _ => none
  removeFault : PathBuf → Option String := fun _ => none
  /-- Why the directories above a file cannot be made. -/
  dirsFault : PathBuf → Option String := fun _ => none
  /-- Why a file cannot be written, and what is in it then if it was opened. -/
  writeFault : PathBuf → Option (String × Option String) := fun _ => none

namespace FileSystem

def readToString (path : PathBuf) : Program FileSystem IoError String := fun system =>
  match system.readFault path with
  | some message => (.error (.other message), system)
  | none =>
      match system.files[path]? with
      | none => (.error .notFound, system)
      | some content => (.ok content, system)

def removeFile (path : PathBuf) : Program FileSystem IoError Unit := fun system =>
  match system.files[path]? with
  | none => (.error .notFound, system)
  | some _ =>
      match system.removeFault path with
      | some message => (.error (.other message), system)
      | none => (.ok (), { system with files := system.files.erase path })

def createDirAll (path : PathBuf) : Program FileSystem IoError Unit := fun system =>
  match system.dirsFault path with
  | some message => (.error (.other message), system)
  | none => (.ok (), system)

def write (path : PathBuf) (content : String) : Program FileSystem IoError Unit := fun system =>
  match system.writeFault path with
  | some (message, none) => (.error (.other message), system)
  | some (message, some left) =>
      (.error (.other message), { system with files := system.files.insert path left })
  | none => (.ok (), { system with files := system.files.insert path content })

end FileSystem

/-! ## Paths -/

/-- `directory.join(name)`. -/
def joinPath (directory : PathBuf) (name : String) : PathBuf :=
  if directory.toList.getLast?.all (· == '/') then directory ++ name else directory ++ "/" ++ name

def globalEnvPath (stateDir : PathBuf) : PathBuf := joinPath stateDir "env"

def projectEnvPath (stateDir : PathBuf) (project : String) : PathBuf :=
  joinPath stateDir ("env." ++ project)

/-! ## The text of a file -/

def parseEnvLine (map : BTreeMap String) (line : List Char) : BTreeMap String :=
  let trimmed := Text.trim line
  if trimmed.isEmpty || trimmed.head? == some '#' then map
  else
    match trimmed.dropWhile (· ≠ '=') with
    | [] => map
    | _ :: value =>
        let key := Text.trim (trimmed.takeWhile (· ≠ '='))
        if key.isEmpty then map else map.insert (String.ofList key) (String.ofList value)

def parseEnv (content : String) : BTreeMap String :=
  (Lines.ofText content.toList).foldl parseEnvLine ∅

def envLine (entry : String × String) : List Char := entry.1.toList ++ '=' :: entry.2.toList

def renderEnv (vars : BTreeMap String) : String :=
  String.ofList (['\n'].intercalate (vars.toList.map envLine) ++ ['\n'])

/-! ## Reading and writing -/

def readEnvFile (path : PathBuf) : Program FileSystem IoError (BTreeMap String) := do
  match ← Program.attempt (FileSystem.readToString path) with
  | .ok content => pure (parseEnv content)
  | .error .notFound => pure ∅
  | .error error => Program.throw error

def writeEnvFile (path : PathBuf) (vars : BTreeMap String) : Program FileSystem IoError Unit :=
  if vars.isEmpty then do
    match ← Program.attempt (FileSystem.removeFile path) with
    | .ok () => pure ()
    | .error .notFound => pure ()
    | .error error => Program.throw error
  else do
    FileSystem.createDirAll path
    FileSystem.write path (renderEnv vars)

/-- `map.extend(others)`. -/
def BTreeMap.extend (map others : BTreeMap String) : BTreeMap String :=
  others.toList.foldl (fun map entry => map.insert entry.1 entry.2) map

def extendFrom (path : PathBuf) (map : BTreeMap String) :
    Program FileSystem IoError (BTreeMap String) := do
  match ← Program.attempt (readEnvFile path) with
  | .ok vars => pure (map.extend vars)
  | .error (_ : IoError) => pure map

/-- Load the environment: global variables first, then those of the project over them. -/
def loadMergedEnv (stateDir : PathBuf) (ns : String) :
    Program FileSystem IoError (List (String × String)) := do
  let merged ← extendFrom (globalEnvPath stateDir) ∅
  let merged ← if ns = "" then pure merged else extendFrom (projectEnvPath stateDir ns) merged
  pure merged.toList

/-! ## One line -/

/-- The keys that a line can hold: they are not empty, have no `=` and no white space, and do
not begin like a comment. -/
structure FormedKey (key : String) : Prop where
  nonempty : key.toList ≠ []
  noEquals : '=' ∉ key.toList
  noSpace : ∀ c ∈ key.toList, Text.isWhiteSpace c = false
  noComment : key.toList.head? ≠ some '#'

def trimValue (value : String) : String := String.ofList (Text.trimEnd value.toList)

theorem trim_stripEnd (line : List Char) : Text.trim (Lines.stripEnd (line ++ ['\n'])) = Text.trim line := by
  have newline : (line ++ ['\n']).getLast? = some '\n' := List.getLast?_concat
  unfold Lines.stripEnd
  rw [if_pos newline, List.dropLast_concat]
  dsimp only
  split
  · rename_i carriage
    obtain ⟨front, rfl⟩ := List.getLast?_eq_some_iff.mp carriage
    rw [List.dropLast_concat, Text.trim_append_space]
    exact List.forall_mem_singleton.mpr (by decide)
  · rfl

theorem trim_envLine {key : String} (formed : FormedKey key) (value : String) :
    Text.trim (envLine (key, value)) = key.toList ++ '=' :: Text.trimEnd value.toList := by
  have starts : ∀ c, (envLine (key, value)).head? = some c → Text.isWhiteSpace c = false := by
    intro c first
    unfold envLine at first
    rw [List.head?_append_of_ne_nil _ formed.nonempty] at first
    exact formed.noSpace c (List.mem_of_head? first)
  unfold Text.trim
  rw [Text.dropWhile_of_starts starts]
  exact Text.trimEnd_append (by decide) _ _

/-- A line is read as the variable that it was written for, without white space at its end. -/
theorem parseEnvLine_envLine {key : String} (formed : FormedKey key) (value : String)
    (map : BTreeMap String) :
    parseEnvLine map (Lines.stripEnd (envLine (key, value) ++ ['\n'])) =
      map.insert key (trimValue value) := by
  have inside : ∀ c ∈ key.toList, decide (c ≠ '=') = true := by
    intro c member
    rw [decide_eq_true_eq]
    rintro rfl
    exact formed.noEquals member
  have kept : Text.Trimmed key.toList :=
    ⟨fun c first => formed.noSpace c (List.mem_of_head? first),
      fun c last => formed.noSpace c (List.mem_of_getLast? last)⟩
  unfold parseEnvLine
  rw [trim_stripEnd, trim_envLine formed]
  dsimp only
  rw [if_neg, List.dropWhile_append_of_pos inside, List.takeWhile_append_of_pos inside,
    List.dropWhile_cons_of_neg (by decide), List.takeWhile_cons_of_neg (by decide)]
  · dsimp only
    rw [List.append_nil, kept.trim_eq,
    if_neg fun none => formed.nonempty (List.isEmpty_iff.mp none),
      String.ofList_toList]
    rfl
  · rw [List.head?_append_of_ne_nil _ formed.nonempty]
    have some : (key.toList ++ '=' :: Text.trimEnd value.toList).isEmpty = false := by
      rw [List.isEmpty_eq_false_iff]
      exact List.append_ne_nil_of_left_ne_nil formed.nonempty _
    rw [some, Bool.false_or, beq_iff_eq]
    exact formed.noComment

/-! ## A file -/

/-- The keys of the map can be written, and its values are single lines. -/
structure Writable (vars : BTreeMap String) : Prop where
  key : ∀ key value : String, vars[key]? = some value → FormedKey key
  line : ∀ key value : String, vars[key]? = some value → '\n' ∉ value.toList

theorem intercalate_lines {lines : List (List Char)} (nonempty : lines ≠ []) :
    ['\n'].intercalate lines ++ ['\n'] = lines.flatMap (· ++ ['\n']) := by
  induction lines with
  | nil => exact absurd rfl nonempty
  | cons line lines ih =>
      by_cases none : lines = []
      · subst none
        rw [List.intercalate_singleton, List.flatMap_singleton]
      · rw [List.intercalate_cons_of_ne_nil none, List.append_assoc, List.append_assoc, ih none,
          List.flatMap_cons, List.append_assoc]

theorem keys_nodup (vars : BTreeMap String) : (vars.toList.map Prod.fst).Nodup := by
  rw [Std.ExtTreeMap.map_fst_toList_eq_keys]
  exact Std.ExtTreeMap.nodup_keys

theorem lookup_extend (map others : BTreeMap String) (key : String) :
    (map.extend others)[key]? = (others[key]?).or map[key]? := by
  unfold BTreeMap.extend
  cases found : others[key]? with
  | some value =>
      exact Table.lookup_foldl_entries (keys_nodup others) map
        (Std.ExtTreeMap.mem_toList_iff_getElem?_eq_some.mpr found)
  | none =>
      rw [Table.lookup_foldl_entries_of_notMem]
      · rfl
      · intro member
        obtain ⟨⟨key', value⟩, listed, rfl⟩ := List.mem_map.mp member
        rw [Std.ExtTreeMap.mem_toList_iff_getElem?_eq_some.mp listed] at found
        cases found

/-- What is written is read back, each value without the white space at its end. -/
theorem parseEnv_renderEnv {vars : BTreeMap String} (writable : Writable vars)
    (some : vars.isEmpty = false) :
    parseEnv (renderEnv vars) = vars.map fun _ value => trimValue value := by
  have written : ∀ entry ∈ vars.toList, FormedKey entry.1 ∧ '\n' ∉ entry.2.toList := by
    intro entry member
    have found := Std.ExtTreeMap.mem_toList_iff_getElem?_eq_some.mp member
    exact ⟨writable.key entry.1 entry.2 found, writable.line entry.1 entry.2 found⟩
  have nonempty : vars.toList.map envLine ≠ [] := by
    rw [Ne, List.map_eq_nil_iff, Std.ExtTreeMap.toList_eq_nil_iff,
      ← Std.ExtTreeMap.isEmpty_eq_false_iff]
    exact some
  have shape : ∀ entry ∈ vars.toList, ∃ front, '\n' ∉ front ∧
      envLine entry ++ ['\n'] = front ++ ['\n'] := by
    intro entry member
    obtain ⟨formed, line⟩ := written entry member
    refine ⟨envLine entry, fun newline => ?_, rfl⟩
    rcases List.mem_append.mp newline with inKey | inValue
    · exact absurd (formed.noSpace _ inKey) (by decide)
    · exact (List.mem_cons.mp inValue).elim (by decide) line
  have lines : Lines.lines '\n' (renderEnv vars).toList =
      vars.toList.map fun entry => envLine entry ++ ['\n'] := by
    unfold renderEnv
    rw [String.toList_ofList, intercalate_lines nonempty, List.flatMap_map,
      ← List.append_nil (List.flatMap _ _), Lines.lines_flatMap shape]
    exact List.append_nil _
  have folded (entries : List (String × String)) (map : BTreeMap String)
      (formed : ∀ entry ∈ entries, FormedKey entry.1) :
      (entries.map fun entry => Lines.stripEnd (envLine entry ++ ['\n'])).foldl parseEnvLine map =
        (entries.map fun entry => (entry.1, trimValue entry.2)).foldl
          (fun map entry => map.insert entry.1 entry.2) map := by
    induction entries generalizing map with
    | nil => rfl
    | cons entry rest ih =>
        rw [List.map_cons, List.map_cons, List.foldl_cons, List.foldl_cons,
          parseEnvLine_envLine (formed entry List.mem_cons_self)]
        exact ih _ fun other member => formed other (List.mem_cons_of_mem entry member)
  have trimmed : (vars.toList.map fun entry => (entry.1, trimValue entry.2)) =
      (vars.map fun _ value => trimValue value).toList := by
    rw [Std.ExtTreeMap.toList_map]
  unfold parseEnv
  rw [Lines.ofText, lines, List.map_map]
  change (vars.toList.map fun entry => Lines.stripEnd (envLine entry ++ ['\n'])).foldl parseEnvLine ∅ = _
  rw [folded _ _ fun entry member => (written entry member).1, trimmed]
  apply Table.ext
  intro key
  have extended := lookup_extend ∅ (vars.map fun _ value => trimValue value) key
  rw [Table.lookup_empty, Option.or_none] at extended
  exact extended

/-! ## Reading and writing -/

def fileVars (system : FileSystem) (path : PathBuf) : BTreeMap String :=
  ((readEnvFile path system).1.toOption).getD ∅

/-- What was written is read, and there is no file for no variables. -/
structure Kept (path : PathBuf) (vars : BTreeMap String) (after : FileSystem) : Prop where
  read : (readEnvFile path after).1 = .ok vars
  absent : vars = ∅ → after.files[path]? = none

/-- Every key has the value of the project's file if that has it, else that of the global file;
without a namespace there is no project. -/
def Merges (system : FileSystem) (stateDir : PathBuf) (ns : String) : Prop :=
  ∃ entries, (loadMergedEnv stateDir ns system).1 = .ok entries ∧
    ∀ key value : String, (key, value) ∈ entries ↔
      (if ns = "" then none else (fileVars system (projectEnvPath stateDir ns))[key]?).or
        (fileVars system (globalEnvPath stateDir))[key]? = some value

theorem readEnvFile_run {system : FileSystem} {path : PathBuf}
    (readable : system.readFault path = none) :
    readEnvFile path system = (.ok ((system.files[path]?).elim ∅ parseEnv), system) := by
  unfold readEnvFile
  rw [Program.run_bind]
  unfold Program.attempt FileSystem.readToString
  rw [readable]
  cases system.files[path]? with
  | none => rfl
  | some content => rfl

theorem readEnvFile_stays (path : PathBuf) (system : FileSystem) :
    (readEnvFile path system).2 = system := by
  cases fault : system.readFault path with
  | none => rw [readEnvFile_run fault]
  | some message =>
      unfold readEnvFile
      rw [Program.run_bind]
      unfold Program.attempt FileSystem.readToString
      rw [fault]
      rfl

/-- A write that succeeds leaves exactly the variables, and nothing else changes how files are
read. -/
theorem writeEnvFile_ok {system after : FileSystem} {path : PathBuf} {vars : BTreeMap String}
    (written : writeEnvFile path vars system = (.ok (), after)) :
    after.readFault = system.readFault ∧
      after.files[path]? = if vars.isEmpty then none else some (renderEnv vars) := by
  unfold writeEnvFile at written
  split at written
  · rename_i empty
    rw [if_pos empty]
    rw [Program.run_bind] at written
    unfold Program.attempt FileSystem.removeFile at written
    cases found : system.files[path]? with
    | none =>
        rw [found] at written
        cases written
        exact ⟨rfl, found⟩
    | some content =>
        rw [found] at written
        dsimp only at written
        cases fault : system.removeFault path with
        | some message =>
            rw [fault] at written
            cases written
        | none =>
            rw [fault] at written
            cases written
            exact ⟨rfl, by rw [Table.lookup_erase, if_pos rfl]⟩
  · rename_i some
    rw [if_neg some]
    rw [Program.run_bind] at written
    unfold FileSystem.createDirAll at written
    cases dirs : system.dirsFault path with
    | some message =>
        rw [dirs] at written
        cases written
    | none =>
        rw [dirs] at written
        dsimp only at written
        unfold FileSystem.write at written
        split at written
        · cases written
        · cases written
        · cases written
          exact ⟨rfl, by rw [Table.lookup_insert, if_pos rfl]⟩

theorem trimValue_eq_self_iff (value : String) :
    trimValue value = value ↔
      ∀ c, value.toList.getLast? = some c → Text.isWhiteSpace c = false := by
  unfold trimValue
  rw [← Text.trimEnd_eq_self_iff, ← String.toList_inj, String.toList_ofList]

/-- A map is read back unless a value ends in white space. -/
theorem map_trimValue_iff (vars : BTreeMap String) :
    (vars.map fun _ value => trimValue value) = vars ↔
      ∀ key value : String, vars[key]? = some value →
        ∀ c, value.toList.getLast? = some c → Text.isWhiteSpace c = false := by
  constructor
  · intro same key value found
    have trimmed := Table.lookup_map vars (fun _ value => trimValue value) key
    rw [same, found] at trimmed
    exact (trimValue_eq_self_iff value).mp (Option.some.inj trimmed).symm
  · intro ends
    apply Table.ext
    intro key
    rw [Table.lookup_map]
    cases found : vars[key]? with
    | none => rfl
    | some value => rw [Option.map_some, (trimValue_eq_self_iff value).mpr (ends key value found)]

theorem kept_iff {system after : FileSystem} {path : PathBuf} {vars : BTreeMap String}
    (writable : Writable vars) (written : writeEnvFile path vars system = (.ok (), after))
    (readable : system.readFault path = none) :
    Kept path vars after ↔ ∀ key value : String, vars[key]? = some value →
      ∀ c, value.toList.getLast? = some c → Text.isWhiteSpace c = false := by
  obtain ⟨faults, file⟩ := writeEnvFile_ok written
  have read := readEnvFile_run (faults ▸ readable : after.readFault path = none)
  cases empty : vars.isEmpty with
  | true =>
      have none : vars = ∅ := Std.ExtTreeMap.isEmpty_iff.mp empty
      rw [empty, if_pos rfl] at file
      refine iff_of_true ⟨?_, fun _ => file⟩ ?_
      · rw [read, file, none]
        rfl
      · intro key value found
        rw [none, Table.lookup_empty] at found
        cases found
  | false =>
      rw [empty, if_neg Bool.false_ne_true] at file
      rw [← map_trimValue_iff, ← parseEnv_renderEnv writable empty]
      have some : vars ≠ ∅ := Std.ExtTreeMap.isEmpty_eq_false_iff.mp empty
      constructor
      · rintro ⟨same, -⟩
        rw [read, file] at same
        exact Except.ok.inj same
      · intro same
        refine ⟨?_, fun none => absurd none some⟩
        rw [read, file]
        exact congrArg Except.ok same

/-! ## Merging -/

theorem extendFrom_run (path : PathBuf) (map : BTreeMap String) (system : FileSystem) :
    extendFrom path map system = (.ok (map.extend (fileVars system path)), system) := by
  have stays := readEnvFile_stays path system
  unfold extendFrom fileVars
  rw [Program.run_bind]
  unfold Program.attempt
  rcases read : readEnvFile path system with ⟨result, after⟩
  rw [read] at stays
  subst stays
  cases result with
  | ok vars => rfl
  | error error => rfl

theorem merges (system : FileSystem) (stateDir : PathBuf) (ns : String) :
    Merges system stateDir ns := by
  have global := extendFrom_run (globalEnvPath stateDir) ∅ system
  have empty (key : String) : (∅ : BTreeMap String)[key]? = none := Table.lookup_empty key
  unfold Merges loadMergedEnv
  rw [Program.bind_ok global]
  by_cases none : ns = ""
  · rw [if_pos none, Program.pure_bind]
    refine ⟨_, rfl, fun key value => ?_⟩
    rw [Std.ExtTreeMap.mem_toList_iff_getElem?_eq_some, lookup_extend, empty, Option.or_none,
      if_pos none, Option.none_or]
  · rw [if_neg none, Program.bind_ok (extendFrom_run (projectEnvPath stateDir ns) _ system)]
    refine ⟨_, rfl, fun key value => ?_⟩
    rw [Std.ExtTreeMap.mem_toList_iff_getElem?_eq_some, lookup_extend, lookup_extend, empty,
      Option.or_none, if_neg none]

/-- The file keeps what was stored, and the files are merged as they should be, exactly where no
value ends in white space. -/
theorem env_kept_iff {system after : FileSystem} {path : PathBuf} {vars : BTreeMap String}
    (writable : Writable vars) (written : writeEnvFile path vars system = (.ok (), after))
    (readable : system.readFault path = none) :
    (Kept path vars after ∧ ∀ stateDir ns, Merges after stateDir ns) ↔
      ∀ key value : String, vars[key]? = some value →
        ∀ c, value.toList.getLast? = some c → Text.isWhiteSpace c = false := by
  rw [and_iff_left (merges after), kept_iff writable written readable]

def secret (value : String) : BTreeMap String := (∅ : BTreeMap String).insert "TOKEN" value

theorem lookup_secret {value key found : String} (lookup : (secret value)[key]? = some found) :
    key = "TOKEN" ∧ found = value := by
  unfold secret at lookup
  rw [Table.lookup_insert, Table.lookup_empty] at lookup
  split at lookup
  · rename_i same
    exact ⟨same.symm, (Option.some.inj lookup).symm⟩
  · cases lookup

theorem secret_writable {value : String} (line : '\n' ∉ value.toList) :
    Writable (secret value) where
  key := by
    intro key found lookup
    obtain ⟨rfl, -⟩ := lookup_secret lookup
    exact ⟨by decide, by decide, by simp; decide, by decide⟩
  line := by
    intro key found lookup
    obtain ⟨-, rfl⟩ := lookup_secret lookup
    exact line

theorem secret_kept :
    ∃ after, writeEnvFile "/state/env" (secret "a b=\"c\" #d") { files := ∅ } = (.ok (), after) ∧
      Kept "/state/env" (secret "a b=\"c\" #d") after ∧
      ∀ stateDir ns, Merges after stateDir ns := by
  have writable : Writable (secret "a b=\"c\" #d") := secret_writable (by decide)
  have written : writeEnvFile "/state/env" (secret "a b=\"c\" #d") { files := ∅ } =
      (.ok (), FileSystem.mk ((∅ : HashMap String).insert "/state/env"
        (renderEnv (secret "a b=\"c\" #d"))) _ _ _ _) :=
    rfl
  refine ⟨_, written, (env_kept_iff writable written rfl).mpr ?_⟩
  intro key value lookup
  obtain ⟨-, rfl⟩ := lookup_secret lookup
  rintro c ⟨⟩
  decide

/-- A value that ends in a space loses it. -/
theorem secret_lost :
    ¬∀ (system after : FileSystem) (path : PathBuf) (vars : BTreeMap String), Writable vars →
      writeEnvFile path vars system = (.ok (), after) → system.readFault path = none →
      Kept path vars after ∧ ∀ stateDir ns, Merges after stateDir ns := by
  intro all
  have writable : Writable (secret "hunter2 ") := secret_writable (by decide)
  have written : writeEnvFile "/state/env" (secret "hunter2 ") { files := ∅ } =
      (.ok (), FileSystem.mk ((∅ : HashMap String).insert "/state/env"
        (renderEnv (secret "hunter2 "))) _ _ _ _) :=
    rfl
  have kept := all _ _ _ _ writable written rfl
  have ends := (kept_iff writable written rfl).mp kept.1 "TOKEN" "hunter2 "
    (by rw [secret, Table.lookup_insert, if_pos rfl]) ' ' rfl
  exact absurd ends (by decide)

end OddJobs
