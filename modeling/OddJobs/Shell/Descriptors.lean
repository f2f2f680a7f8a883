import Mathlib.Data.List.Induction
import OddJobs.Shell.Redirect

/-!
# The table of file descriptors

Redirections from left to right rewire a table: a descriptor is opened, shares what another one
has at that point, or is closed.
-/

namespace OddJobs.Shell

inductive Stream where
  | stdout
  | stderr
  deriving DecidableEq, Repr

namespace Stream

def other : Stream → Stream
  | stdout => stderr
  | stderr => stdout

def ofFd (fd : Nat) : Option Stream :=
  if fd = 1 then some stdout else if fd = 2 then some stderr else none

theorem fd_of_isSome {fd : Nat} (stream : (ofFd fd).isSome = true) : fd = 1 ∨ fd = 2 := by
  rw [ofFd] at stream
  split at stream
  · rename_i first
    exact Or.inl first
  · split at stream
    · rename_i second
      exact Or.inr second
    · cases stream

theorem eq_or_other (s t : Stream) : t = s ∨ t = s.other := by
  cases s <;> cases t <;> simp [other]

end Stream

/-- Where a stream goes: to what captures a stream, to a file that has been opened, or nowhere. -/
inductive Sink where
  | captured (stream : Stream)
  | file (number : Nat) (opening : Opening)
  | nowhere
  deriving DecidableEq, Repr

inductive Wiring where
  | opens (stream : Stream) (opening : Opening)
  | opensBoth (opening : Opening)
  | duplicates (source target : Stream)
  | closes (source : Stream)
  deriving DecidableEq, Repr

namespace Wiring

def opened : Wiring → Option Opening
  | opens _ opening | opensBoth opening => some opening
  | _ => none

def serves (s : Stream) : Wiring → Bool
  | opens stream _ => s == stream
  | opensBoth _ => true
  | _ => false

end Wiring

/-- What the streams share, and how many files have been opened. -/
structure FdTable where
  sinks : Stream → Sink
  opened : Nat

namespace FdTable

def new : FdTable := ⟨.captured, 0⟩

def put (table : FdTable) (stream : Stream) (sink : Sink) : FdTable :=
  { table with sinks := fun s => if s = stream then sink else table.sinks s }

def rewire (table : FdTable) : Wiring → FdTable
  | .opens stream opening =>
      { table.put stream (.file table.opened opening) with opened := table.opened + 1 }
  | .opensBoth opening => ⟨fun _ => .file table.opened opening, table.opened + 1⟩
  | .duplicates source target => table.put source (table.sinks target)
  | .closes source => table.put source .nowhere

end FdTable

def posixTable (wirings : List Wiring) : FdTable := wirings.foldl FdTable.rewire .new

def openersFrom (s : Stream) : Nat → List Wiring → List (Nat × Opening)
  | _, [] => []
  | number, wiring :: rest =>
      match wiring.opened with
      | none => openersFrom s number rest
      | some opening =>
          if wiring.serves s then (number, opening) :: openersFrom s (number + 1) rest
          else openersFrom s (number + 1) rest

def openers (s : Stream) (wirings : List Wiring) : List (Nat × Opening) := openersFrom s 0 wirings

/-! ## Files and their numbers -/

def openings (wirings : List Wiring) : List Opening := wirings.filterMap Wiring.opened

section Openers

variable {s : Stream} {wirings : List Wiring}

theorem openersFrom_append (number : Nat) (first second : List Wiring) :
    openersFrom s number (first ++ second) =
      openersFrom s number first ++ openersFrom s (number + (openings first).length) second := by
  induction first generalizing number with
  | nil => rfl
  | cons wiring rest ih =>
      rw [List.cons_append, openersFrom, openersFrom, openings, List.filterMap_cons]
      cases wiring.opened with
      | none => exact ih number
      | some opening =>
          have later := ih (number + 1)
          rw [Nat.add_assoc, Nat.add_comm 1] at later
          dsimp only
          rw [later]
          split <;> rfl

theorem opening_of_mem {number start : Nat} {opening : Opening}
    (member : (number, opening) ∈ openersFrom s start wirings) :
    start ≤ number ∧ (openings wirings)[number - start]? = some opening := by
  induction wirings generalizing start with
  | nil => cases member
  | cons wiring rest ih =>
      rw [openersFrom] at member
      rw [openings, List.filterMap_cons]
      cases opened : wiring.opened with
      | none =>
          rw [opened] at member
          exact ih member
      | some other =>
          rw [opened] at member
          have later (member : (number, opening) ∈ openersFrom s (start + 1) rest) :
              start ≤ number ∧ (other :: openings rest)[number - start]? = some opening := by
            obtain ⟨before, found⟩ := ih member
            have step : number - start = number - (start + 1) + 1 := by omega
            exact ⟨Nat.le_of_succ_le before, by rw [step]; exact found⟩
          dsimp only at member
          split at member
          · rcases List.mem_cons.mp member with first | member
            · cases first
              exact ⟨Nat.le_refl _, by rw [Nat.sub_self]; rfl⟩
            · exact later member
          · exact later member

theorem opening_of_openers {number : Nat} {opening : Opening}
    (member : (number, opening) ∈ openers s wirings) :
    (openings wirings)[number]? = some opening := (opening_of_mem member).2

theorem openers_snoc (wirings : List Wiring) (wiring : Wiring) : openers s (wirings ++ [wiring]) =
    openers s wirings ++ openersFrom s (openings wirings).length [wiring] := by
  rw [openers, openersFrom_append, Nat.zero_add]
  rfl

theorem posixTable_snoc (wirings : List Wiring) (wiring : Wiring) :
    posixTable (wirings ++ [wiring]) = (posixTable wirings).rewire wiring := List.foldl_append

theorem posixTable_opened (wirings : List Wiring) :
    (posixTable wirings).opened = (openings wirings).length := by
  induction wirings using List.reverseRecOn with
  | nil => rfl
  | append_singleton wirings wiring ih =>
      rw [posixTable_snoc, openings, List.filterMap_append, List.length_append]
      cases wiring with
      | opens stream opening => exact congrArg (· + 1) ih
      | opensBoth opening => exact congrArg (· + 1) ih
      | duplicates source target => exact ih
      | closes source => exact ih

/-- Each file is opened for a stream. -/
theorem openers_of_opening {number : Nat} {opening : Opening} (start : Nat)
    (opened : (openings wirings)[number]? = some opening) :
    ∃ s, (start + number, opening) ∈ openersFrom s start wirings := by
  induction wirings generalizing start number with
  | nil => cases opened
  | cons wiring rest ih =>
      rw [openings, List.filterMap_cons] at opened
      cases opens : wiring.opened with
      | none =>
          rw [opens] at opened
          obtain ⟨s, member⟩ := ih start opened
          exact ⟨s, by rw [openersFrom, opens]; exact member⟩
      | some other =>
          rw [opens] at opened
          cases number with
          | zero =>
              cases opened
              have served : ∃ s, wiring.serves s = true := by
                cases wiring with
                | opens stream _ => exact ⟨stream, beq_self_eq_true stream⟩
                | opensBoth _ => exact ⟨.stdout, rfl⟩
                | duplicates | closes => cases opens
              obtain ⟨s, serves⟩ := served
              refine ⟨s, ?_⟩
              rw [openersFrom, opens]
              dsimp only
              rw [if_pos serves]
              exact List.mem_cons_self
          | succ number =>
              obtain ⟨s, member⟩ := ih (start + 1) opened
              rw [Nat.add_assoc, Nat.add_comm 1] at member
              refine ⟨s, ?_⟩
              rw [openersFrom, opens]
              dsimp only
              split
              · exact List.mem_cons_of_mem _ member
              · exact member

/-- The files of the table are those opened, and the streams share a sink, or one of them goes
to no file but one that was opened for it. -/
structure Tabled (wirings : List Wiring) : Prop where
  known : ∀ s number opening, (posixTable wirings).sinks s = .file number opening →
    ∃ stream, (number, opening) ∈ openers stream wirings
  own : (posixTable wirings).sinks .stdout = (posixTable wirings).sinks .stderr ∨
    ∃ s, ∀ number opening, (posixTable wirings).sinks s = .file number opening →
      (number, opening) ∈ openers s wirings

theorem FdTable.put_self (table : FdTable) (stream : Stream) (sink : Sink) :
    (table.put stream sink).sinks stream = sink := if_pos rfl

theorem FdTable.put_other {table : FdTable} {stream s : Stream} (sink : Sink)
    (other : s ≠ stream) : (table.put stream sink).sinks s = table.sinks s := if_neg other

theorem tabled (wirings : List Wiring) : Tabled wirings := by
  induction wirings using List.reverseRecOn with
  | nil =>
      refine ⟨fun s number opening file => ?_, Or.inr ⟨.stdout, fun number opening file => ?_⟩⟩
      · cases file
      · cases file
  | append_singleton wirings wiring ih =>
      obtain ⟨known, own⟩ := ih
      have earlier {s : Stream} {entry : Nat × Opening} (member : entry ∈ openers s wirings) :
          entry ∈ openers s (wirings ++ [wiring]) := by
        rw [openers_snoc]
        exact List.mem_append_left _ member
      have added {s : Stream} {opening : Opening} (opens : wiring.opened = some opening)
          (serves : wiring.serves s = true) :
          ((posixTable wirings).opened, opening) ∈ openers s (wirings ++ [wiring]) := by
        rw [openers_snoc, posixTable_opened, openersFrom, opens]
        dsimp only
        rw [if_pos serves]
        exact List.mem_append_right _ List.mem_cons_self
      constructor
      · intro s number opening file
        rw [posixTable_snoc] at file
        have kept (stays : (posixTable wirings).sinks s = .file number opening) :
            ∃ stream, (number, opening) ∈ openers stream (wirings ++ [wiring]) := by
          obtain ⟨stream, member⟩ := known s number opening stays
          exact ⟨stream, earlier member⟩
        cases wiring with
        | opens stream opened =>
            by_cases same : s = stream
            · rw [same] at file
              cases ((posixTable wirings).put_self stream _).symm.trans file
              exact ⟨stream, added rfl (beq_self_eq_true stream)⟩
            · exact kept ((FdTable.put_other _ same).symm.trans file)
        | opensBoth opened =>
            cases file
            exact ⟨.stdout, added rfl rfl⟩
        | duplicates source target =>
            by_cases same : s = source
            · rw [same] at file
              have shares := ((posixTable wirings).put_self source _).symm.trans file
              obtain ⟨stream, member⟩ := known target number opening shares
              exact ⟨stream, earlier member⟩
            · exact kept ((FdTable.put_other _ same).symm.trans file)
        | closes source =>
            by_cases same : s = source
            · rw [same] at file
              cases ((posixTable wirings).put_self source _).symm.trans file
            · exact kept ((FdTable.put_other _ same).symm.trans file)
      · rw [posixTable_snoc]
        cases wiring with
        | opens stream opened =>
            refine Or.inr ⟨stream, fun number opening file => ?_⟩
            cases ((posixTable wirings).put_self stream _).symm.trans file
            exact added rfl (beq_self_eq_true stream)
        | opensBoth opened => exact Or.inl rfl
        | duplicates source target =>
            by_cases same : source = target
            · have kept (s : Stream) : ((posixTable wirings).put source
                  ((posixTable wirings).sinks target)).sinks s = (posixTable wirings).sinks s := by
                by_cases put : s = source
                · rw [put, FdTable.put_self, same]
                · exact FdTable.put_other _ put
              rcases own with shares | ⟨s, own⟩
              · exact Or.inl ((kept .stdout).trans (shares.trans (kept .stderr).symm))
              · refine Or.inr ⟨s, fun number opening file => ?_⟩
                exact earlier (own number opening ((kept s).symm.trans file))
            · have both (s : Stream) : ((posixTable wirings).put source
                  ((posixTable wirings).sinks target)).sinks s =
                    (posixTable wirings).sinks target := by
                by_cases put : s = source
                · rw [put, FdTable.put_self]
                · have other : s = target := by
                    cases s <;> cases source <;> cases target <;> trivial
                  rw [FdTable.put_other _ put, other]
              exact Or.inl ((both .stdout).trans (both .stderr).symm)
        | closes source =>
            refine Or.inr ⟨source, fun number opening file => ?_⟩
            cases ((posixTable wirings).put_self source _).symm.trans file

end Openers

end OddJobs.Shell
