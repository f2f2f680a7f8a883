import Mathlib.Data.List.Basic
import Mathlib.Logic.Function.Basic

/-!
# Volumes that lose power

The files of a directory.  Of a file the synced beginning comes back after a loss of power, and the
directory comes back as it was at some moment since its last sync.  A file that is replaced by
renaming a synced spare one over it is found whole at any time.
-/

namespace OddJobs.Library

structure File where
  bytes : List UInt8
  /-- How many of the bytes have been synced. -/
  synced : Nat

/-- The files by their numbers, and what the names stand for. -/
structure Volume (N : Type) where
  files : Nat → File
  size : Nat
  names : N → Option Nat
  /-- The names before each change since the directory was synced. -/
  earlier : List (N → Option Nat)

namespace Volume

variable {N : Type} (volume : Volume N)

def content (names : N → Option Nat) (name : N) : Option (List UInt8) :=
  (names name).map fun file => (volume.files file).bytes

def read (name : N) : Option (List UInt8) := volume.content volume.names name

def change (name : N) (update : File → File) : Volume N :=
  match volume.names name with
  | none => volume
  | some file =>
      { volume with files := Function.update volume.files file (update (volume.files file)) }

def append (name : N) (bytes : List UInt8) : Volume N :=
  volume.change name fun file => { file with bytes := file.bytes ++ bytes }

def sync (name : N) : Volume N := volume.change name fun file => ⟨file.bytes, file.bytes.length⟩

def syncDir : Volume N := { volume with earlier := [] }

variable [DecidableEq N]

def create (name : N) : Volume N :=
  match volume.names name with
  | some _ => volume.change name fun _ => ⟨[], 0⟩
  | none =>
      { files := Function.update volume.files volume.size ⟨[], 0⟩
        size := volume.size + 1
        names := Function.update volume.names name (some volume.size)
        earlier := volume.names :: volume.earlier }

def rename (source target : N) : Volume N :=
  match volume.names source with
  | none => volume
  | some file =>
      { volume with
        names := Function.update (Function.update volume.names target (some file)) source none
        earlier := volume.names :: volume.earlier }

omit [DecidableEq N]

def Synced (name : N) : Prop := ∀ file, volume.names name = some file →
  (volume.files file).synced = (volume.files file).bytes.length

theorem read_change (name : N) (update : File → File) :
    (volume.change name update).read name =
      (volume.names name).map fun file => (update (volume.files file)).bytes := by
  unfold change read content
  cases named : volume.names name <;> simp [named]

theorem read_append (name : N) (bytes : List UInt8) :
    (volume.append name bytes).read name = (volume.read name).map (· ++ bytes) := by
  rw [append, read_change, read, content, Option.map_map]
  rfl

theorem read_sync (name : N) : (volume.sync name).read name = volume.read name :=
  volume.read_change name _

theorem synced_sync (name : N) : (volume.sync name).Synced name := by
  unfold Synced sync change
  intro file
  cases named : volume.names name <;> simp_all

theorem read_create [DecidableEq N] (name : N) : (volume.create name).read name = some [] := by
  unfold create
  cases named : volume.names name with
  | none => simp [read, content]
  | some file => exact (volume.read_change name _).trans (by rw [named]; rfl)

theorem read_rename [DecidableEq N] {source target : N} (other : target ≠ source)
    {bytes : List UInt8} (found : volume.read source = some bytes) :
    (volume.rename source target).read target = volume.read source := by
  unfold rename
  cases named : volume.names source <;> simp_all [read, content]

structure LosesPower (after : Volume N) : Prop where
  names : after.names ∈ volume.names :: volume.earlier
  earlier : after.earlier = []
  size : after.size = volume.size
  files : ∀ file, ∃ tail : List UInt8,
    (after.files file).bytes = (volume.files file).bytes.take (volume.files file).synced ++ tail ∧
      tail.length ≤ (volume.files file).bytes.length - (volume.files file).synced
  synced : ∀ file, (after.files file).synced = (after.files file).bytes.length

/-- Whenever power is lost, a name has good contents, synced where there are any.  Its file is not
the one that the spare name has. -/
structure Keeps (home spare : N) (good : Option (List UInt8) → Prop) : Prop where
  good : ∀ names ∈ volume.names :: volume.earlier, good (volume.content names home)
  synced : ∀ names ∈ volume.names :: volume.earlier, ∀ file, names home = some file →
    (volume.files file).synced = (volume.files file).bytes.length
  bounded : ∀ names ∈ volume.names :: volume.earlier, ∀ name file, names name = some file →
    file < volume.size
  apart : ∀ names ∈ volume.names :: volume.earlier, ∀ file, names home = some file →
    names spare ≠ some file ∧ volume.names spare ≠ some file

variable {volume} {home spare : N} {good better : Option (List UInt8) → Prop}

/-- Good contents are there before and after a loss of power. -/
theorem Keeps.read (keeps : volume.Keeps home spare good) : good (volume.read home) :=
  keeps.good _ List.mem_cons_self

theorem Keeps.weaken (keeps : volume.Keeps home spare good)
    (weaker : ∀ names ∈ volume.names :: volume.earlier,
      good (volume.content names home) → better (volume.content names home)) :
    volume.Keeps home spare better where
  good names member := weaker names member (keeps.good names member)
  synced := keeps.synced
  bounded := keeps.bounded
  apart := keeps.apart

/-- A volume with the same files behind the name. -/
theorem Keeps.onto {after : Volume N} (keeps : volume.Keeps home spare good)
    (files : ∀ file < volume.size, volume.names spare ≠ some file →
      after.files file = volume.files file)
    (bounded : ∀ names ∈ after.names :: after.earlier, ∀ name file, names name = some file →
      file < after.size)
    (names : ∀ names ∈ after.names :: after.earlier, ∃ old ∈ volume.names :: volume.earlier,
      names home = old home ∧ (names spare = old spare ∨ names spare = after.names spare))
    (spares : ∀ file < volume.size, after.names spare = some file →
      volume.names spare = some file) : after.Keeps home spare good := by
  have same : ∀ old ∈ volume.names :: volume.earlier, ∀ file, old home = some file →
      after.files file = volume.files file := fun old member file found =>
    files file (keeps.bounded old member home file found) (keeps.apart old member file found).2
  refine ⟨fun new member => ?_, fun new member file found => ?_, bounded,
    fun new member file found => ?_⟩
  · obtain ⟨old, was, homes, _⟩ := names new member
    have content : after.content new home = volume.content old home := by
      unfold Volume.content
      rw [homes]
      exact Option.map_congr fun file found => congrArg File.bytes (same old was file found)
    rw [content]
    exact keeps.good old was
  · obtain ⟨old, was, homes, _⟩ := names new member
    rw [homes] at found
    rw [same old was file found]
    exact keeps.synced old was file found
  · obtain ⟨old, was, homes, which⟩ := names new member
    rw [homes] at found
    obtain ⟨past, present⟩ := keeps.apart old was file found
    have apart : after.names spare ≠ some file := fun spared =>
      present (spares file (keeps.bounded old was home file found) spared)
    rcases which with same | same <;> exact ⟨by rwa [same], apart⟩

/-- A change of the spare file. -/
theorem Keeps.change (keeps : volume.Keeps home spare good) (update : File → File) :
    (volume.change spare update).Keeps home spare good := by
  unfold Volume.change
  cases spared : volume.names spare with
  | none => exact keeps
  | some spareFile =>
      refine keeps.onto (fun file _ other => Function.update_of_ne ?_ _ _) keeps.bounded
        (fun names member => ⟨names, member, rfl, .inl rfl⟩) fun file _ found => found
      rintro rfl
      exact other spared

theorem Keeps.append (keeps : volume.Keeps home spare good) (bytes : List UInt8) :
    (volume.append spare bytes).Keeps home spare good := keeps.change _

theorem Keeps.sync (keeps : volume.Keeps home spare good) :
    (volume.sync spare).Keeps home spare good := keeps.change _

theorem Keeps.syncDir (keeps : volume.Keeps home spare good) :
    volume.syncDir.Keeps home spare good := by
  have first : ∀ names ∈ [volume.names], names ∈ volume.names :: volume.earlier :=
    fun names member => List.mem_singleton.mp member ▸ List.mem_cons_self
  exact keeps.onto (fun file _ _ => rfl)
    (fun names member => keeps.bounded names (first names member))
    (fun names member => ⟨names, first names member, rfl, .inl rfl⟩) fun file _ found => found

/-- What was kept is found after a loss of power. -/
theorem Keeps.losesPower {after : Volume N} (keeps : volume.Keeps home spare good)
    (lost : volume.LosesPower after) : after.Keeps home spare good := by
  have found : ∀ names ∈ after.names :: after.earlier, names = after.names := by
    intro names member
    rw [lost.earlier] at member
    exact List.mem_singleton.mp member
  have whole : ∀ file, after.names home = some file →
      (after.files file).bytes = (volume.files file).bytes := by
    intro file named
    obtain ⟨tail, bytes, short⟩ := lost.files file
    have synced := keeps.synced _ lost.names file named
    rw [synced, Nat.sub_self, Nat.le_zero, List.length_eq_zero_iff] at short
    rw [bytes, short, synced, List.take_length, List.append_nil]
  have same : after.content after.names home = volume.content after.names home :=
    Option.map_congr whole
  refine ⟨fun names member => ?_, fun names member file _ => lost.synced file,
    fun names member name file named => ?_, fun names member file named => ?_⟩
  · rw [found names member, same]
    exact keeps.good _ lost.names
  · rw [found names member] at named
    rw [lost.size]
    exact keeps.bounded _ lost.names name file named
  · rw [found names member] at named ⊢
    have apart := (keeps.apart _ lost.names file named).1
    exact ⟨apart, apart⟩

variable [DecidableEq N]

theorem Keeps.create (keeps : volume.Keeps home spare good) (other : home ≠ spare) :
    (volume.create spare).Keeps home spare good := by
  unfold Volume.create
  cases spared : volume.names spare with
  | some file => exact keeps.change _
  | none =>
      let named := Function.update volume.names spare (some volume.size)
      have taken : named spare = some volume.size := Function.update_self _ _ _
      refine keeps.onto (fun file below _ => Function.update_of_ne (Nat.ne_of_lt below) _ _)
        (fun names member name file found => ?_) (fun names member => ?_)
        fun file below found => ?_
      · rcases List.mem_cons.mp member with rfl | member
        · change named name = some file at found
          by_cases spares : name = spare
          · rw [spares, taken] at found
            cases found
            exact Nat.lt_succ_self _
          · unfold named at found
            rw [Function.update_of_ne spares] at found
            exact Nat.lt_succ_of_lt (keeps.bounded _ List.mem_cons_self name file found)
        · exact Nat.lt_succ_of_lt (keeps.bounded names member name file found)
      · rcases List.mem_cons.mp member with rfl | member
        · exact ⟨_, List.mem_cons_self, Function.update_of_ne other _ _, .inr rfl⟩
        · exact ⟨names, member, rfl, .inl rfl⟩
      · cases taken.symm.trans found
        exact absurd below (Nat.lt_irrefl _)

/-- The spare file takes the place of the other one once it is synced and good. -/
theorem Keeps.rename (keeps : volume.Keeps home spare good) (other : home ≠ spare)
    (ready : ∀ file, volume.names spare = some file →
      (volume.files file).synced = (volume.files file).bytes.length ∧
        good (some (volume.files file).bytes)) :
    (volume.rename spare home).Keeps home spare good := by
  unfold Volume.rename
  cases spared : volume.names spare with
  | none => exact keeps
  | some spareFile =>
      dsimp only
      obtain ⟨synced, fits⟩ := ready spareFile spared
      let named := Function.update (Function.update volume.names home (some spareFile)) spare none
      have own : named home = some spareFile :=
        (Function.update_of_ne other _ _).trans (Function.update_self _ _ _)
      have gone : named spare = none := Function.update_self _ _ _
      refine ⟨fun names member => ?_, fun names member file found => ?_,
        fun names member name file found => ?_, fun names member file found => ?_⟩
      · rcases List.mem_cons.mp member with rfl | member
        · change good ((named home).map _)
          rwa [own]
        · exact keeps.good names member
      · rcases List.mem_cons.mp member with rfl | member
        · cases own.symm.trans found
          exact synced
        · exact keeps.synced names member file found
      · rcases List.mem_cons.mp member with rfl | member
        · change named name = some file at found
          by_cases spares : name = spare
          · rw [spares, gone] at found
            cases found
          · by_cases homes : name = home
            · rw [homes, own] at found
              cases found
              exact keeps.bounded _ List.mem_cons_self spare _ spared
            · unfold named at found
              rw [Function.update_of_ne spares, Function.update_of_ne homes] at found
              exact keeps.bounded _ List.mem_cons_self name file found
        · exact keeps.bounded names member name file found
      · have free : named spare ≠ some file := by
          rw [gone]
          exact (Option.some_ne_none _).symm
        rcases List.mem_cons.mp member with rfl | member
        · exact ⟨free, free⟩
        · exact ⟨(keeps.apart names member file found).1, free⟩

end Volume

end OddJobs.Library
