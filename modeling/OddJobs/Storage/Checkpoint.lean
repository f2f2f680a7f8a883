import OddJobs.Library.Volume

/-!
# Checkpoints

A snapshot is written to a spare file, which is synced and renamed over the last snapshot.  Only
when the directory has been synced is the log truncated.  Any of this may fail, and power may be
lost at any moment.
-/

namespace OddJobs

open Library

def CURRENT_SNAPSHOT_VERSION : Nat := 1

structure Snapshot (State : Type) where
  version : Nat
  seq : Nat
  state : State
  createdAt : String

inductive SnapshotError where
  | io
  | json
  | noPath (version target : Nat)
  | tooNew (version supported : Nat)

/-- What serde and zstd make of a snapshot and of a file. -/
structure SnapshotCodec (State Value : Type) where
  encode : Snapshot State → Option (List UInt8)
  parse : List UInt8 → Except SnapshotError Value
  version : Value → Nat
  fromValue : Value → Except SnapshotError (Snapshot State)

inductive SnapshotFile where
  | path
  | tmp
  deriving DecidableEq

inductive CheckpointIo where
  | create
  | write (bytes : List UInt8)
  | fsyncFile
  | rename
  | fsyncDir

def CheckpointIo.carryOut : CheckpointIo → Volume SnapshotFile → Volume SnapshotFile
  | create, volume => volume.create .tmp
  | write bytes, volume => volume.append .tmp bytes
  | fsyncFile, volume => volume.sync .tmp
  | rename, volume => volume.rename .tmp .path
  | fsyncDir, volume => volume.syncDir

/-- What `checkpoint_blocking` does with the compressed snapshot. -/
def checkpointBlocking (compressed : List UInt8) : List CheckpointIo :=
  [.create, .write compressed, .fsyncFile, .rename, .fsyncDir]

namespace SnapshotCodec

variable {State Value : Type} (codec : SnapshotCodec State Value)

/-- `migrate_to` of a registry without migrations. -/
def migrateTo (value : Value) (target : Nat) : Except SnapshotError Value :=
  if codec.version value = target then pure value
  else if target < codec.version value then throw (.tooNew (codec.version value) target)
  else throw (.noPath (codec.version value) target)

def load : Option (List UInt8) → Except SnapshotError (Option (Snapshot State))
  | none => pure none
  | some bytes => do
      let value ← codec.parse bytes
      let migrated ← codec.migrateTo value CURRENT_SNAPSHOT_VERSION
      return some (← codec.fromValue migrated)

def loadSnapshot (volume : Volume SnapshotFile) : Except SnapshotError (Option (Snapshot State)) :=
  codec.load (volume.read .path)

/-- What was written is read back. -/
def Lawful : Prop := ∀ snapshot bytes, codec.encode snapshot = some bytes →
  ∃ value, codec.parse bytes = .ok value ∧ codec.version value = snapshot.version ∧
    codec.fromValue value = .ok snapshot

end SnapshotCodec

/-- A checkpoint under way, with what remains to be done. -/
structure Checkpointing where
  seq : Nat
  todo : List CheckpointIo

/-- The files, the number of the last processed entry with the state it has left, and how far the
log has been truncated. -/
structure Storage (State : Type) where
  volume : Volume SnapshotFile
  processed : Nat
  state : State
  truncated : Nat
  running : Option Checkpointing
  /-- The snapshots that have been taken. -/
  taken : List (Snapshot State)

namespace Storage

variable {State Value : Type} (codec : SnapshotCodec State Value)

def new (state : State) : Storage State :=
  ⟨⟨fun _ => ⟨[], 0⟩, 0, fun _ => none, []⟩, 0, state, 0, none, []⟩

inductive Step (storage : Storage State) : Storage State → Prop where
  | process {seq : Nat} (later : storage.processed ≤ seq) (state : State) :
      Step storage { storage with processed := seq, state }
  /-- The checkpoint task takes a snapshot, unless nothing has been processed. -/
  | start {createdAt : String} {compressed : List UInt8} (idle : storage.running = none)
      (processed : storage.processed ≠ 0)
      (encoded : codec.encode ⟨CURRENT_SNAPSHOT_VERSION, storage.processed, storage.state,
        createdAt⟩ = some compressed) :
      Step storage { storage with
        running := some ⟨storage.processed, checkpointBlocking compressed⟩
        taken := ⟨CURRENT_SNAPSHOT_VERSION, storage.processed, storage.state, createdAt⟩ ::
          storage.taken }
  | io {seq : Nat} {io : CheckpointIo} {rest : List CheckpointIo}
      (running : storage.running = some ⟨seq, io :: rest⟩) :
      Step storage { storage with
        volume := io.carryOut storage.volume
        running := some ⟨seq, rest⟩ }
  /-- A write that has written some of the bytes. -/
  | part {seq : Nat} {front back : List UInt8} {rest : List CheckpointIo}
      (running : storage.running = some ⟨seq, .write (front ++ back) :: rest⟩) :
      Step storage { storage with
        volume := (CheckpointIo.write front).carryOut storage.volume
        running := some ⟨seq, .write back :: rest⟩ }
  | fail : Step storage { storage with running := none }
  | truncate {seq : Nat} (running : storage.running = some ⟨seq, []⟩) :
      Step storage { storage with truncated := max storage.truncated seq, running := none }
  /-- The daemon starts again, and power may have been lost. -/
  | restart {volume : Volume SnapshotFile} {found : Option (Snapshot State)} (state : State)
      (left : volume = storage.volume ∨ storage.volume.LosesPower volume)
      (loaded : codec.loadSnapshot volume = .ok found) :
      Step storage { storage with
        volume
        processed := (found.map Snapshot.seq).getD 0
        state := (found.map Snapshot.state).getD state
        running := none }

inductive Reaches (state : State) : Storage State → Prop where
  | new : Reaches state (new state)
  | step {storage after : Storage State} (reached : Reaches state storage)
      (step : storage.Step codec after) : Reaches state after

/-- The contents are a snapshot that was taken, and the log still has what comes after it. -/
def Covers (storage : Storage State) (content : Option (List UInt8)) : Prop :=
  ∃ found, codec.load content = .ok found ∧ (∀ snapshot ∈ found, snapshot ∈ storage.taken) ∧
    storage.truncated ≤ (found.map Snapshot.seq).getD 0

/-- How far the files have come. -/
inductive Stage (volume : Volume SnapshotFile) (compressed : List UInt8) :
    List CheckpointIo → Prop where
  | start : Stage volume compressed (checkpointBlocking compressed)
  | writing {front rest : List UInt8} (written : volume.read .tmp = some front)
      (whole : front ++ rest = compressed) :
      Stage volume compressed [.write rest, .fsyncFile, .rename, .fsyncDir]
  | written (written : volume.read .tmp = some compressed) :
      Stage volume compressed [.fsyncFile, .rename, .fsyncDir]
  | synced (written : volume.read .tmp = some compressed) (synced : volume.Synced .tmp) :
      Stage volume compressed [.rename, .fsyncDir]
  | renamed (renamed : volume.read .path = some compressed) : Stage volume compressed [.fsyncDir]
  | durable (renamed : volume.read .path = some compressed) (settled : volume.earlier = []) :
      Stage volume compressed []

structure Sound (storage : Storage State) : Prop where
  keeps : storage.volume.Keeps .path .tmp (storage.Covers codec)
  processed : storage.truncated ≤ storage.processed
  running : ∀ seq todo, storage.running = some ⟨seq, todo⟩ →
    (storage.truncated ≤ seq ∧ seq ≤ storage.processed) ∧
      ∃ snapshot ∈ storage.taken, snapshot.version = CURRENT_SNAPSHOT_VERSION ∧ snapshot.seq = seq ∧
        ∃ compressed, codec.encode snapshot = some compressed ∧ Stage storage.volume compressed todo

variable {codec}

theorem load_taken (lawful : codec.Lawful) {snapshot : Snapshot State} {compressed : List UInt8}
    (current : snapshot.version = CURRENT_SNAPSHOT_VERSION)
    (encoded : codec.encode snapshot = some compressed) :
    codec.load (some compressed) = .ok (some snapshot) := by
  obtain ⟨value, parsed, version, typed⟩ := lawful snapshot compressed encoded
  have migrated : codec.migrateTo value CURRENT_SNAPSHOT_VERSION = .ok value :=
    if_pos (version.trans current)
  simp only [SnapshotCodec.load, parsed, migrated, typed, bind, Except.bind, pure, Except.pure]

/-- One operation brings the files from one stage to the next. -/
theorem Stage.next {volume : Volume SnapshotFile} {compressed : List UInt8} {io : CheckpointIo}
    {rest : List CheckpointIo} (stage : Stage volume compressed (io :: rest)) :
    Stage (io.carryOut volume) compressed rest := by
  cases stage with
  | start => exact .writing (volume.read_create .tmp) rfl
  | @writing _ rest written whole =>
      have appended := volume.read_append .tmp rest
      rw [written] at appended
      exact .written (appended.trans (congrArg some whole))
  | written written => exact .synced ((volume.read_sync .tmp).trans written) (volume.synced_sync _)
  | synced written => exact .renamed ((volume.read_rename (by decide) written).trans written)
  | renamed renamed => exact .durable renamed rfl

/-- An operation loses no snapshot. -/
theorem keeps_io {storage : Storage State} (lawful : codec.Lawful)
    (keeps : storage.volume.Keeps .path .tmp (storage.Covers codec)) {snapshot : Snapshot State}
    (taken : snapshot ∈ storage.taken) (current : snapshot.version = CURRENT_SNAPSHOT_VERSION)
    (later : storage.truncated ≤ snapshot.seq) {compressed : List UInt8}
    (encoded : codec.encode snapshot = some compressed) {io : CheckpointIo}
    {rest : List CheckpointIo} (stage : Stage storage.volume compressed (io :: rest)) :
    (io.carryOut storage.volume).Keeps .path .tmp (storage.Covers codec) := by
  cases stage with
  | start => exact keeps.create (by decide)
  | writing => exact keeps.append _
  | written => exact keeps.sync
  | synced written synced =>
      refine keeps.rename (by decide) fun file named => ⟨synced file named, ?_⟩
      have bytes : (storage.volume.files file).bytes = compressed := by
        unfold Volume.read Volume.content at written
        rw [named] at written
        exact Option.some.inj written
      rw [bytes]
      exact ⟨some snapshot, load_taken lawful current encoded,
        fun other same => Option.some.inj same ▸ taken, later⟩
  | renamed => exact keeps.syncDir

theorem Sound.step (lawful : codec.Lawful) {storage after : Storage State}
    (sound : storage.Sound codec) (step : storage.Step codec after) : after.Sound codec := by
  cases step with
  | process later state =>
      refine ⟨sound.keeps, Nat.le_trans sound.processed later, fun seq todo running => ?_⟩
      obtain ⟨⟨above, below⟩, stage⟩ := sound.running seq todo running
      exact ⟨⟨above, Nat.le_trans below later⟩, stage⟩
  | start idle processed encoded =>
      refine ⟨sound.keeps.weaken fun _ _ covers => ?_, sound.processed, ?_⟩
      · obtain ⟨found, loaded, taken, later⟩ := covers
        exact ⟨found, loaded, fun snapshot member => .tail _ (taken snapshot member), later⟩
      · rintro _ _ ⟨⟩
        exact ⟨⟨sound.processed, Nat.le_refl _⟩, _, .head _, rfl, rfl, _, encoded, .start⟩
  | io running =>
      obtain ⟨later, snapshot, taken, current, same, compressed, encoded, stage⟩ :=
        sound.running _ _ running
      refine ⟨keeps_io lawful sound.keeps taken current (same ▸ later.1) encoded stage,
        sound.processed, ?_⟩
      rintro _ _ ⟨⟩
      exact ⟨later, snapshot, taken, current, same, compressed, encoded, stage.next⟩
  | @part _ front _ _ running =>
      obtain ⟨later, snapshot, taken, current, same, compressed, encoded, stage⟩ :=
        sound.running _ _ running
      refine ⟨sound.keeps.append _, sound.processed, ?_⟩
      rintro _ _ ⟨⟩
      refine ⟨later, snapshot, taken, current, same, compressed, encoded, ?_⟩
      cases stage with
      | writing written whole =>
          have appended := storage.volume.read_append .tmp front
          rw [written] at appended
          exact .writing appended (by rw [List.append_assoc]; exact whole)
  | fail => exact ⟨sound.keeps, sound.processed, fun _ _ running => by cases running⟩
  | truncate running =>
      obtain ⟨later, snapshot, taken, current, rfl, compressed, encoded, stage⟩ :=
        sound.running _ _ running
      refine ⟨sound.keeps.weaken fun names member _ => ?_,
        Nat.max_le.mpr ⟨sound.processed, later.2⟩, fun _ _ running => by cases running⟩
      cases stage with
      | durable renamed settled =>
          rw [settled] at member
          rw [List.mem_singleton.mp member]
          change storage.volume.content storage.volume.names .path = _ at renamed
          rw [renamed]
          exact ⟨some snapshot, load_taken lawful current encoded,
            fun other same => Option.some.inj same ▸ taken, Nat.max_le.mpr ⟨later.1, Nat.le_refl _⟩⟩
  | @restart volume found state left loaded =>
      have keeps : volume.Keeps .path .tmp (storage.Covers codec) := by
        rcases left with rfl | lost
        · exact sound.keeps
        · exact sound.keeps.losesPower lost
      obtain ⟨_, read, _, later⟩ := keeps.read
      cases loaded.symm.trans read
      exact ⟨keeps, later, fun _ _ running => by cases running⟩

theorem Reaches.sound (lawful : codec.Lawful) {state : State} {storage : Storage State}
    (reached : Reaches codec state storage) : storage.Sound codec := by
  induction reached with
  | new =>
      have empty : ∀ names ∈ [fun _ : SnapshotFile => (none : Option Nat)], ∀ name,
          names name = none := fun names member name => by rw [List.mem_singleton.mp member]
      refine ⟨⟨fun names member => ?_, ?_, ?_, ?_⟩, Nat.le_refl _,
        fun _ _ running => by cases running⟩
      · unfold Volume.content
        rw [empty names member]
        exact ⟨none, rfl, fun _ found => (by cases found), Nat.le_refl _⟩
      · exact fun names member file found => by cases (empty names member _).symm.trans found
      · exact fun names member _ file found => by cases (empty names member _).symm.trans found
      · exact fun names member file found => by cases (empty names member _).symm.trans found
  | step _ step ih => exact ih.step lawful step

/-- Whenever power is lost, a snapshot is found that was taken, and whole; the log has been
truncated up to it at most. -/
theorem snapshot_survives (lawful : codec.Lawful) {state : State} {storage : Storage State}
    (reached : Reaches codec state storage) {volume : Volume SnapshotFile}
    (lost : storage.volume.LosesPower volume) :
    ∃ found, codec.loadSnapshot volume = .ok found ∧
      (∀ snapshot ∈ found, snapshot ∈ storage.taken) ∧
      storage.truncated ≤ (found.map Snapshot.seq).getD 0 :=
  ((reached.sound lawful).keeps.losesPower lost).read

section Example

def sevenSnapshot : Snapshot Unit := ⟨CURRENT_SNAPSHOT_VERSION, 7, (), ""⟩

def sevenCodec : SnapshotCodec Unit Unit where
  encode snapshot :=
    if (snapshot.version, snapshot.seq, snapshot.createdAt) = (CURRENT_SNAPSHOT_VERSION, 7, "") then
      some [7]
    else none
  parse _ := .ok ()
  version _ := CURRENT_SNAPSHOT_VERSION
  fromValue _ := .ok sevenSnapshot

theorem sevenCodec_lawful : sevenCodec.Lawful := by
  rintro ⟨version, seq, state, createdAt⟩ bytes encoded
  obtain ⟨same, -⟩ := Option.ite_none_right_eq_some.mp encoded
  cases same
  exact ⟨(), rfl, rfl, rfl⟩

def sevenStorage : Storage Unit where
  volume := (checkpointBlocking [7]).foldl (fun volume io => io.carryOut volume) (new ()).volume
  processed := 7
  state := ()
  truncated := 7
  running := none
  taken := [sevenSnapshot]

theorem sevenStorage_reached : Reaches sevenCodec () sevenStorage := by
  have processed : Reaches sevenCodec () { new () with processed := 7 } :=
    .step .new (.process (Nat.zero_le 7) ())
  have encoded : sevenCodec.encode ⟨CURRENT_SNAPSHOT_VERSION, 7, (), ""⟩ = some [7] := rfl
  have started := processed.step (.start rfl (by decide) encoded)
  have synced := ((started.step (.io rfl)).step (.io rfl)).step (.io rfl)
  have done := (synced.step (.io rfl)).step (.io rfl)
  exact done.step (.truncate rfl)

/-- All is synced, so that nothing is lost. -/
theorem sevenStorage_losesPower : sevenStorage.volume.LosesPower sevenStorage.volume := by
  refine ⟨.head _, rfl, rfl, fun file => ⟨[], ?_, Nat.zero_le _⟩, fun file => ?_⟩ <;>
  · by_cases first : file = 0
    · subst first
      rfl
    · have other : sevenStorage.volume.files file = ⟨[], 0⟩ := by
        simp [sevenStorage, checkpointBlocking, CheckpointIo.carryOut, Volume.create, Volume.append,
          Volume.sync, Volume.rename, Volume.syncDir, Volume.change, new, first]
      rw [other]
      rfl

theorem snapshot_survives_seven :
    ∃ found, sevenCodec.loadSnapshot sevenStorage.volume = .ok found ∧
      (∀ snapshot ∈ found, snapshot ∈ sevenStorage.taken) ∧
      sevenStorage.truncated ≤ (found.map Snapshot.seq).getD 0 :=
  snapshot_survives sevenCodec_lawful sevenStorage_reached sevenStorage_losesPower

end Example

end Storage

end OddJobs
