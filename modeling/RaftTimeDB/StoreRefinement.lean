import RaftTimeDB.JsonFormats
import RaftTimeDB.LogStore

/-!
# The two log stores

The in-memory log store of `crates/proxy/src/raft/log_store.rs`, the data directory in which
`PersistentLogStore::new` opens the database of a shard, and the comparison of the two stores.

* `BTreeMap<u64, Entry>` is a `Table` of entries; the persistent store keeps a `Table` of their texts.
* `BTreeMap::range` panics on a range that is not well formed, so `IndexRange` carries its
  well-formedness.
* `new` moves a legacy database to the directory of shard 0, opens the file or creates an empty one,
  and makes sure that its tables exist.  The handle is the file: what a transaction commits is what
  the next `new` finds.

Principal result: `persistent_refines_memory` — every sequence of calls, with the persistent store
closed and reopened anywhere in between, gets the same answers from both stores.
-/

set_option autoImplicit false

namespace RaftTimeDB

/-! ## Ranges -/

/-- `std::ops::Bound<u64>`. -/
inductive Bound where
  | included (k : Nat)
  | excluded (k : Nat)
  | unbounded
  deriving DecidableEq, Repr

/-- The start is not after the end, and the two do not both exclude the same index. -/
def Bound.WellFormed : Bound → Bound → Prop
  | .unbounded, _ => True
  | _, .unbounded => True
  | .excluded a, .excluded b => a < b
  | .included a, .included b => a ≤ b
  | .included a, .excluded b => a ≤ b
  | .excluded a, .included b => a ≤ b

/-- A range argument (`RangeBounds<u64>`) that `BTreeMap::range` accepts. -/
structure IndexRange where
  start : Bound
  stop : Bound
  wellFormed : start.WellFormed stop

def IndexRange.contains (range : IndexRange) (k : Nat) : Bool :=
  (match range.start with
    | .included a => decide (a ≤ k)
    | .excluded a => decide (a < k)
    | .unbounded => true) &&
  (match range.stop with
    | .included b => decide (k ≤ b)
    | .excluded b => decide (k < b)
    | .unbounded => true)

/-! ## The in-memory store -/

structure LogStore where
  vote : Option Vote
  log : Table Entry
  lastPurged : Option LogId

namespace LogStore

def new : LogStore := ⟨none, Table.empty, none⟩

def tryGetLogEntries (store : LogStore) (range : IndexRange) :
    Except StorageError (List Entry) :=
  .ok (store.log.range range.contains)

def getLogState (store : LogStore) : Except StorageError LogState :=
  .ok ⟨store.lastPurged, store.log.last.map fun r => r.2.logId⟩

def saveVote (store : LogStore) (vote : Vote) : LogStore := { store with vote := some vote }

def readVote (store : LogStore) : Except StorageError (Option Vote) := .ok store.vote

def append (store : LogStore) (entries : List Entry) : LogStore :=
  { store with log := entries.foldl (fun t e => t.insert e.logId.index e) store.log }

def truncate (store : LogStore) (logId : LogId) : LogStore :=
  let toRemove := store.log.keys fun k => decide (logId.index ≤ k)
  { store with log := store.log.removeAll toRemove }

def purge (store : LogStore) (logId : LogId) : LogStore :=
  let toRemove := store.log.keys fun k => decide (k ≤ logId.index)
  { store with
    log := store.log.removeAll toRemove
    lastPurged := some logId }

end LogStore

/-! ## The data directory -/

/-- The databases in a data directory: the legacy file `raft-log.redb` and one file
`shard-{id}/raft-log.redb` per shard. -/
structure DataDir where
  legacy : Option PersistentLogStore
  file : ShardId → Option PersistentLogStore

namespace DataDir

def setFile (dir : DataDir) (s : ShardId) (store : PersistentLogStore) : DataDir :=
  { dir with file := Function.update dir.file s (some store) }

/-- The migration at the start of `PersistentLogStore::new`: for shard 0, a legacy file is moved to
the shard's directory unless there is a file already. -/
def migrate (dir : DataDir) (s : ShardId) : DataDir :=
  match dir.legacy with
  | some store =>
      if s = 0 ∧ dir.file s = none then { dir.setFile s store with legacy := none } else dir
  | none => dir

/-- `PersistentLogStore::new`: the directory afterwards and the opened store. -/
def openStore (dir : DataDir) (s : ShardId) : DataDir × PersistentLogStore :=
  let dir := dir.migrate s
  match dir.file s with
  | some store => (dir, store)
  | none => (dir.setFile s PersistentLogStore.new, PersistentLogStore.new)

/-- There is no database for the shard yet, not even a legacy one. -/
structure Fresh (dir : DataDir) (s : ShardId) : Prop where
  file : dir.file s = none
  legacy : s = 0 → dir.legacy = none

theorem migrate_of_file {dir : DataDir} {s : ShardId} {store : PersistentLogStore}
    (h : dir.file s = some store) : dir.migrate s = dir := by
  unfold migrate
  split
  · rw [if_neg]
    rintro ⟨_, hnone⟩
    rw [h] at hnone
    cases hnone
  · rfl

/-- **Reopening** finds what was committed and changes nothing. -/
theorem openStore_of_file {dir : DataDir} {s : ShardId} {store : PersistentLogStore}
    (h : dir.file s = some store) : dir.openStore s = (dir, store) := by
  simp only [openStore, migrate_of_file h, h]

theorem openStore_of_fresh {dir : DataDir} {s : ShardId} (h : dir.Fresh s) :
    dir.openStore s = (dir.setFile s PersistentLogStore.new, PersistentLogStore.new) := by
  have hmigrate : dir.migrate s = dir := by
    unfold migrate
    split
    · rename_i store hlegacy
      rw [if_neg]
      rintro ⟨rfl, _⟩
      rw [h.legacy rfl] at hlegacy
      cases hlegacy
    · rfl
  simp only [openStore, hmigrate, h.file]

@[simp] theorem setFile_file (dir : DataDir) (s : ShardId) (store : PersistentLogStore) :
    (dir.setFile s store).file s = some store := by
  simp [setFile]

end DataDir

/-! ## Calls and answers -/

/-- A call that changes the store. -/
inductive StoreOp where
  | append (entries : List Entry)
  | truncate (logId : LogId)
  | purge (logId : LogId)
  | saveVote (vote : Vote)
  deriving DecidableEq

/-- A call of the `RaftLogReader` and `RaftLogStorage` traits, or closing the store and opening it
again. -/
inductive StoreCall where
  | op (op : StoreOp)
  | readVote
  | getLogState
  | tryGetLogEntries (range : IndexRange)
  | reopen

/-- What a reading call returns. -/
inductive StoreAnswer where
  | vote (result : Except StorageError (Option Vote))
  | logState (result : Except StorageError LogState)
  | entries (result : Except StorageError (List Entry))

def PersistentLogStore.run (D : LogJson) (store : PersistentLogStore) : StoreOp → PersistentLogStore
  | .append entries => store.append D entries
  | .truncate logId => store.truncate logId
  | .purge logId => store.purge D logId
  | .saveVote vote => store.saveVote D vote

namespace LogStore

def run (store : LogStore) : StoreOp → LogStore
  | .append entries => store.append entries
  | .truncate logId => store.truncate logId
  | .purge logId => store.purge logId
  | .saveVote vote => store.saveVote vote

/-- The store after a call.  It lives in memory and is never reopened. -/
def after (store : LogStore) : StoreCall → LogStore
  | .op op => store.run op
  | _ => store

def answer? (store : LogStore) : StoreCall → Option StoreAnswer
  | .readVote => some (.vote store.readVote)
  | .getLogState => some (.logState store.getLogState)
  | .tryGetLogEntries range => some (.entries (store.tryGetLogEntries range))
  | _ => none

/-- The answers to a sequence of calls. -/
def answers (store : LogStore) : List StoreCall → List StoreAnswer
  | [] => []
  | call :: calls => (store.answer? call).toList ++ (store.after call).answers calls

end LogStore

/-- The persistent store of a shard: its data directory and the open handle. -/
structure OpenStore where
  dir : DataDir
  store : PersistentLogStore

namespace OpenStore

def openAt (dir : DataDir) (s : ShardId) : OpenStore := ⟨(dir.openStore s).1, (dir.openStore s).2⟩

/-- A transaction commits: the file holds what the handle shows. -/
def commit (db : OpenStore) (s : ShardId) (store : PersistentLogStore) : OpenStore :=
  ⟨db.dir.setFile s store, store⟩

variable (D : LogJson) (s : ShardId)

def after (db : OpenStore) : StoreCall → OpenStore
  | .op op => db.commit s (db.store.run D op)
  | .reopen => openAt db.dir s
  | _ => db

def answer? (db : OpenStore) : StoreCall → Option StoreAnswer
  | .readVote => some (.vote (db.store.readVote D))
  | .getLogState => some (.logState (db.store.getLogState D))
  | .tryGetLogEntries range => some (.entries (db.store.tryGetLogEntries D range.contains))
  | _ => none

def answers (db : OpenStore) : List StoreCall → List StoreAnswer
  | [] => []
  | call :: calls => (db.answer? D call).toList ++ (db.after D s call).answers calls

end OpenStore

/-! ## Simulation -/

/-- The persistent store holds the texts of what the in-memory store holds. -/
structure Represents (D : LogJson) (store : PersistentLogStore) (mem : LogStore) : Prop where
  log : store.logTable = mem.log.map D.entryToVec
  vote : store.metaTable.lookup META_VOTE = mem.vote.map D.voteToVec
  lastPurged : store.metaTable.lookup META_LAST_PURGED = mem.lastPurged.map D.logIdToVec

namespace Represents

variable {D : LogJson} {store : PersistentLogStore} {mem : LogStore}

theorem new : Represents D PersistentLogStore.new LogStore.new :=
  ⟨rfl, Finmap.lookup_empty _, Finmap.lookup_empty _⟩

theorem append (h : Represents D store mem) (entries : List Entry) :
    Represents D (store.append D entries) (mem.append entries) := by
  refine ⟨?_, h.vote, h.lastPurged⟩
  show entries.foldl _ store.logTable = (entries.foldl _ mem.log).map D.entryToVec
  rw [h.log]
  generalize mem.log = log
  induction entries generalizing log with
  | nil => rfl
  | cons e es ih =>
    rw [List.foldl_cons, List.foldl_cons, ← ih, Table.map_insert]

theorem truncate (h : Represents D store mem) (logId : LogId) :
    Represents D (store.truncate logId) (mem.truncate logId) := by
  refine ⟨?_, h.vote, h.lastPurged⟩
  simp only [PersistentLogStore.truncate, LogStore.truncate, h.log, Table.keys_map,
    Table.map_removeAll]

theorem purge (h : Represents D store mem) (logId : LogId) :
    Represents D (store.purge D logId) (mem.purge logId) := by
  refine ⟨?_, ?_, ?_⟩
  · simp only [PersistentLogStore.purge, LogStore.purge, h.log, Table.keys_map,
      Table.map_removeAll]
  · have hne : META_VOTE ≠ META_LAST_PURGED := by decide
    rw [PersistentLogStore.purge, Finmap.lookup_insert_of_ne _ hne, h.vote]
    rfl
  · rw [PersistentLogStore.purge, Finmap.lookup_insert]
    rfl

theorem saveVote (h : Represents D store mem) (vote : Vote) :
    Represents D (store.saveVote D vote) (mem.saveVote vote) := by
  refine ⟨h.log, ?_, ?_⟩
  · rw [PersistentLogStore.saveVote, PersistentLogStore.writeMeta, Finmap.lookup_insert]
    rfl
  · have hne : META_LAST_PURGED ≠ META_VOTE := by decide
    rw [PersistentLogStore.saveVote, PersistentLogStore.writeMeta,
      Finmap.lookup_insert_of_ne _ hne, h.lastPurged]
    rfl

/-- **One operation** on both stores. -/
theorem run (h : Represents D store mem) (op : StoreOp) :
    Represents D (store.run D op) (mem.run op) := by
  cases op with
  | append entries => exact h.append entries
  | truncate logId => exact h.truncate logId
  | purge logId => exact h.purge logId
  | saveVote vote => exact h.saveVote vote

/-! ### Reading -/

/-- A meta row that holds the text of a value, or no row, reads back as it was written. -/
theorem readMeta_eq {α : Type} {toVec : α → Bytes} {fromSlice : Bytes → Option α}
    (hround : ∀ a, fromSlice (toVec a) = some a) {key : String} {value : Option α}
    (h : store.metaTable.lookup key = value.map toVec) :
    store.readMeta fromSlice key = .ok value := by
  unfold PersistentLogStore.readMeta
  rw [h]
  cases value with
  | none => rfl
  | some a => simp only [Option.map_some, hround]

theorem readVote_eq (h : Represents D store mem) : store.readVote D = mem.readVote :=
  readMeta_eq D.vote_roundtrip h.vote

theorem decodeRows_map (D : LogJson) (entries : List Entry) :
    PersistentLogStore.decodeRows D (entries.map D.entryToVec) = .ok entries := by
  induction entries with
  | nil => rfl
  | cons e es ih => simp only [List.map_cons, PersistentLogStore.decodeRows, D.entry_roundtrip, ih]

theorem tryGetLogEntries_eq (h : Represents D store mem) (range : IndexRange) :
    store.tryGetLogEntries D range.contains = mem.tryGetLogEntries range := by
  rw [PersistentLogStore.tryGetLogEntries, h.log, Table.range_map, decodeRows_map]
  rfl

theorem getLogState_eq (h : Represents D store mem) : store.getLogState D = mem.getLogState := by
  have hpurged : store.lastPurged D = .ok mem.lastPurged :=
    readMeta_eq D.logId_roundtrip h.lastPurged
  unfold PersistentLogStore.getLogState LogStore.getLogState
  rw [hpurged, h.log, Table.last_map]
  cases mem.log.last with
  | none => rfl
  | some r => simp only [Option.map_some, D.entry_roundtrip]

end Represents

/-! ## Main result -/

/-- The file of the shard is what the open handle shows, and it represents the in-memory store. -/
structure InStep (D : LogJson) (s : ShardId) (db : OpenStore) (mem : LogStore) : Prop where
  file : db.dir.file s = some db.store
  represents : Represents D db.store mem

section

variable {D : LogJson} {s : ShardId} {db : OpenStore} {mem : LogStore}

theorem InStep.openAt {dir : DataDir} (h : dir.Fresh s) :
    InStep D s (OpenStore.openAt dir s) LogStore.new := by
  rw [OpenStore.openAt, DataDir.openStore_of_fresh h]
  exact ⟨DataDir.setFile_file _ _ _, Represents.new⟩

/-- Closing and reopening gives back the same store. -/
theorem InStep.reopen_eq (h : InStep D s db mem) : db.after D s .reopen = db := by
  show OpenStore.openAt db.dir s = db
  rw [OpenStore.openAt, DataDir.openStore_of_file h.file]

/-- **One call** keeps the two stores in step. -/
theorem InStep.after (h : InStep D s db mem) (call : StoreCall) :
    InStep D s (db.after D s call) (mem.after call) := by
  cases call with
  | op op => exact ⟨DataDir.setFile_file _ _ _, h.represents.run op⟩
  | readVote => exact h
  | getLogState => exact h
  | tryGetLogEntries range => exact h
  | reopen =>
    rw [h.reopen_eq]
    exact h

/-- Stores in step give the same answer. -/
theorem InStep.answer (h : InStep D s db mem) (call : StoreCall) :
    db.answer? D call = mem.answer? call := by
  cases call with
  | readVote => exact congrArg (fun r => some (StoreAnswer.vote r)) h.represents.readVote_eq
  | getLogState => exact congrArg (fun r => some (StoreAnswer.logState r)) h.represents.getLogState_eq
  | tryGetLogEntries range =>
    exact congrArg (fun r => some (StoreAnswer.entries r)) (h.represents.tryGetLogEntries_eq range)
  | _ => rfl

theorem InStep.answers (h : InStep D s db mem) (calls : List StoreCall) :
    db.answers D s calls = mem.answers calls := by
  induction calls generalizing db mem with
  | nil => rfl
  | cons call calls ih =>
    rw [OpenStore.answers, LogStore.answers, h.answer call, ih (h.after call)]

end

/-- **The persistent log store refines the in-memory one.**  Opened in a data directory without a
database for its shard, it answers every sequence of calls, closed and reopened anywhere in it, as the
in-memory store does. -/
theorem persistent_refines_memory (D : LogJson) {s : ShardId} {dir : DataDir} (hfresh : dir.Fresh s)
    (calls : List StoreCall) :
    (OpenStore.openAt dir s).answers D s calls = LogStore.new.answers calls :=
  InStep.answers (InStep.openAt hfresh) calls

/-- An entry overwritten, another one purged, and the store reopened before it is read. -/
theorem memory_answers_after_reopen :
    (OpenStore.openAt ⟨none, fun _ => none⟩ 0).answers JsonFormats.logJson 0
        [.op (.append [⟨⟨⟨1, 1⟩, 0⟩, .blank⟩, ⟨⟨⟨1, 1⟩, 1⟩, .blank⟩]), .op (.purge ⟨⟨1, 1⟩, 0⟩),
          .op (.append [⟨⟨⟨2, 1⟩, 1⟩, .blank⟩]), .reopen, .getLogState,
          .tryGetLogEntries ⟨.included 0, .unbounded, trivial⟩] =
      [.logState (.ok ⟨some ⟨⟨1, 1⟩, 0⟩, some ⟨⟨2, 1⟩, 1⟩⟩),
        .entries (.ok [⟨⟨⟨2, 1⟩, 1⟩, .blank⟩])] := by
  rw [persistent_refines_memory JsonFormats.logJson ⟨rfl, fun _ => rfl⟩]
  rfl

end RaftTimeDB
