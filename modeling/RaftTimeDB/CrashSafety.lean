import RaftTimeDB.Lib.Lists
import RaftTimeDB.Lib.Txn
import RaftTimeDB.StoreContract

/-!
# Crash safety of the persistent log store

Every operation of `PersistentLogStore` is one redb transaction; here it is taken apart into its
single table writes (`writesOf`), so that a crash can come between any two of them, before or after
the commit, and before the call returns.  Commits are atomic and durable, and an uncommitted
transaction leaves no trace.

The abstract layer is `Contents`: the purge mark, the entries and the vote, and what each operation is
for (`Contents.after`); `Stands.run` says that the store refines it.

Principal result: `crash_safe` — under openraft's contract, whatever crashes and reopenings a run has,
the store shows what the completed operations, each cut one applied or not, make of an empty store: the
keys are the interval right after the purge mark, and the mark and the vote are the last ones set, or
ones being set at a crash since.
-/

set_option autoImplicit false

namespace RaftTimeDB.CrashSafety

open JsonFormats (logJson)

/-- One write inside a transaction. -/
inductive TableWrite where
  | insertRow (index : Nat) (bytes : Bytes)
  | removeRow (index : Nat)
  | putMeta (key : String) (bytes : Bytes)
  deriving DecidableEq, Repr

def write (store : PersistentLogStore) : TableWrite → PersistentLogStore
  | .insertRow index bytes => { store with logTable := store.logTable.insert index bytes }
  | .removeRow index => { store with logTable := store.logTable.remove index }
  | .putMeta key bytes => { store with metaTable := store.metaTable.insert key bytes }

/-- The writes of an operation, in the order of the source.  `truncate` and `purge` collect the keys
before they remove them. -/
def writesOf (D : LogJson) (store : PersistentLogStore) : StoreOp → List TableWrite
  | .append entries => entries.map fun e => .insertRow e.logId.index (D.entryToVec e)
  | .truncate logId => (store.logTable.keys fun k => decide (logId.index ≤ k)).map .removeRow
  | .purge logId =>
      (store.logTable.keys fun k => decide (k ≤ logId.index)).map .removeRow ++
        [.putMeta META_LAST_PURGED (D.logIdToVec logId)]
  | .saveVote vote => [.putMeta META_VOTE (D.voteToVec vote)]

theorem foldl_insertRow (D : LogJson) (entries : List Entry) (store : PersistentLogStore) :
    (entries.map fun e => TableWrite.insertRow e.logId.index (D.entryToVec e)).foldl write store =
      store.append D entries := by
  induction entries generalizing store with
  | nil => rfl
  | cons e es ih =>
    rw [List.map_cons, List.foldl_cons, ih]
    rfl

theorem foldl_removeRow (keys : List Nat) (store : PersistentLogStore) :
    (keys.map TableWrite.removeRow).foldl write store =
      { store with logTable := store.logTable.removeAll keys } := by
  induction keys generalizing store with
  | nil => rfl
  | cons k ks ih =>
    rw [List.map_cons, List.foldl_cons, ih]
    rfl

/-- **The writes of an operation, taken together, are the operation.** -/
theorem foldl_writesOf (D : LogJson) (store : PersistentLogStore) (op : StoreOp) :
    (writesOf D store op).foldl write store = store.run D op := by
  cases op with
  | append entries => exact foldl_insertRow D entries store
  | truncate logId => exact foldl_removeRow _ store
  | purge logId =>
    rw [writesOf, List.foldl_append, foldl_removeRow]
    rfl
  | saveVote vote => rfl

/-! ## The store in its data directory -/

/-- The store of a shard, as its file shows it. -/
def storeIn (s : ShardId) (dir : DataDir) : PersistentLogStore :=
  (dir.file s).getD PersistentLogStore.new

/-- Operations on the database file of a shard under openraft's contract. -/
def system (D : LogJson) (s : ShardId) : Txn.System DataDir StoreOp TableWrite where
  write dir w := dir.setFile s (write (storeIn s dir) w)
  plan dir op := writesOf D (storeIn s dir) op
  Allowed dir op := op.Allowed D (storeIn s dir)
  decAllowed _ _ := inferInstance
  reopen dir := (dir.openStore s).1

variable {D : LogJson} {s : ShardId}

@[simp] theorem storeIn_setFile (dir : DataDir) (store : PersistentLogStore) :
    storeIn s (dir.setFile s store) = store := by
  rw [storeIn, DataDir.setFile_file, Option.getD_some]

theorem storeIn_foldl_write (writes : List TableWrite) (dir : DataDir) :
    storeIn s (writes.foldl (system D s).write dir) = writes.foldl write (storeIn s dir) := by
  induction writes generalizing dir with
  | nil => rfl
  | cons w ws ih =>
    rw [List.foldl_cons, ih, List.foldl_cons]
    exact congrArg (fun store => ws.foldl write store) (storeIn_setFile _ _)

@[simp] theorem storeIn_run (dir : DataDir) (op : StoreOp) :
    storeIn s ((system D s).run dir op) = (storeIn s dir).run D op := by
  rw [Txn.System.run, storeIn_foldl_write]
  exact foldl_writesOf D _ op

/-! ## What a store stands for -/

/-- The contents of a log store. -/
structure Contents where
  lastPurged : Option LogId
  entries : List Entry
  vote : Option Vote
  deriving DecidableEq

def Contents.empty : Contents := ⟨none, [], none⟩

/-- What an operation is for: appended entries follow the stored ones, truncated and purged ones go, and
the purge mark and the vote are replaced. -/
def Contents.after (c : Contents) : StoreOp → Contents
  | .append entries => { c with entries := c.entries ++ entries }
  | .truncate logId => { c with entries := c.entries.filter fun e => e.logId.index < logId.index }
  | .purge logId =>
      { c with
        lastPurged := some logId
        entries := c.entries.filter fun e => logId.index < e.logId.index }
  | .saveVote vote => { c with vote := some vote }

/-- The store holds these contents: the entries have consecutive indices from right after the purge mark
(from 0 if nothing was purged), and the rows are their texts. -/
structure Stands (D : LogJson) (store : PersistentLogStore) (c : Contents) : Prop where
  purged : store.lastPurged D = .ok c.lastPurged
  vote : store.readVote D = .ok c.vote
  consecutive : c.entries.map (·.logId.index) =
    List.range' (nextIndex c.lastPurged) c.entries.length
  rows : ∀ k bytes, (k, bytes) ∈ store.logTable.rows ↔
    ∃ e ∈ c.entries, e.logId.index = k ∧ D.entryToVec e = bytes

variable {store : PersistentLogStore} {c : Contents}

theorem Stands.new : Stands D PersistentLogStore.new Contents.empty := by
  refine ⟨rfl, rfl, rfl, ?_⟩
  intro k bytes
  constructor
  · intro hrow
    cases hrow
  · rintro ⟨e, he, _⟩
    cases he

theorem Stands.hasKey (h : Stands D store c) (k : Nat) :
    store.HasKey k ↔ nextIndex c.lastPurged ≤ k ∧ k < nextIndex c.lastPurged + c.entries.length := by
  rw [← List.mem_range'_1, ← h.consecutive, List.mem_map]
  constructor
  · rintro ⟨bytes, hrow⟩
    obtain ⟨e, he, hindex, _⟩ := (h.rows k bytes).mp hrow
    exact ⟨e, he, hindex⟩
  · rintro ⟨e, he, hindex⟩
    exact ⟨_, (h.rows k _).mpr ⟨e, he, hindex, rfl⟩⟩

theorem Stands.wellFormed (h : Stands D store c) : store.WellFormed D := by
  intro k bytes hrow
  obtain ⟨e, _, hindex, htext⟩ := (h.rows k bytes).mp hrow
  exact ⟨e, hindex, htext⟩

theorem Stands.purgeMark_eq (h : Stands D store c) : store.purgeMark D = c.lastPurged := by
  rw [PersistentLogStore.purgeMark, h.purged]

theorem Stands.contiguous (h : Stands D store c) :
    store.Contiguous D (nextIndex c.lastPurged + c.entries.length) := by
  have hfirst : store.firstIndex D = nextIndex c.lastPurged := by
    rw [PersistentLogStore.firstIndex, h.purgeMark_eq]
  refine ⟨h.wellFormed, by rw [h.purgeMark_eq, h.purged], by rw [hfirst]; omega, ?_⟩
  intro k
  rw [h.hasKey, hfirst]

theorem Stands.increasing (h : Stands D store c) :
    c.entries.Pairwise fun a b => a.logId.index < b.logId.index := by
  refine List.pairwise_map.mp ?_
  rw [h.consecutive]
  exact List.pairwise_lt_range'

/-- The entries of an interval are consecutive again. -/
theorem Stands.consecutive_filter (h : Stands D store c) (p : Nat → Bool) {a b : Nat}
    (hp : ∀ k, (nextIndex c.lastPurged ≤ k ∧ k < nextIndex c.lastPurged + c.entries.length) ∧
      p k = true ↔ a ≤ k ∧ k < b) :
    (c.entries.filter fun e => p e.logId.index).map (·.logId.index) =
      List.range' a (c.entries.filter fun e => p e.logId.index).length := by
  have hmap : (c.entries.filter fun e => p e.logId.index).map (·.logId.index) =
      (c.entries.map (·.logId.index)).filter p := List.filter_map.symm
  have hinterval := Lists.eq_range'_of_interval (l := (c.entries.map (·.logId.index)).filter p)
    ((List.pairwise_map.mpr h.increasing).filter p) (a := a) (b := b) ?_
  · rw [hmap, hinterval, ← hmap, List.length_map]
  · intro k
    rw [List.mem_filter, h.consecutive, List.mem_range'_1]
    exact hp k

/-- The rows of the entries that a removal leaves. -/
theorem Stands.rows_filter (h : Stands D store c) (p : Nat → Bool) (k : Nat) (bytes : Bytes) :
    (k, bytes) ∈ store.logTable.rows ∧ p k = true ↔
      ∃ e ∈ c.entries.filter fun e => p e.logId.index, e.logId.index = k ∧ D.entryToVec e = bytes := by
  rw [h.rows]
  simp only [List.mem_filter]
  constructor
  · rintro ⟨⟨e, he, rfl, htext⟩, hp⟩
    exact ⟨e, ⟨he, hp⟩, rfl, htext⟩
  · rintro ⟨e, ⟨he, hp⟩, rfl, htext⟩
    exact ⟨⟨e, he, rfl, htext⟩, hp⟩

theorem Stands.append (h : Stands D store c) {entries : List Entry}
    (hallowed : (StoreOp.append entries).Allowed D store) :
    Stands D (store.append D entries) (c.after (.append entries)) := by
  have hindices : entries.map (·.logId.index) =
      List.range' (nextIndex c.lastPurged + c.entries.length) entries.length := by
    rw [← h.contiguous.nextAppend_eq]
    exact hallowed
  have hinc : entries.Pairwise fun a b => a.logId.index < b.logId.index := by
    refine List.pairwise_map.mp ?_
    rw [hindices]
    exact List.pairwise_lt_range'
  refine ⟨h.purged, h.vote, ?_, ?_⟩
  · show (c.entries ++ entries).map (·.logId.index) =
      List.range' (nextIndex c.lastPurged) (c.entries ++ entries).length
    rw [List.map_append, List.length_append, h.consecutive, hindices, List.range'_append_1]
  · intro k bytes
    rw [PersistentLogStore.mem_append_rows hinc, h.rows]
    show _ ↔ ∃ e ∈ c.entries ++ entries, e.logId.index = k ∧ D.entryToVec e = bytes
    constructor
    · rintro (⟨e, he, heq⟩ | ⟨⟨e, he, hrow⟩, _⟩)
      · exact ⟨e, List.mem_append_right _ he, (Prod.ext_iff.mp heq).imp Eq.symm Eq.symm⟩
      · exact ⟨e, List.mem_append_left _ he, hrow⟩
    · rintro ⟨e, he, hindex, htext⟩
      rcases List.mem_append.mp he with he | he
      · refine Or.inr ⟨⟨e, he, hindex, htext⟩, ?_⟩
        -- the stored indices end before the appended ones
        have hold := (h.hasKey k).mp ⟨bytes, (h.rows k bytes).mpr ⟨e, he, hindex, htext⟩⟩
        intro e' he' heq
        have hnew : e'.logId.index ∈ entries.map (·.logId.index) := List.mem_map_of_mem he'
        rw [hindices, List.mem_range'_1] at hnew
        have hkey : k = e'.logId.index := heq
        omega
      · exact Or.inl ⟨e, he, by rw [hindex, htext]⟩

theorem Stands.truncate (h : Stands D store c) {logId : LogId}
    (hallowed : (StoreOp.truncate logId).Allowed D store) :
    Stands D (store.truncate logId) (c.after (.truncate logId)) := by
  have habove : nextIndex c.lastPurged ≤ logId.index := by
    rw [← h.purgeMark_eq]
    exact hallowed
  refine ⟨h.purged, h.vote, ?_, ?_⟩
  · refine h.consecutive_filter (fun k => decide (k < logId.index)) (a := nextIndex c.lastPurged)
      (b := min (nextIndex c.lastPurged + c.entries.length) logId.index) ?_
    intro k
    rw [decide_eq_true_eq]
    omega
  · intro k bytes
    rw [PersistentLogStore.mem_truncate_rows, ← decide_eq_true_iff (p := k < logId.index)]
    exact h.rows_filter (fun k => decide (k < logId.index)) k bytes

theorem readVote_purge (logId : LogId) : (store.purge D logId).readVote D = store.readVote D := by
  have hne : META_VOTE ≠ META_LAST_PURGED := by decide
  simp only [PersistentLogStore.readVote, PersistentLogStore.readMeta, PersistentLogStore.purge,
    Finmap.lookup_insert_of_ne _ hne]

theorem readVote_saveVote (vote : Vote) :
    (store.saveVote D vote).readVote D = .ok (some vote) := by
  simp only [PersistentLogStore.readVote, PersistentLogStore.readMeta, PersistentLogStore.saveVote,
    PersistentLogStore.writeMeta, Finmap.lookup_insert, D.vote_roundtrip]

/-- A purge may go beyond the last entry: then nothing stays, and the next entry comes after the mark. -/
theorem Stands.purge (h : Stands D store c) {logId : LogId}
    (hallowed : (StoreOp.purge logId).Allowed D store) :
    Stands D (store.purge D logId) (c.after (.purge logId)) := by
  have hforward : nextIndex c.lastPurged ≤ logId.index + 1 := by
    rw [← h.purgeMark_eq]
    exact hallowed
  refine ⟨PersistentLogStore.lastPurged_purge logId, by rw [readVote_purge]; exact h.vote, ?_, ?_⟩
  · refine h.consecutive_filter (fun k => decide (logId.index < k))
      (b := nextIndex c.lastPurged + c.entries.length) ?_
    intro k
    rw [decide_eq_true_eq, Contents.after, nextIndex_some]
    omega
  · intro k bytes
    rw [PersistentLogStore.mem_purge_rows, ← decide_eq_true_iff (p := logId.index < k)]
    exact h.rows_filter (fun k => decide (logId.index < k)) k bytes

theorem Stands.saveVote (h : Stands D store c) (vote : Vote) :
    Stands D (store.saveVote D vote) (c.after (.saveVote vote)) := by
  refine ⟨?_, readVote_saveVote vote, h.consecutive, h.rows⟩
  rw [PersistentLogStore.lastPurged_saveVote]
  exact h.purged

/-- **Every allowed operation does to the contents what it is for.** -/
theorem Stands.run (h : Stands D store c) {op : StoreOp} (hallowed : op.Allowed D store) :
    Stands D (store.run D op) (c.after op) := by
  cases op with
  | append entries => exact h.append hallowed
  | truncate logId => exact h.truncate hallowed
  | purge logId => exact h.purge hallowed
  | saveVote vote => exact h.saveVote vote

/-! ## The database file -/

theorem foldl_write_file {dir : DataDir} (h : ∃ store, dir.file s = some store)
    (writes : List TableWrite) :
    ∃ store, (writes.foldl (system D s).write dir).file s = some store := by
  induction writes generalizing dir with
  | nil => exact h
  | cons w ws ih => exact ih ⟨_, DataDir.setFile_file _ _ _⟩

theorem reopen_of_file {dir : DataDir} (h : ∃ store, dir.file s = some store) :
    (system D s).reopen dir = dir := by
  obtain ⟨store, hfile⟩ := h
  show (dir.openStore s).1 = dir
  rw [DataDir.openStore_of_file hfile]

/-- A directory without a database of the shard gets an empty one. -/
theorem openStore_fresh {dir : DataDir} (hfresh : dir.Fresh s) :
    (∃ store, (dir.openStore s).1.file s = some store) ∧
      Stands D (storeIn s (dir.openStore s).1) Contents.empty := by
  rw [DataDir.openStore_of_fresh hfresh]
  refine ⟨⟨_, DataDir.setFile_file _ _ _⟩, ?_⟩
  rw [storeIn_setFile]
  exact Stands.new

/-! ## Main result -/

/-- The vote an operation sets. -/
def setVote? : StoreOp → Option (Option Vote)
  | .saveVote vote => some (some vote)
  | _ => none

/-- The purge mark an operation sets. -/
def setMark? : StoreOp → Option (Option LogId)
  | .purge logId => some (some logId)
  | _ => none

/-- The votes that `read_vote` may return: the one of the last completed `save_vote` (none at first), or
one of a `save_vote` cut since. -/
def savedVotes (events : List (StoreOp × Txn.Fate)) : List (Option Vote) :=
  Txn.lastOrCut setVote? none events

/-- The purge marks that may be found: the one of the last completed `purge` (none at first), or one of a
`purge` cut since. -/
def purgeMarks (events : List (StoreOp × Txn.Fate)) : List (Option LogId) :=
  Txn.lastOrCut setMark? none events

/-- What a reader finds in a store with these contents. -/
structure Shows (D : LogJson) (store : PersistentLogStore) (c : Contents) : Prop where
  purged : store.lastPurged D = .ok c.lastPurged
  vote : store.readVote D = .ok c.vote
  /-- the stored keys are the interval that starts right after the purge mark, one for each entry -/
  interval : ∀ k, store.HasKey k ↔
    nextIndex c.lastPurged ≤ k ∧ k < nextIndex c.lastPurged + c.entries.length
  /-- every key is the index inside its entry's log id -/
  indices : ∀ k bytes, (k, bytes) ∈ store.logTable.rows →
    ∃ e, D.entryFromSlice bytes = some e ∧ e.logId.index = k
  /-- a range shows the entries of its indices -/
  visible : ∀ range, store.tryGetLogEntries D range =
    .ok (c.entries.filter fun e => range e.logId.index)
  /-- no entry is at or below the purge mark -/
  above : ∀ e ∈ c.entries, nextIndex c.lastPurged ≤ e.logId.index

theorem Stands.shows (h : Stands D store c) : Shows D store c := by
  refine ⟨h.purged, h.vote, h.hasKey, ?_, ?_, ?_⟩
  · intro k bytes hrow
    obtain ⟨e, _, hindex, htext⟩ := (h.rows k bytes).mp hrow
    exact ⟨e, by rw [← htext, D.entry_roundtrip], hindex⟩
  · intro range
    obtain ⟨entries, hread, hinc, hmem⟩ :=
      PersistentLogStore.tryGetLogEntries_spec h.wellFormed range
    have heq : entries = c.entries.filter fun e => range e.logId.index := by
      refine Lists.eq_of_increasing (fun e => e.logId.index) hinc (h.increasing.filter _) ?_
      intro e
      rw [hmem, List.mem_filter, PersistentLogStore.Holds, h.rows]
      refine and_congr_left fun _ => ?_
      constructor
      · rintro ⟨e', he', hindex, htext⟩
        have heq : e' = e := PersistentLogStore.row_inj (D := D) (by rw [hindex, htext])
        rwa [← heq]
      · exact fun he => ⟨e, he, rfl, rfl⟩
    rw [hread, heq]
  · intro e he
    have hmem : e.logId.index ∈ c.entries.map (·.logId.index) := List.mem_map_of_mem he
    rw [h.consecutive, List.mem_range'_1] at hmem
    exact hmem.1

/-- **Crash safety of the log store.**  In every state of a run under openraft's contract, with crashes
and reopenings anywhere, also inside operations: the store shows what the operations so far make of an
empty store, where the completed ones took effect and each cut one (also the one in progress) took effect
or did not; so the purge mark is the one of the last completed `purge` or of one cut since, and likewise
the vote.  A call, however far it gets before a crash, leaves the store of before or after it, and once it
has returned the store of after it. -/
theorem crash_safe {dir : DataDir} (hfresh : dir.Fresh s) {moves : List (Txn.Move StoreOp)}
    {m : Txn.Machine DataDir StoreOp TableWrite}
    (h : Runs.exec (system D s).step (Txn.Machine.start (dir.openStore s).1) moves = some m) :
    (∃ c ∈ Txn.outcomes Contents.after Contents.empty m.events,
      Shows D (storeIn s m.durable) c ∧
      c.lastPurged ∈ purgeMarks m.events ∧ c.vote ∈ savedVotes m.events) ∧
    (∀ op after m', m.phase = .idle → (∀ move ∈ after, ∀ op', move ≠ .call op') →
      Runs.exec (system D s).step m (.call op :: after) = some m' →
      (storeIn s m'.durable = storeIn s m.durable ∨
        storeIn s m'.durable = (storeIn s m.durable).run D op) ∧
      (.finish ∈ after → storeIn s m'.durable = (storeIn s m.durable).run D op)) := by
  obtain ⟨hfile₀, hstands₀⟩ := openStore_fresh (D := D) hfresh
  obtain ⟨before, hexplained⟩ := Txn.explained (I := fun dir => ∃ store, dir.file s = some store)
    (fun _ _ hfile _ => foldl_write_file hfile _) hfile₀ (fun _ hfile => reopen_of_file hfile) h
  have hevents := hexplained.events
  constructor
  · obtain ⟨c, hc, hstands⟩ : ∃ c ∈ Txn.outcomes Contents.after Contents.empty m.events,
        Stands D (storeIn s m.durable) c := hevents.exists_outcome
      (R := fun c dir => Stands D (storeIn s dir) c)
      (fun c dir op hR hallowed => by rw [storeIn_run]; exact hR.run hallowed) hstands₀
    refine ⟨c, hc, hstands.shows, ?_, ?_⟩
    · refine Txn.part_mem_lastOrCut (p := Contents.lastPurged) ?_ hc
      intro c op
      cases op <;> rfl
    · refine Txn.part_mem_lastOrCut (p := Contents.vote) ?_ hc
      intro c op
      cases op <;> rfl
  · intro op after m' hidle hafter hexec
    have hfile := hevents.inv (I := fun dir => ∃ store, dir.file s = some store)
      (fun _ _ hfile _ => foldl_write_file hfile _) hfile₀
    have hreopen : (system D s).reopen m.durable = m.durable := reopen_of_file hfile
    have hreopen' : (system D s).reopen ((system D s).run m.durable op) =
        (system D s).run m.durable op := reopen_of_file (foldl_write_file hfile _)
    constructor
    · rcases Txn.atomic hidle hreopen hreopen' hafter hexec with heq | heq
      · exact Or.inl (by rw [heq])
      · exact Or.inr (by rw [heq, storeIn_run])
    · intro hfinish
      rw [Txn.returned hidle hreopen hreopen' hafter hfinish hexec, storeIn_run]

/-- A blank entry of term 1. -/
def blankAt (index : Nat) : Entry := ⟨⟨⟨1, 1⟩, index⟩, .blank⟩

/-- Entries 0 and 1 are appended, the log is purged up to 4, beyond its end, and goes on with 5 and 6; the
removal of 6 is cut after its commit and a vote before its commit. -/
def cutShort : List (Txn.Move StoreOp) :=
  [.call (.append [blankAt 0, blankAt 1]), .write, .write, .commit, .finish,
    .call (.saveVote ⟨⟨1, 1⟩, true⟩), .write, .commit, .finish,
    .call (.purge ⟨⟨1, 1⟩, 4⟩), .write, .write, .write, .commit, .finish,
    .call (.append [blankAt 5, blankAt 6]), .write, .write, .commit, .finish,
    .call (.truncate ⟨⟨1, 1⟩, 6⟩), .write, .commit, .crash, .reopen,
    .call (.saveVote ⟨⟨2, 2⟩, false⟩), .write, .crash, .reopen]

/-- An append returns, and the process crashes. -/
def thenAppend : List (Txn.Move StoreOp) := [.write, .commit, .finish, .crash, .reopen]

/-- Entry 5 is left after the purge mark 4, one of the two votes can be read, and the entry appended after
that stays through the crash. -/
theorem intact_after_crashes :
    ∃ m m', Runs.exec (system logJson 0).step
        (Txn.Machine.start (DataDir.openStore ⟨none, fun _ => none⟩ 0).1) cutShort = some m ∧
      Runs.exec (system logJson 0).step m (.call (.append [blankAt 6]) :: thenAppend) = some m' ∧
      (storeIn 0 m.durable).tryGetLogEntries logJson (fun _ => true) = .ok [blankAt 5] ∧
      (∃ c, Shows logJson (storeIn 0 m.durable) c ∧ c.lastPurged ∈ [some ⟨⟨1, 1⟩, 4⟩] ∧
        c.vote ∈ [some (⟨⟨1, 1⟩, true⟩ : Vote), some ⟨⟨2, 2⟩, false⟩]) ∧
      storeIn 0 m'.durable = (storeIn 0 m.durable).run logJson (.append [blankAt 6]) := by
  obtain ⟨m, h, hidle, hmarks, hvotes, hread, hnext⟩ : ∃ m, Runs.exec (system logJson 0).step
      (Txn.Machine.start (DataDir.openStore ⟨none, fun _ => none⟩ 0).1) cutShort = some m ∧
      m.phase = .idle ∧
      purgeMarks m.events = [some ⟨⟨1, 1⟩, 4⟩] ∧
      savedVotes m.events = [some (⟨⟨1, 1⟩, true⟩ : Vote), some ⟨⟨2, 2⟩, false⟩] ∧
      (storeIn 0 m.durable).tryGetLogEntries logJson (fun _ => true) = .ok [blankAt 5] ∧
      (Runs.exec (system logJson 0).step m
        (.call (.append [blankAt 6]) :: thenAppend)).isSome = true :=
    Runs.exists_exec (by decide +kernel)
  obtain ⟨m', hexec⟩ := Option.isSome_iff_exists.mp hnext
  obtain ⟨⟨c, _, hshows, hmark, hvote⟩, hcall⟩ := crash_safe ⟨rfl, fun _ => rfl⟩ h
  rw [hmarks] at hmark
  rw [hvotes] at hvote
  refine ⟨m, m', h, hexec, hread, ⟨c, hshows, hmark, hvote⟩, (hcall _ _ m' hidle ?_ hexec).2 ?_⟩
  · simp [thenAppend]
  · simp [thenAppend]

end RaftTimeDB.CrashSafety
