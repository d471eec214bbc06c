import RaftTimeDB.StoreFaults

/-!
# Reading from a failing database

The reading calls of `crates/proxy/src/raft/persistent_log_store.rs` on a database whose operations
may return errors, and runs of the store on such a database: any calls in any order, each with its
own errors, closed and reopened anywhere.

* Unlike the deletions, the reading calls propagate every error, row by row.
* `get_log_state` reads the purge mark and the last row in two transactions.
* A write that returned `Err` has changed nothing, so the store is to be compared with the in-memory
  store after just the writes that returned `Ok`.

Principal results: `read_eq` — a read is an error exactly when one of its steps fails, and otherwise
the answer of a database without errors; `faulty_store_refines_memory` — over whole runs, the
answers are those of the in-memory store after the writes that returned `Ok`.
-/

set_option autoImplicit false

namespace RaftTimeDB.StoreFaults

open JsonFormats (logJson)

/-! ## Reading calls -/

/-- Which of the fallible steps of a reading call return an error; `beginRead2` is the second
transaction of `get_log_state`. -/
structure ReadFaults where
  beginRead : Bool
  openMeta : Bool
  get : Bool
  beginRead2 : Bool
  openLog : Bool
  last : Bool
  range : Bool
  row : Nat → Bool

def ReadFaults.none : ReadFaults := ⟨false, false, false, false, false, false, false, fun _ => false⟩

/-- A step that returns an error. -/
def readStep (fails : Bool) : Except StorageError Unit :=
    if fails then .error ⟨.logs, .read⟩ else .ok ()

section Reads

variable (D : LogJson) (F : ReadFaults) (store : PersistentLogStore)

def readMeta {α : Type} (fromSlice : Bytes → Option α) (key : String) : Except StorageError
    (Option α) := do
  readStep F.beginRead
  readStep F.openMeta
  readStep F.get
  store.readMeta fromSlice key

def readVote : Except StorageError (Option Vote) := readMeta F store D.voteFromSlice META_VOTE

/-- The loop of `try_get_log_entries`. -/
def readRows : List (Nat × Bytes) → Except StorageError (List Entry)
  | [] => .ok []
  | (key, bytes) :: rows => do
      readStep (F.row key)
      match D.entryFromSlice bytes with
      | .none => .error ⟨.logs, .read⟩
      | some entry => do
          let entries ← readRows rows
          .ok (entry :: entries)

def tryGetLogEntries (range : IndexRange) : Except StorageError (List Entry) := do
  readStep F.beginRead
  readStep F.openLog
  readStep F.range
  readRows D F (store.logTable.filter range.contains).rows

def getLogState : Except StorageError LogState := do
  let lastPurged ← readMeta F store D.logIdFromSlice META_LAST_PURGED
  readStep F.beginRead2
  readStep F.openLog
  readStep F.last
  match store.logTable.last with
  | .none => .ok ⟨lastPurged, .none⟩
  | some (_, bytes) =>
      match D.entryFromSlice bytes with
      | some entry => .ok ⟨lastPurged, some entry.logId⟩
      | .none => .error ⟨.logs, .read⟩

end Reads

/-! ## What a read returns -/

inductive ReadCall where
  | readVote
  | getLogState
  | tryGetLogEntries (range : IndexRange)

/-- A step of the read fails, on a log table with these keys. -/
def ReadFaults.stops (F : ReadFaults) (keys : (Nat → Bool) → List Nat) : ReadCall → Bool
  | .readVote => F.beginRead || (F.openMeta || F.get)
  | .getLogState => (F.beginRead || (F.openMeta || F.get)) || (F.beginRead2 || (F.openLog || F.last))
  | .tryGetLogEntries range =>
      F.beginRead || (F.openLog || (F.range || (keys range.contains).any F.row))

/-- The answer of a reading call. -/
def readAnswer (D : LogJson) (F : ReadFaults) (store : PersistentLogStore) : ReadCall → StoreAnswer
  | .readVote => .vote (readVote D F store)
  | .getLogState => .logState (getLogState D F store)
  | .tryGetLogEntries range => .entries (tryGetLogEntries D F store range)

/-- The error of a reading call. -/
def readError : ReadCall → StoreAnswer
  | .readVote => .vote (.error ⟨.logs, .read⟩)
  | .getLogState => .logState (.error ⟨.logs, .read⟩)
  | .tryGetLogEntries _ => .entries (.error ⟨.logs, .read⟩)

/-- The answer of the in-memory store. -/
def memoryAnswer (mem : LogStore) : ReadCall → StoreAnswer
  | .readVote => .vote mem.readVote
  | .getLogState => .logState mem.getLogState
  | .tryGetLogEntries range => .entries (mem.tryGetLogEntries range)

section Specs

variable {D : LogJson} {F : ReadFaults} {store : PersistentLogStore} {mem : LogStore}

theorem readStep_bind {α : Type} (fails : Bool) (k : Except StorageError α) :
    (readStep fails >>= fun _ => k) = if fails then .error ⟨.logs, .read⟩ else k := by
  cases fails <;> rfl

theorem fails_or {α : Type} (a b : Bool) (e : StorageError) (k : Except StorageError α) :
    (if a then .error e else if b then .error e else k) = if a || b then .error e else k := by
  cases a <;> rfl

theorem readMeta_eq {α : Type} (fromSlice : Bytes → Option α) (key : String) :
    readMeta F store fromSlice key =
      if F.beginRead || (F.openMeta || F.get) then .error ⟨.logs, .read⟩
      else store.readMeta fromSlice key := by
  simp only [readMeta, readStep_bind, fails_or]

/-- A row that does not decode is the only error of a database without errors. -/
theorem lastPurged_error {e : StorageError} (h : store.lastPurged D = .error e) :
    e = ⟨.logs, .read⟩ := by
  rw [PersistentLogStore.lastPurged, PersistentLogStore.readMeta] at h
  split at h
  · split at h
    · cases h
    · exact (Except.error.inj h).symm
  · cases h

/-- The loop reads every row or fails. -/
theorem readRows_eq (rows : List (Nat × Bytes)) :
    readRows D F rows =
      if (rows.map Prod.fst).any F.row then .error ⟨.logs, .read⟩
      else PersistentLogStore.decodeRows D (rows.map Prod.snd) := by
  induction rows with
  | nil => rfl
  | cons row rows ih =>
    obtain ⟨key, bytes⟩ := row
    rw [readRows, readStep_bind, List.map_cons, List.any_cons, List.map_cons,
      PersistentLogStore.decodeRows, ih]
    cases hkey : F.row key with
    | true => rfl
    | false =>
      cases hrest : (rows.map Prod.fst).any F.row with
      | true => cases D.entryFromSlice bytes <;> rfl
      | false =>
        cases D.entryFromSlice bytes with
        | none => rfl
        | some entry => cases PersistentLogStore.decodeRows D (rows.map Prod.snd) <;> rfl

theorem tryGetLogEntries_eq (range : IndexRange) :
    tryGetLogEntries D F store range =
      if F.stops store.logTable.keys (.tryGetLogEntries range) then .error ⟨.logs, .read⟩
      else store.tryGetLogEntries D range.contains := by
  simp only [tryGetLogEntries, readStep_bind, readRows_eq, fails_or]
  rfl

theorem getLogState_eq :
    getLogState D F store =
      if F.stops store.logTable.keys .getLogState then .error ⟨.logs, .read⟩
      else store.getLogState D := by
  rw [getLogState, readMeta_eq, ReadFaults.stops]
  cases hmeta : F.beginRead || (F.openMeta || F.get) with
  | true => rfl
  | false =>
    have hpurged : store.readMeta D.logIdFromSlice META_LAST_PURGED = store.lastPurged D := rfl
    simp only [Bool.false_eq_true, if_false, Bool.false_or, readStep_bind, hpurged]
    -- an unreadable mark is the same error as one of the later steps
    rw [PersistentLogStore.getLogState]
    cases hmark : store.lastPurged D with
    | error e =>
      obtain rfl := lastPurged_error hmark
      exact (ite_self _).symm
    | ok lastPurged => cases F.beginRead2 <;> cases F.openLog <;> cases F.last <;> rfl

/-- **One read.**  It is an error exactly when one of its steps fails; otherwise it is the answer of
the in-memory store. -/
theorem read_eq (h : Represents D store mem) (call : ReadCall) :
    readAnswer D F store call =
      if F.stops mem.log.keys call then readError call else memoryAnswer mem call := by
  have hkeys : store.logTable.keys = mem.log.keys := by
    funext p
    rw [h.log, Table.keys_map]
  rw [← hkeys]
  cases call with
  | readVote =>
    have hvote : store.readMeta D.voteFromSlice META_VOTE = mem.readVote := h.readVote_eq
    rw [readAnswer, readVote, readMeta_eq, hvote]
    exact apply_ite StoreAnswer.vote _ _ _
  | getLogState =>
    rw [readAnswer, getLogState_eq, h.getLogState_eq]
    exact apply_ite StoreAnswer.logState _ _ _
  | tryGetLogEntries range =>
    rw [readAnswer, tryGetLogEntries_eq, h.tryGetLogEntries_eq]
    exact apply_ite StoreAnswer.entries _ _ _

end Specs

/-! ## Runs -/

/-- A call with the errors it meets, or closing the store and opening it again. -/
inductive FaultyCall where
  | write (op : StoreOp) (F : Faults)
  | read (call : ReadCall) (F : ReadFaults)
  | reopen

/-- What a call returns; of a write only whether it is `Ok`. -/
inductive FaultyAnswer where
  | wrote (isOk : Bool)
  | read (answer : StoreAnswer)

section Runs

variable (D : LogJson) (s : ShardId)

def dbAfter (db : OpenStore) : FaultyCall → OpenStore
  | .write op F => db.commit s (outcome D F db.store op).2.db
  | .read _ _ => db
  | .reopen => OpenStore.openAt db.dir s

def dbAnswer (db : OpenStore) : FaultyCall → Option FaultyAnswer
  | .write op F => some (.wrote (outcome D F db.store op).1.isOk)
  | .read call F => some (.read (readAnswer D F db.store call))
  | .reopen => none

def dbAnswers (db : OpenStore) : List FaultyCall → List FaultyAnswer
  | [] => []
  | call :: calls => (dbAnswer D db call).toList ++ dbAnswers (dbAfter D s db call) calls

/-- The in-memory store takes the writes that met no error on their way. -/
def memAfter (mem : LogStore) : FaultyCall → LogStore
  | .write op F => if F.stops op then mem else mem.run op
  | .read _ _ => mem
  | .reopen => mem

def memAnswer (mem : LogStore) : FaultyCall → Option FaultyAnswer
  | .write op F => some (.wrote (!F.stops op))
  | .read call F => some (.read (if F.stops mem.log.keys call then readError call else memoryAnswer mem call))
  | .reopen => none

def memAnswers (mem : LogStore) : List FaultyCall → List FaultyAnswer
  | [] => []
  | call :: calls => (memAnswer mem call).toList ++ memAnswers (memAfter mem call) calls

/-- No row of the range is lost by a deletion. -/
def Faults.Complete (F : Faults) (store : PersistentLogStore) : StoreOp → Prop
  | .truncate logId => ¬ F.LosesRow store fun k => decide (logId.index ≤ k)
  | .purge logId => ¬ F.LosesRow store fun k => decide (k ≤ logId.index)
  | _ => True

/-- Every deletion of the run that returns `Ok` is complete. -/
def Undamaged (db : OpenStore) : List FaultyCall → Prop
  | [] => True
  | .write op F :: calls =>
      (F.stops op = false → F.Complete db.store op) ∧ Undamaged (dbAfter D s db (.write op F)) calls
  | call :: calls => Undamaged (dbAfter D s db call) calls

end Runs

section

variable {D : LogJson} {s : ShardId} {db : OpenStore} {mem : LogStore}

/-- A deletion that loses no row removes its whole range. -/
theorem deleteRange_eq {F : Faults} {store : PersistentLogStore} {p : Nat → Bool}
    (h : ¬ F.LosesRow store p) :
    F.deleteRange p store = { store with logTable := store.logTable.removeAll (store.logTable.keys p) } := by
  have hall : (store.logTable.keys p).filter F.deletes = store.logTable.keys p := by
    refine List.filter_eq_self.mpr fun k hk => ?_
    obtain ⟨row, hrow, rfl⟩ := List.mem_map.mp hk
    obtain ⟨hmem, hp⟩ := (Table.mem_filter _ _ _).mp hrow
    rw [Faults.deletes, Bool.and_eq_true, Bool.not_eq_true', Bool.not_eq_true']
    constructor
    · exact Bool.eq_false_iff.mpr fun hscan => h ⟨row, hmem, hp, .inl hscan⟩
    · exact Bool.eq_false_iff.mpr fun hremove => h ⟨row, hmem, hp, .inr hremove⟩
  rw [Faults.deleteRange, hall]

theorem committed_eq_run {F : Faults} {store : PersistentLogStore} {op : StoreOp}
    (h : F.Complete store op) : F.committed D store op = store.run D op := by
  cases op with
  | append entries => rfl
  | truncate logId => exact deleteRange_eq h
  | purge logId =>
    rw [Faults.committed, deleteRange_eq h]
    rfl
  | saveVote vote => rfl

/-- **One write**: its answer says whether the in-memory store takes it too. -/
theorem inStep_write {op : StoreOp} {F : Faults} (h : InStep D s db mem)
    (hcomplete : F.stops op = false → F.Complete db.store op) :
    (outcome D F db.store op).1.isOk = !F.stops op ∧
      InStep D s (dbAfter D s db (.write op F)) (memAfter mem (.write op F)) := by
  rcases outcome_cases D F db.store op with
    ⟨after, hout, hstop, hdb, -⟩ | ⟨e, after, hout, hstop, hdb, -⟩
  · rw [dbAfter, memAfter, hout, hstop]
    refine ⟨rfl, DataDir.setFile_file _ _ _, ?_⟩
    show Represents D after.db _
    rw [hdb, committed_eq_run (hcomplete hstop)]
    exact h.represents.run op
  · rw [dbAfter, memAfter, hout, hstop]
    refine ⟨rfl, DataDir.setFile_file _ _ _, ?_⟩
    show Represents D after.db mem
    rw [hdb]
    exact h.represents

/-- **A whole run**, by induction on its calls. -/
theorem inStep_answers (h : InStep D s db mem) (calls : List FaultyCall)
    (hrun : Undamaged D s db calls) :
    dbAnswers D s db calls = memAnswers mem calls := by
  induction calls generalizing db mem with
  | nil => rfl
  | cons call calls ih =>
    rw [dbAnswers, memAnswers]
    cases call with
    | write op F =>
      obtain ⟨hok, hafter⟩ := inStep_write h hrun.1
      rw [ih hafter hrun.2, dbAnswer, memAnswer, hok]
    | read call F =>
      rw [dbAfter, memAfter, ih h hrun, dbAnswer, memAnswer, read_eq h.represents]
    | reopen =>
      have hsame : dbAfter D s db .reopen = db := h.reopen_eq
      have hrest : Undamaged D s (dbAfter D s db .reopen) calls := hrun
      rw [hsame] at hrest
      rw [hsame, ih h hrest]
      rfl

end

/-- **The persistent store on a failing database.**  Opened in a data directory without a database
for its shard, whatever calls it gets, whichever of their steps fail and wherever it is closed and
reopened: as long as no deletion that returned `Ok` has lost a row, a write is `Ok` exactly when
none of the steps it propagates failed, a read is an error exactly when one of its steps failed, and
every other answer is that of the in-memory store after just the writes that returned `Ok`. -/
theorem faulty_store_refines_memory (D : LogJson) {s : ShardId} {dir : DataDir} (hfresh : dir.Fresh s)
    (calls : List FaultyCall) (hrun : Undamaged D s (OpenStore.openAt dir s) calls) :
    dbAnswers D s (OpenStore.openAt dir s) calls = memAnswers LogStore.new calls :=
  inStep_answers (InStep.openAt hfresh) calls hrun

/-- The commit of a second batch fails, a truncation cannot remove a row outside its range, and one
read fails: the others see the first batch, cut. -/
theorem failing_calls_leave_first_batch :
    dbAnswers logJson 0 (OpenStore.openAt ⟨none, fun _ => none⟩ 0)
        [.write (.append twoEntries) Faults.none,
          .write (.append [⟨⟨⟨2, 1⟩, 1⟩, .blank⟩]) { Faults.none with commit := true },
          .write (.truncate ⟨⟨1, 1⟩, 2⟩) { Faults.none with removeRow := (· == 1) },
          .read .getLogState { ReadFaults.none with last := true }, .reopen,
          .read (.tryGetLogEntries ⟨.unbounded, .unbounded, trivial⟩) ReadFaults.none] =
      [.wrote true, .wrote false, .wrote true, .read (.logState (.error ⟨.logs, .read⟩)),
        .read (.entries (.ok [⟨⟨⟨1, 1⟩, 1⟩, .blank⟩]))] := by
  rw [faulty_store_refines_memory logJson ⟨rfl, fun _ => rfl⟩]
  · rfl
  · refine ⟨fun _ => trivial, fun _ => trivial, fun _ => ?_, trivial⟩
    rintro ⟨row, -, hrange, hscan | hremove⟩
    · cases hscan
    · have hkey : row.1 = 1 := by simpa using hremove
      rw [hkey] at hrange
      exact absurd hrange (by decide)

end RaftTimeDB.StoreFaults
