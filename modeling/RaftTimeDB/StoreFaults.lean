import RaftTimeDB.CrashSafety
import RaftTimeDB.Lib.Fallible
import RaftTimeDB.Lib.Lists

/-!
# The persistent log store on a failing database

The writing calls of `crates/proxy/src/raft/persistent_log_store.rs`, call by call: every redb
operation and every JSON encoding may return an error (`Faults`), and the code propagates it with
`?` or drops it.  A transaction that is dropped or whose commit fails changes nothing.

* `Session`: the committed database, the open write transaction, and the databases at which
  `log_io_completed(Ok)` was reported.
* `truncate` and `purge` collect the keys of their range with `filter_map(|item| item.ok())` and
  remove them with `let _ = table.remove(key)`: neither a failed row of the scan nor a failed
  removal ends the call.

Principal results: `perform_noFaults` — without errors a call is the operation of `LogStore`;
`failed_write_atomic` — an `Err` leaves the database as it was, and `append` reports at most once,
after its commit; `deletion_complete_iff` — when a deletion that returns `Ok` is complete.
-/

set_option autoImplicit false

namespace RaftTimeDB.StoreFaults

open CrashSafety (TableWrite write)
open JsonFormats (logJson)

/-- Which of the fallible steps of one call return an error.  Rows are named by their key, the
entries of a batch by their position in it.  A scan that ends early after an error is one in which
every later row fails. -/
structure Faults where
  beginWrite : Bool
  openLog : Bool
  openMeta : Bool
  range : Bool
  scanRow : Nat → Bool
  removeRow : Nat → Bool
  encode : Nat → Bool
  insertRow : Nat → Bool
  insertMeta : Bool
  commit : Bool

def Faults.none : Faults :=
  ⟨false, false, false, false, fun _ => false, fun _ => false, fun _ => false, fun _ => false,
    false, false⟩

structure Session where
  db : PersistentLogStore
  txn : Option PersistentLogStore
  reports : List PersistentLogStore

/-- A call on a database with this content. -/
def Session.start (store : PersistentLogStore) : Session := ⟨store, .none, []⟩

abbrev Redb := Call StorageError Session

/-! ## Steps -/

section Steps

variable (F : Faults)

def beginWrite : Redb Unit := do
  Call.failIf F.beginWrite ⟨.logs, .write⟩
  modify fun s => { s with txn := some s.db }

def openTable (fails : Bool) : Redb Unit := Call.failIf fails ⟨.logs, .write⟩

/-- `serde_json::to_vec`. -/
def toVec (fails : Bool) (json : Bytes) : Redb Bytes := do
  Call.failIf fails ⟨.logs, .write⟩
  pure json

/-- One write inside the transaction. -/
def put (fails : Bool) (w : TableWrite) : Redb Unit := do
  Call.failIf fails ⟨.logs, .write⟩
  modify fun s => { s with txn := s.txn.map fun store => write store w }

/-- `table.range`: the items of the scan, `none` for an error. -/
def range (p : Nat → Bool) : Redb (List (Option Nat)) := do
  Call.failIf F.range ⟨.logs, .read⟩
  let s ← get
  let keys := (s.txn.map fun store => store.logTable.keys p).getD []
  pure (keys.map fun k => if F.scanRow k then .none else some k)

def commit : Redb Unit := do
  Call.failIf F.commit ⟨.logs, .write⟩
  modify fun s => { s with db := s.txn.getD s.db, txn := .none }

/-- `callback.log_io_completed(Ok(()))`. -/
def logIoCompleted : Redb Unit := modify fun s => { s with reports := s.reports ++ [s.db] }

/-- The loop of `append`, from position `pos` of the batch on. -/
def appendRows (D : LogJson) : Nat → List Entry → Redb Unit
  | _, [] => pure ()
  | pos, entry :: entries => do
      let json ← toVec (F.encode pos) (D.entryToVec entry)
      put (F.insertRow pos) (.insertRow entry.logId.index json)
      appendRows D (pos + 1) entries

/-- The loop of `truncate` and `purge`: errors are dropped. -/
def removeRows : List Nat → Redb Unit
  | [] => pure ()
  | key :: keys => do
      Call.ignore (put (F.removeRow key) (.removeRow key))
      removeRows keys

end Steps

/-! ## Calls -/

section Calls

variable (D : LogJson) (F : Faults)

def append (entries : List Entry) : Redb Unit := do
  beginWrite F
  openTable F.openLog
  appendRows F D 0 entries
  commit F
  logIoCompleted

def truncate (logId : LogId) : Redb Unit := do
  beginWrite F
  openTable F.openLog
  let items ← range F fun k => decide (logId.index ≤ k)
  removeRows F (items.filterMap id)
  commit F

def purge (logId : LogId) : Redb Unit := do
  beginWrite F
  openTable F.openLog
  let items ← range F fun k => decide (k ≤ logId.index)
  removeRows F (items.filterMap id)
  -- last_purged goes to the meta table in the same transaction
  openTable F.openMeta
  let json ← toVec (F.encode 0) (D.logIdToVec logId)
  put F.insertMeta (.putMeta META_LAST_PURGED json)
  commit F

/-- `write_meta` encodes before it opens a transaction. -/
def writeMeta (key : String) (value : Bytes) : Redb Unit := do
  let json ← toVec (F.encode 0) value
  beginWrite F
  openTable F.openMeta
  put F.insertMeta (.putMeta key json)
  commit F

def saveVote (vote : Vote) : Redb Unit := writeMeta F META_VOTE (D.voteToVec vote)

def perform : StoreOp → Redb Unit
  | .append entries => append D F entries
  | .truncate logId => truncate F logId
  | .purge logId => purge D F logId
  | .saveVote vote => saveVote D F vote

/-- The answer of a call on a database with this content, and the session it leaves. -/
def outcome (store : PersistentLogStore) (op : StoreOp) : Except StorageError Unit × Session :=
  (perform D F op).exec (Session.start store)

end Calls

/-! ## What a call does -/

/-- An error in the loop of `append`. -/
def Faults.stopsRows (F : Faults) : Nat → List Entry → Bool
  | _, [] => false
  | pos, _ :: entries => F.encode pos || (F.insertRow pos || F.stopsRows (pos + 1) entries)

/-- A step that the call propagates fails. -/
def Faults.stops (F : Faults) : StoreOp → Bool
  | .append entries => F.beginWrite || (F.openLog || (F.stopsRows 0 entries || F.commit))
  | .truncate _ => F.beginWrite || (F.openLog || (F.range || F.commit))
  | .purge _ =>
      F.beginWrite || (F.openLog || (F.range || (F.openMeta || (F.encode 0 ||
        (F.insertMeta || F.commit)))))
  | .saveVote _ => F.encode 0 || (F.beginWrite || (F.openMeta || (F.insertMeta || F.commit)))

/-- The row is read by the scan and removed. -/
def Faults.deletes (F : Faults) (k : Nat) : Bool := !F.scanRow k && !F.removeRow k

/-- The table after `removeRows`: the rows of the range that failed are still there. -/
def Faults.deleteRange (F : Faults) (p : Nat → Bool) (store : PersistentLogStore) :
    PersistentLogStore :=
  { store with logTable := store.logTable.removeAll ((store.logTable.keys p).filter F.deletes) }

/-- What a call commits. -/
def Faults.committed (D : LogJson) (F : Faults) (store : PersistentLogStore) :
    StoreOp → PersistentLogStore
  | .append entries => store.append D entries
  | .truncate logId => F.deleteRange (fun k => decide (logId.index ≤ k)) store
  | .purge logId =>
      write (F.deleteRange (fun k => decide (k ≤ logId.index)) store)
        (.putMeta META_LAST_PURGED (D.logIdToVec logId))
  | .saveVote vote => store.saveVote D vote

/-- The databases at which the call reports completion: `append` reports once, at the end. -/
def reportsOf (after : PersistentLogStore) : StoreOp → List PersistentLogStore
  | .append _ => [after]
  | _ => []

/-- The transaction is open and shows `pending`; the database is still `store`. -/
def Open (store pending : PersistentLogStore) (s : Session) : Prop :=
  s.db = store ∧ s.txn = some pending ∧ s.reports = []

def Untouched (store : PersistentLogStore) (s : Session) : Prop :=
  s.db = store ∧ s.reports = []

/-- The call fails, which needs `stop`, and the database is as it was. -/
def Fails (stop : Prop) (store : PersistentLogStore) (_ : StorageError) (s : Session) : Prop :=
  stop ∧ Untouched store s

section Specs

variable {D : LogJson} {F : Faults} {store pending : PersistentLogStore} {stop : Prop}

theorem Open.untouched {s : Session} (h : Open store pending s) : Untouched store s := ⟨h.1, h.2.2⟩

theorem beginWrite_spec (h : F.beginWrite = true → stop) :
    Call.Triple (Untouched store) (beginWrite F)
      (fun _ s => F.beginWrite = false ∧ Open store store s) (Fails stop store) := by
  refine Call.Triple.bind (Q := fun _ s => F.beginWrite = false ∧ Untouched store s) ?_ fun _ => ?_
  · exact Call.Triple.ofFailIf (fun hok s hs => ⟨hok, hs⟩) fun hfail s hs => ⟨h hfail, hs⟩
  · refine Call.Triple.ofModify fun s hs => ⟨hs.1, hs.2.1, ?_, hs.2.2⟩
    exact congrArg some hs.2.1

theorem openTable_spec {fails : Bool} (h : fails = true → stop) :
    Call.Triple (Open store pending) (openTable fails)
      (fun _ s => fails = false ∧ Open store pending s) (Fails stop store) :=
  Call.Triple.ofFailIf (fun hok _ hs => ⟨hok, hs⟩) fun hfail _ hs => ⟨h hfail, hs.untouched⟩

/-- Encoding does not touch the session, open transaction or not. -/
theorem toVec_spec {fails : Bool} {json : Bytes} {P : Session → Prop} (h : fails = true → stop)
    (hP : ∀ s, P s → Untouched store s) :
    Call.Triple P (toVec fails json)
      (fun out s => (fails = false ∧ out = json) ∧ P s) (Fails stop store) := by
  refine Call.Triple.bind (Q := fun _ s => fails = false ∧ P s) ?_ fun _ => ?_
  · exact Call.Triple.ofFailIf (fun hok s hs => ⟨hok, hs⟩) fun hfail s hs => ⟨h hfail, hP s hs⟩
  · exact Call.Triple.ofPure fun s hs => ⟨⟨hs.1, rfl⟩, hs.2⟩

theorem put_spec {fails : Bool} {w : TableWrite} (h : fails = true → stop) :
    Call.Triple (Open store pending) (put fails w)
      (fun _ s => fails = false ∧ Open store (write pending w) s) (Fails stop store) := by
  refine Call.Triple.bind (Q := fun _ s => fails = false ∧ Open store pending s) ?_ fun _ => ?_
  · exact Call.Triple.ofFailIf (fun hok s hs => ⟨hok, hs⟩) fun hfail s hs => ⟨h hfail, hs.untouched⟩
  · refine Call.Triple.ofModify ?_
    rintro s ⟨hok, hdb, htxn, hreports⟩
    refine ⟨hok, hdb, ?_, hreports⟩
    show s.txn.map (fun store => write store w) = some (write pending w)
    rw [htxn, Option.map_some]

theorem range_spec {p : Nat → Bool} (h : F.range = true → stop) :
    Call.Triple (Open store pending) (range F p)
      (fun items s => (F.range = false ∧
        items.filterMap id = (pending.logTable.keys p).filter fun k => !F.scanRow k) ∧
        Open store pending s) (Fails stop store) := by
  refine Call.Triple.bind (Q := fun _ s => F.range = false ∧ Open store pending s) ?_ fun _ => ?_
  · exact Call.Triple.ofFailIf (fun hok s hs => ⟨hok, hs⟩) fun hfail s hs => ⟨h hfail, hs.untouched⟩
  · refine Call.Triple.bind (Q := fun seen s => F.range = false ∧ seen = s ∧ Open store pending s)
      (Call.Triple.ofGet fun s hs => ⟨hs.1, rfl, hs.2⟩) fun seen => ?_
    refine Call.Triple.ofPure ?_
    rintro s ⟨hok, rfl, hopen⟩
    refine ⟨⟨hok, ?_⟩, hopen⟩
    rw [hopen.2.1, Option.map_some, Option.getD_some, List.filterMap_map]
    rw [← List.filterMap_eq_filter]
    refine List.filterMap_congr fun k _ => ?_
    cases hscan : F.scanRow k <;> simp [hscan, Option.guard]

theorem commit_spec (h : F.commit = true → stop) :
    Call.Triple (Open store pending) (commit F)
      (fun _ s => F.commit = false ∧ s.db = pending ∧ s.reports = []) (Fails stop store) := by
  refine Call.Triple.bind (Q := fun _ s => F.commit = false ∧ Open store pending s) ?_ fun _ => ?_
  · exact Call.Triple.ofFailIf (fun hok s hs => ⟨hok, hs⟩) fun hfail s hs => ⟨h hfail, hs.untouched⟩
  · refine Call.Triple.ofModify ?_
    rintro s ⟨hok, hdb, htxn, hreports⟩
    refine ⟨hok, ?_, hreports⟩
    show s.txn.getD s.db = pending
    rw [htxn, Option.getD_some]

/-- The loop of `append` puts the rows of the batch one by one. -/
theorem appendRows_spec (entries : List Entry) (pos : Nat)
    (h : F.stopsRows pos entries = true → stop) :
    Call.Triple (Open store pending) (appendRows F D pos entries)
      (fun _ s => F.stopsRows pos entries = false ∧ Open store (pending.append D entries) s)
      (Fails stop store) := by
  induction entries generalizing pos pending with
  | nil => exact Call.Triple.ofPure fun s hs => ⟨rfl, hs⟩
  | cons entry entries ih =>
    simp only [Faults.stopsRows, Bool.or_eq_true, Bool.or_eq_false_iff] at h ⊢
    refine Call.Triple.bind (toVec_spec (fun hfail => h (.inl hfail)) fun _ hs => hs.untouched)
      fun json => Call.Triple.given ?_
    rintro ⟨hencode, rfl⟩
    refine Call.Triple.bind (put_spec fun hfail => h (.inr (.inl hfail)))
      fun _ => Call.Triple.given fun hinsert => ?_
    refine Call.Triple.conseq (ih (pos + 1) fun hfail => h (.inr (.inr hfail))) fun _ s hs => ?_
    exact ⟨⟨hencode, hinsert, hs.1⟩, hs.2⟩

/-- The loop of `truncate` and `purge` removes what it can and does not fail. -/
theorem removeRows_spec (keys : List Nat) :
    Call.Triple (Open store pending) (removeRows F keys)
      (fun _ => Open store
        { pending with
          logTable := pending.logTable.removeAll (keys.filter fun k => !F.removeRow k) })
      (Fails stop store) := by
  induction keys generalizing pending with
  | nil => exact Call.Triple.ofPure fun s hs => hs
  | cons key keys ih =>
    -- the row goes unless its removal fails
    let next := if F.removeRow key then pending else write pending (.removeRow key)
    have hremove : Call.Triple (Open store pending)
        (Call.ignore (put (F.removeRow key) (.removeRow key)))
        (fun _ => Open store next) (Fails stop store) := by
      refine Call.Triple.ignore ?_
      refine Call.Triple.bind (Q := fun _ s => F.removeRow key = false ∧ Open store pending s)
        ?_ fun _ => ?_
      · refine Call.Triple.ofFailIf (fun hok s hs => ⟨hok, hs⟩) fun hfail s hs => ?_
        simpa only [next, hfail, if_true] using hs
      · refine Call.Triple.ofModify ?_
        rintro s ⟨hok, hdb, htxn, hreports⟩
        refine ⟨hdb, ?_, hreports⟩
        show s.txn.map (fun store => write store (.removeRow key)) = some next
        simp only [htxn, Option.map_some, next, hok, Bool.false_eq_true, if_false]
    refine Call.Triple.bind hremove fun _ => ?_
    have hkeys : { pending with
          logTable := pending.logTable.removeAll ((key :: keys).filter fun k => !F.removeRow k) } =
        { next with
          logTable := next.logTable.removeAll (keys.filter fun k => !F.removeRow k) } := by
      cases hfail : F.removeRow key <;> simp [next, hfail, write, Table.removeAll]
    rw [hkeys]
    exact ih

/-- Collecting the keys of a range and removing them. -/
theorem deleteRange_spec {p : Nat → Bool} (h : F.range = true → stop) {k : Unit → Redb Unit}
    {R : Unit → Session → Prop}
    (hk : F.range = false → Call.Triple (Open store (F.deleteRange p pending)) (k ()) R
      (Fails stop store)) :
    Call.Triple (Open store pending)
      (range F p >>= fun items => removeRows F (items.filterMap id) >>= k) R
      (Fails stop store) := by
  refine Call.Triple.bind (range_spec h) fun items => Call.Triple.given ?_
  rintro ⟨hrange, hitems⟩
  refine Call.Triple.bind (removeRows_spec _) fun _ => ?_
  rw [hitems, List.filter_filter]
  have hdeletes : ((pending.logTable.keys p).filter fun k => !F.removeRow k && !F.scanRow k) =
      (pending.logTable.keys p).filter F.deletes := by
    refine List.filter_congr fun k _ => ?_
    exact Bool.and_comm _ _
  rw [hdeletes]
  exact hk hrange

/-! ## Calls as a whole -/

theorem append_spec (entries : List Entry) :
    Call.Triple (Untouched store) (append D F entries)
      (fun _ s => F.stops (.append entries) = false ∧ s.db = store.append D entries ∧
        s.reports = [s.db])
      (Fails (F.stops (.append entries) = true) store) := by
  simp only [Faults.stops, Bool.or_eq_true, Bool.or_eq_false_iff]
  refine Call.Triple.bind (beginWrite_spec .inl) fun _ => Call.Triple.given fun hbegin => ?_
  refine Call.Triple.bind (openTable_spec fun h => .inr (.inl h))
    fun _ => Call.Triple.given fun hopen => ?_
  refine Call.Triple.bind (appendRows_spec entries 0 fun h => .inr (.inr (.inl h)))
    fun _ => Call.Triple.given fun hrows => ?_
  refine Call.Triple.bind (commit_spec fun h => .inr (.inr (.inr h)))
    fun _ => Call.Triple.given fun hcommit => ?_
  refine Call.Triple.ofModify ?_
  rintro s ⟨hdb, hreports⟩
  exact ⟨⟨hbegin, hopen, hrows, hcommit⟩, hdb, by rw [hreports, List.nil_append]⟩

theorem truncate_spec (logId : LogId) :
    Call.Triple (Untouched store) (truncate F logId)
      (fun _ s => F.stops (.truncate logId) = false ∧
        s.db = F.committed D store (.truncate logId) ∧ s.reports = [])
      (Fails (F.stops (.truncate logId) = true) store) := by
  simp only [Faults.stops, Bool.or_eq_true, Bool.or_eq_false_iff]
  refine Call.Triple.bind (beginWrite_spec .inl) fun _ => Call.Triple.given fun hbegin => ?_
  refine Call.Triple.bind (openTable_spec fun h => .inr (.inl h))
    fun _ => Call.Triple.given fun hopen => ?_
  refine deleteRange_spec (fun h => .inr (.inr (.inl h))) fun hrange => ?_
  refine Call.Triple.conseq (commit_spec fun h => .inr (.inr (.inr h))) fun _ s hs => ?_
  exact ⟨⟨hbegin, hopen, hrange, hs.1⟩, hs.2⟩

theorem purge_spec (logId : LogId) :
    Call.Triple (Untouched store) (purge D F logId)
      (fun _ s => F.stops (.purge logId) = false ∧
        s.db = F.committed D store (.purge logId) ∧ s.reports = [])
      (Fails (F.stops (.purge logId) = true) store) := by
  simp only [Faults.stops, Bool.or_eq_true, Bool.or_eq_false_iff]
  refine Call.Triple.bind (beginWrite_spec .inl) fun _ => Call.Triple.given fun hbegin => ?_
  refine Call.Triple.bind (openTable_spec fun h => .inr (.inl h))
    fun _ => Call.Triple.given fun hopen => ?_
  refine deleteRange_spec (fun h => .inr (.inr (.inl h))) fun hrange => ?_
  refine Call.Triple.bind (openTable_spec fun h => .inr (.inr (.inr (.inl h))))
    fun _ => Call.Triple.given fun hmeta => ?_
  refine Call.Triple.bind
    (toVec_spec (fun h => .inr (.inr (.inr (.inr (.inl h))))) fun _ hs => hs.untouched)
    fun json => Call.Triple.given ?_
  rintro ⟨hencode, rfl⟩
  refine Call.Triple.bind (put_spec fun h => .inr (.inr (.inr (.inr (.inr (.inl h))))))
    fun _ => Call.Triple.given fun hinsert => ?_
  refine Call.Triple.conseq
    (commit_spec fun h => .inr (.inr (.inr (.inr (.inr (.inr h)))))) fun _ s hs => ?_
  exact ⟨⟨hbegin, hopen, hrange, hmeta, hencode, hinsert, hs.1⟩, hs.2⟩

theorem saveVote_spec (vote : Vote) :
    Call.Triple (Untouched store) (saveVote D F vote)
      (fun _ s => F.stops (.saveVote vote) = false ∧ s.db = store.saveVote D vote ∧ s.reports = [])
      (Fails (F.stops (.saveVote vote) = true) store) := by
  simp only [Faults.stops, Bool.or_eq_true, Bool.or_eq_false_iff]
  refine Call.Triple.bind (toVec_spec .inl fun _ hs => hs) fun json => Call.Triple.given ?_
  rintro ⟨hencode, rfl⟩
  refine Call.Triple.bind (beginWrite_spec fun h => .inr (.inl h))
    fun _ => Call.Triple.given fun hbegin => ?_
  refine Call.Triple.bind (openTable_spec fun h => .inr (.inr (.inl h)))
    fun _ => Call.Triple.given fun hopen => ?_
  refine Call.Triple.bind (put_spec fun h => .inr (.inr (.inr (.inl h))))
    fun _ => Call.Triple.given fun hinsert => ?_
  refine Call.Triple.conseq (commit_spec fun h => .inr (.inr (.inr (.inr h)))) fun _ s hs => ?_
  exact ⟨⟨hencode, hbegin, hopen, hinsert, hs.1⟩, hs.2⟩

/-- **What a call does**: it fails exactly when a step it propagates does, and then the database is
untouched; otherwise it commits `F.committed`. -/
theorem perform_spec (op : StoreOp) :
    Call.Triple (Untouched store) (perform D F op)
      (fun _ s => F.stops op = false ∧ s.db = F.committed D store op ∧
        s.reports = reportsOf s.db op)
      (Fails (F.stops op = true) store) := by
  cases op with
  | append entries => exact append_spec entries
  | truncate logId => exact truncate_spec logId
  | purge logId => exact purge_spec logId
  | saveVote vote => exact saveVote_spec vote

theorem outcome_cases (D : LogJson) (F : Faults) (store : PersistentLogStore) (op : StoreOp) :
    (∃ s, outcome D F store op = (.ok (), s) ∧ F.stops op = false ∧
      s.db = F.committed D store op ∧ s.reports = reportsOf s.db op) ∨
    ∃ e s, outcome D F store op = (.error e, s) ∧ F.stops op = true ∧
      s.db = store ∧ s.reports = [] := by
  have hspec : Call.Triple (Untouched store) (perform D F op) _ _ := perform_spec op
  cases hexec : outcome D F store op with
  | mk answer s =>
    cases answer with
    | ok =>
      exact .inl ⟨s, rfl, hspec.of_exec_ok ⟨rfl, rfl⟩ hexec⟩
    | error e =>
      exact .inr ⟨e, s, rfl, hspec.of_exec_error ⟨rfl, rfl⟩ hexec⟩

end Specs

/-! ## No errors -/

theorem stopsRows_none (entries : List Entry) (pos : Nat) :
    Faults.none.stopsRows pos entries = false := by
  induction entries generalizing pos with
  | nil => rfl
  | cons entry entries ih => exact ih (pos + 1)

/-- **Without errors a call is the operation of the store.** -/
theorem perform_noFaults (D : LogJson) (store : PersistentLogStore) (op : StoreOp) :
    ∃ s, outcome D Faults.none store op = (.ok (), s) ∧ s.db = store.run D op := by
  have hkeys : ∀ keys : List Nat, keys.filter Faults.none.deletes = keys :=
    fun keys => List.filter_eq_self.mpr fun _ _ => rfl
  have hstops : Faults.none.stops op = false := by
    cases op with
    | append entries => simp only [Faults.stops, stopsRows_none]; rfl
    | truncate logId => rfl
    | purge logId => rfl
    | saveVote vote => rfl
  have hcommitted : Faults.none.committed D store op = store.run D op := by
    cases op with
    | append entries => rfl
    | truncate logId => simp only [Faults.committed, Faults.deleteRange, hkeys]; rfl
    | purge logId => simp only [Faults.committed, Faults.deleteRange, hkeys]; rfl
    | saveVote vote => rfl
  rcases outcome_cases D Faults.none store op with ⟨s, hs, -, hdb, -⟩ | ⟨e, s, -, hstop, -⟩
  · exact ⟨s, hs, hdb.trans hcommitted⟩
  · rw [hstops] at hstop
    cases hstop

/-! ## Failed calls -/

variable {D : LogJson}

/-- Reading one index returns the entry the store holds there. -/
theorem tryGetLogEntries_single {store : PersistentLogStore} {e : Entry} (h : store.Holds D e) :
    store.tryGetLogEntries D (fun k => k == e.logId.index) = .ok [e] := by
  have hrows : (store.logTable.filter fun k => k == e.logId.index).rows =
      [(e.logId.index, D.entryToVec e)] := by
    refine Lists.eq_of_increasing Prod.fst (Table.sorted _) (List.pairwise_singleton _ _) ?_
    intro x
    rw [Table.mem_filter, List.mem_singleton]
    constructor
    · rintro ⟨hx, hkey⟩
      exact store.logTable.row_unique hx h (by simpa using hkey)
    · rintro rfl
      exact ⟨h, by simp⟩
  rw [PersistentLogStore.tryGetLogEntries, Table.range, hrows]
  simp only [List.map_cons, List.map_nil, PersistentLogStore.decodeRows, D.entry_roundtrip]

/-- An appended batch holds, for each index, its last entry with this index. -/
theorem holds_append_last {entries before after : List Entry} {e : Entry}
    (store : PersistentLogStore) (hsplit : entries = before ++ e :: after)
    (hlast : ∀ e' ∈ after, e'.logId.index ≠ e.logId.index) :
    (store.append D entries).Holds D e := by
  have hkeep : ∀ (after : List Entry) (store : PersistentLogStore), store.Holds D e →
      (∀ e' ∈ after, e'.logId.index ≠ e.logId.index) → (store.append D after).Holds D e := by
    intro after
    induction after with
    | nil => exact fun store h _ => h
    | cons e' after ih =>
      intro store h hne
      refine ih { store with logTable := store.logTable.insert e'.logId.index (D.entryToVec e') }
        ?_ fun e'' he'' => hne e'' (List.mem_cons_of_mem _ he'')
      refine (store.logTable.mem_insert _ _ _).mpr (.inr ⟨?_, h⟩)
      exact (hne e' List.mem_cons_self).symm
  have hinsert : store.append D entries =
      ({ store.append D before with
        logTable := (store.append D before).logTable.insert e.logId.index (D.entryToVec e) } :
          PersistentLogStore).append D after := by
    rw [hsplit]
    simp only [PersistentLogStore.append, List.foldl_append, List.foldl_cons]
  rw [hinsert]
  refine hkeep after _ ?_ hlast
  exact (Table.mem_insert _ _ _ _).mpr (.inl rfl)

/-- **Failed log writes are all-or-nothing.**  A call that returns `Err` leaves the database, and so
every later read, as it was.  `append` reports completion at most once, only with `Ok`, and at a
database in which every index of the batch reads back as the batch left it. -/
theorem failed_write_atomic (D : LogJson) (F : Faults) (store : PersistentLogStore) (op : StoreOp) :
    (∀ e, (outcome D F store op).1 = .error e →
      (outcome D F store op).2.db = store ∧
      (outcome D F store op).2.db.readVote D = store.readVote D ∧
      (outcome D F store op).2.db.getLogState D = store.getLogState D ∧
      ∀ range, (outcome D F store op).2.db.tryGetLogEntries D range =
        store.tryGetLogEntries D range) ∧
    ∀ entries, op = .append entries →
      (outcome D F store op).2.reports.length ≤ 1 ∧
      (∀ e, (outcome D F store op).1 = .error e → (outcome D F store op).2.reports = []) ∧
      ∀ seen ∈ (outcome D F store op).2.reports,
        (outcome D F store op).1 = .ok () ∧ seen = (outcome D F store op).2.db ∧
        seen = store.append D entries ∧
        ∀ before e after, entries = before ++ e :: after →
          (∀ e' ∈ after, e'.logId.index ≠ e.logId.index) →
          seen.tryGetLogEntries D (fun k => k == e.logId.index) = .ok [e] := by
  rcases outcome_cases D F store op with ⟨s, hs, -, hdb, hreports⟩ | ⟨e, s, hs, -, hdb, hreports⟩
  · rw [hs]
    refine ⟨fun e herr => (by cases herr), ?_⟩
    rintro entries rfl
    refine ⟨by rw [hreports]; exact Nat.le_refl 1, fun e herr => (by cases herr), ?_⟩
    intro seen hseen
    rw [hreports] at hseen
    obtain rfl : seen = s.db := List.mem_singleton.mp hseen
    refine ⟨rfl, rfl, hdb, ?_⟩
    intro before e after hsplit hlast
    refine tryGetLogEntries_single ?_
    rw [hdb]
    exact holds_append_last store hsplit hlast
  · rw [hs]
    refine ⟨fun _ _ => ?_, ?_⟩
    · show s.db = store ∧ _
      rw [hdb]
      exact ⟨rfl, rfl, rfl, fun _ => rfl⟩
    · rintro entries rfl
      show s.reports.length ≤ 1 ∧ _
      rw [hreports]
      refine ⟨Nat.zero_le 1, fun _ _ => rfl, ?_⟩
      intro seen hseen
      cases hseen

/-- Entries 1 and 2 of a log. -/
def twoEntries : List Entry := [⟨⟨⟨1, 1⟩, 1⟩, .blank⟩, ⟨⟨⟨1, 1⟩, 2⟩, .blank⟩]

/-- The second insert of a batch fails: the first one is not visible, and nothing is reported.
Without the error both entries are there when completion is reported. -/
theorem second_insert_fails :
    (outcome logJson { Faults.none with insertRow := (· == 1) } PersistentLogStore.new
      (.append twoEntries)).1 = .error ⟨.logs, .write⟩ ∧
    (outcome logJson { Faults.none with insertRow := (· == 1) } PersistentLogStore.new
      (.append twoEntries)).2.db = PersistentLogStore.new ∧
    (outcome logJson { Faults.none with insertRow := (· == 1) } PersistentLogStore.new
      (.append twoEntries)).2.reports = [] ∧
    (PersistentLogStore.new.append logJson twoEntries).tryGetLogEntries logJson (fun k => k == 1) =
      .ok [⟨⟨⟨1, 1⟩, 1⟩, .blank⟩] := by
  have hfailed := failed_write_atomic logJson { Faults.none with insertRow := (· == 1) }
    PersistentLogStore.new (.append twoEntries)
  have hdone := failed_write_atomic logJson Faults.none PersistentLogStore.new (.append twoEntries)
  refine ⟨rfl, (hfailed.1 _ rfl).1, (hfailed.2 twoEntries rfl).2.1 _ rfl, ?_⟩
  exact ((hdone.2 twoEntries rfl).2.2 _ (List.mem_singleton.mpr rfl)).2.2.2 []
    ⟨⟨⟨1, 1⟩, 1⟩, .blank⟩ [⟨⟨⟨1, 1⟩, 2⟩, .blank⟩] rfl (by decide)

/-! ## Deletions -/

/-- Some row that the store has in the range is not read by the scan or not removed. -/
def Faults.LosesRow (F : Faults) (store : PersistentLogStore) (p : Nat → Bool) : Prop :=
  ∃ row ∈ store.logTable.rows, p row.1 = true ∧ (F.scanRow row.1 = true ∨ F.removeRow row.1 = true)

/-- Nothing from the index on is left, everything below it is. -/
def Truncated (store after : PersistentLogStore) (logId : LogId) : Prop :=
  (∀ x ∈ after.logTable.rows, ¬ logId.index ≤ x.1) ∧
  ∀ x : Nat × Bytes, x.1 < logId.index → (x ∈ after.logTable.rows ↔ x ∈ store.logTable.rows)

/-- Nothing up to the index is left, everything above it is, and the mark is set. -/
def Purged (D : LogJson) (store after : PersistentLogStore) (logId : LogId) : Prop :=
  (∀ x ∈ after.logTable.rows, ¬ x.1 ≤ logId.index) ∧
  (∀ x : Nat × Bytes, logId.index < x.1 → (x ∈ after.logTable.rows ↔ x ∈ store.logTable.rows)) ∧
  after.lastPurged D = .ok (some logId)

section Deletions

variable {F : Faults} {store : PersistentLogStore} {p : Nat → Bool}

theorem mem_deleteRange (x : Nat × Bytes) :
    x ∈ (F.deleteRange p store).logTable.rows ↔
      x ∈ store.logTable.rows ∧ (p x.1 = true → F.deletes x.1 = false) := by
  rw [Faults.deleteRange, Table.mem_removeAll, List.mem_filter, Table.keys, List.mem_map]
  refine and_congr_right fun hx => ?_
  constructor
  · intro hkept hp
    rw [← Bool.not_eq_true]
    exact fun hdel => hkept ⟨⟨x, (Table.mem_filter _ _ _).mpr ⟨hx, hp⟩, rfl⟩, hdel⟩
  · rintro hkept ⟨⟨y, hy, hkey⟩, hdel⟩
    rw [Table.mem_filter, hkey] at hy
    rw [hkept hy.2] at hdel
    cases hdel

/-- Outside the range nothing changes. -/
theorem mem_deleteRange_outside {x : Nat × Bytes} (hx : p x.1 = false) :
    x ∈ (F.deleteRange p store).logTable.rows ↔ x ∈ store.logTable.rows := by
  rw [mem_deleteRange, hx]
  simp

/-- The range is empty afterwards exactly when no row of it was lost on the way. -/
theorem deleteRange_complete_iff :
    (∀ x ∈ (F.deleteRange p store).logTable.rows, ¬ p x.1 = true) ↔ ¬ F.LosesRow store p := by
  constructor
  · rintro hgone ⟨row, hrow, hp, hfail⟩
    refine hgone row ((mem_deleteRange row).mpr ⟨hrow, fun _ => ?_⟩) hp
    rcases hfail with hscan | hremove
    · rw [Faults.deletes, hscan]; rfl
    · rw [Faults.deletes, hremove, Bool.not_true, Bool.and_false]
  · intro hclean x hx hp
    obtain ⟨hrow, hkept⟩ := (mem_deleteRange x).mp hx
    have hdel := hkept hp
    rw [Faults.deletes, Bool.and_eq_false_iff, Bool.not_eq_false', Bool.not_eq_false'] at hdel
    exact hclean ⟨x, hrow, hp, hdel⟩

end Deletions

/-- **When a deletion that reports success is complete.**  For `truncate` and for `purge`: exactly
when the call stops on an error it propagates, or no row of its range fails in the scan or in its
removal. -/
theorem deletion_complete_iff (D : LogJson) (F : Faults) (store : PersistentLogStore)
    (logId : LogId) :
    (((outcome D F store (.truncate logId)).1 = .ok () →
        Truncated store (outcome D F store (.truncate logId)).2.db logId) ↔
      F.stops (.truncate logId) = true ∨ ¬ F.LosesRow store fun k => decide (logId.index ≤ k)) ∧
    (((outcome D F store (.purge logId)).1 = .ok () →
        Purged D store (outcome D F store (.purge logId)).2.db logId) ↔
      F.stops (.purge logId) = true ∨ ¬ F.LosesRow store fun k => decide (k ≤ logId.index)) := by
  constructor
  · rcases outcome_cases D F store (.truncate logId) with
      ⟨s, hs, hstop, hdb, -⟩ | ⟨e, s, hs, hstop, -⟩
    · rw [hs, hstop]
      simp only [forall_const, Bool.false_eq_true, false_or, Truncated, hdb]
      rw [← deleteRange_complete_iff]
      simp only [decide_eq_true_eq]
      refine and_iff_left fun x hx => mem_deleteRange_outside ?_
      exact decide_eq_false (Nat.not_le.mpr hx)
    · rw [hs]
      exact ⟨fun _ => .inl hstop, fun _ herr => by cases herr⟩
  · rcases outcome_cases D F store (.purge logId) with
      ⟨s, hs, hstop, hdb, -⟩ | ⟨e, s, hs, hstop, -⟩
    · rw [hs, hstop]
      simp only [forall_const, Bool.false_eq_true, false_or, Purged, hdb]
      rw [← deleteRange_complete_iff]
      simp only [decide_eq_true_eq]
      refine and_iff_left ⟨fun x hx => mem_deleteRange_outside ?_, ?_⟩
      · exact decide_eq_false (Nat.not_le.mpr hx)
      · simp [Faults.committed, write, PersistentLogStore.lastPurged, PersistentLogStore.readMeta,
          D.logId_roundtrip]
    · rw [hs]
      exact ⟨fun _ => .inl hstop, fun _ herr => by cases herr⟩

/-- With an error outside the range only, the truncation is complete. -/
theorem truncate_error_outside :
    Truncated (PersistentLogStore.new.append logJson twoEntries)
      (outcome logJson { Faults.none with removeRow := (· == 1) }
        (PersistentLogStore.new.append logJson twoEntries) (.truncate ⟨⟨1, 1⟩, 2⟩)).2.db
      ⟨⟨1, 1⟩, 2⟩ := by
  refine (deletion_complete_iff logJson { Faults.none with removeRow := (· == 1) }
    (PersistentLogStore.new.append logJson twoEntries) ⟨⟨1, 1⟩, 2⟩).1.mpr (.inr ?_) rfl
  rintro ⟨row, -, hrange, hscan | hremove⟩
  · cases hscan
  · have hkey : row.1 = 1 := by simpa using hremove
    rw [hkey] at hrange
    exact absurd hrange (by decide)

/-- Entries 1 and 2 are stored.  `truncate` at 1 cannot remove entry 2 and returns `Ok`: entry 2
survives.  `purge` up to 2 cannot read row 1 in its scan and returns `Ok`: entry 1 survives below
the mark. -/
theorem deletion_swallows_errors :
    (outcome logJson { Faults.none with removeRow := (· == 2) }
      (PersistentLogStore.new.append logJson twoEntries) (.truncate ⟨⟨1, 1⟩, 1⟩)).1 = .ok () ∧
    (outcome logJson { Faults.none with removeRow := (· == 2) }
      (PersistentLogStore.new.append logJson twoEntries) (.truncate ⟨⟨1, 1⟩, 1⟩)).2.db.logTable.rows.map
        Prod.fst = [2] ∧
    (outcome logJson { Faults.none with scanRow := (· == 1) }
      (PersistentLogStore.new.append logJson twoEntries) (.purge ⟨⟨1, 1⟩, 2⟩)).1 = .ok () ∧
    (outcome logJson { Faults.none with scanRow := (· == 1) }
      (PersistentLogStore.new.append logJson twoEntries) (.purge ⟨⟨1, 1⟩, 2⟩)).2.db.logTable.rows.map
        Prod.fst = [1] ∧
    ¬ ∀ (D : LogJson) (F : Faults) (store : PersistentLogStore) (logId : LogId),
      ((outcome D F store (.truncate logId)).1 = .ok () →
        Truncated store (outcome D F store (.truncate logId)).2.db logId) ∧
      ((outcome D F store (.purge logId)).1 = .ok () →
        Purged D store (outcome D F store (.purge logId)).2.db logId) := by
  have hrows : (outcome logJson { Faults.none with removeRow := (· == 2) }
      (PersistentLogStore.new.append logJson twoEntries)
        (.truncate ⟨⟨1, 1⟩, 1⟩)).2.db.logTable.rows.map Prod.fst = [2] := by decide
  refine ⟨rfl, hrows, rfl, by decide, ?_⟩
  intro hclaim
  have hgone := ((hclaim logJson { Faults.none with removeRow := (· == 2) }
    (PersistentLogStore.new.append logJson twoEntries) ⟨⟨1, 1⟩, 1⟩).1 rfl).1
  obtain ⟨row, hrow, hkey⟩ := List.mem_map.mp (hrows ▸ List.mem_singleton_self 2)
  exact hgone row hrow (by rw [hkey]; decide)

end RaftTimeDB.StoreFaults
