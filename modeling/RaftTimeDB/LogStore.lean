import RaftTimeDB.StateMachine
import RaftTimeDB.Lib.Table

/-!
# The persistent log store

Model of `crates/proxy/src/raft/persistent_log_store.rs` for a database that does not fail: two
tables, log rows by index and meta rows by name, both holding JSON text.  A transaction is the
change it commits.

* `serde_json` at entries, votes and log ids is the parameter `LogJson`, assumed to round-trip.
* A range argument is its membership test on indices.

Principal results: `mem_append_rows`, `mem_truncate_rows`, `mem_purge_rows` — which rows an operation
leaves; `tryGetLogEntries_spec` — what reading a range returns.
-/

set_option autoImplicit false

namespace RaftTimeDB

structure Vote where
  leaderId : LeaderId
  committed : Bool
  deriving DecidableEq, Repr

/-- `serde_json` at the types the log store keeps. -/
structure LogJson where
  entryToVec : Entry → Bytes
  entryFromSlice : Bytes → Option Entry
  voteToVec : Vote → Bytes
  voteFromSlice : Bytes → Option Vote
  logIdToVec : LogId → Bytes
  logIdFromSlice : Bytes → Option LogId
  entry_roundtrip : ∀ e, entryFromSlice (entryToVec e) = some e
  vote_roundtrip : ∀ v, voteFromSlice (voteToVec v) = some v
  logId_roundtrip : ∀ id, logIdFromSlice (logIdToVec id) = some id

def META_VOTE : String := "vote"

def META_LAST_PURGED : String := "last_purged"

structure LogState where
  lastPurgedLogId : Option LogId
  lastLogId : Option LogId
  deriving DecidableEq, Repr

structure PersistentLogStore where
  logTable : Table Bytes
  metaTable : Finmap (fun _ : String => Bytes)

namespace PersistentLogStore

/-- `PersistentLogStore::new` on a data directory without a database. -/
def new : PersistentLogStore := ⟨Table.empty, ∅⟩

def readMeta {α : Type} (fromSlice : Bytes → Option α) (store : PersistentLogStore) (key : String) :
    Except StorageError (Option α) :=
  match store.metaTable.lookup key with
  | some bytes =>
      match fromSlice bytes with
      | some val => .ok (some val)
      | none => .error ⟨.logs, .read⟩
  | none => .ok none

def writeMeta {α : Type} (toVec : α → Bytes) (store : PersistentLogStore) (key : String)
    (value : α) : PersistentLogStore :=
  { store with metaTable := store.metaTable.insert key (toVec value) }

/-- Decode rows in order; the first row that does not decode ends the read with an error. -/
def decodeRows (D : LogJson) : List Bytes → Except StorageError (List Entry)
  | [] => .ok []
  | bytes :: rest =>
      match D.entryFromSlice bytes with
      | none => .error ⟨.logs, .read⟩
      | some entry =>
          match decodeRows D rest with
          | .ok entries => .ok (entry :: entries)
          | .error e => .error e

def tryGetLogEntries (D : LogJson) (store : PersistentLogStore) (range : Nat → Bool) :
    Except StorageError (List Entry) :=
  decodeRows D (store.logTable.range range)

def lastPurged (D : LogJson) (store : PersistentLogStore) : Except StorageError (Option LogId) :=
  store.readMeta D.logIdFromSlice META_LAST_PURGED

def getLogState (D : LogJson) (store : PersistentLogStore) : Except StorageError LogState :=
  match store.lastPurged D with
  | .error e => .error e
  | .ok lastPurged =>
      match store.logTable.last with
      | none => .ok ⟨lastPurged, none⟩
      | some (_, bytes) =>
          match D.entryFromSlice bytes with
          | some entry => .ok ⟨lastPurged, some entry.logId⟩
          | none => .error ⟨.logs, .read⟩

def saveVote (D : LogJson) (store : PersistentLogStore) (vote : Vote) : PersistentLogStore :=
  store.writeMeta D.voteToVec META_VOTE vote

def readVote (D : LogJson) (store : PersistentLogStore) : Except StorageError (Option Vote) :=
  store.readMeta D.voteFromSlice META_VOTE

def append (D : LogJson) (store : PersistentLogStore) (entries : List Entry) :
    PersistentLogStore :=
  { store with
    logTable := entries.foldl (fun t e => t.insert e.logId.index (D.entryToVec e)) store.logTable }

/-- `truncate`: remove the rows from the given index on. -/
def truncate (store : PersistentLogStore) (logId : LogId) : PersistentLogStore :=
  let keys := store.logTable.keys fun k => decide (logId.index ≤ k)
  { store with logTable := store.logTable.removeAll keys }

/-- `purge`: remove the rows up to the given index and record the id, in one transaction. -/
def purge (D : LogJson) (store : PersistentLogStore) (logId : LogId) : PersistentLogStore :=
  let keys := store.logTable.keys fun k => decide (k ≤ logId.index)
  { logTable := store.logTable.removeAll keys
    metaTable := store.metaTable.insert META_LAST_PURGED (D.logIdToVec logId) }

/-! ## Rows -/

variable {D : LogJson} {store : PersistentLogStore}

/-- The store holds this entry under its index. -/
def Holds (D : LogJson) (store : PersistentLogStore) (e : Entry) : Prop :=
  (e.logId.index, D.entryToVec e) ∈ store.logTable.rows

/-- Every row is the text of an entry with the row's index. -/
def WellFormed (D : LogJson) (store : PersistentLogStore) : Prop :=
  ∀ k bytes, (k, bytes) ∈ store.logTable.rows → ∃ e, e.logId.index = k ∧ D.entryToVec e = bytes

theorem WellFormed.new : WellFormed D PersistentLogStore.new := by
  intro k bytes h
  cases h

/-- Equal rows carry equal texts, and texts decode. -/
theorem row_inj {e e' : Entry}
    (h : (e.logId.index, D.entryToVec e) = (e'.logId.index, D.entryToVec e')) : e = e' := by
  have htext := congrArg (fun x : Nat × Bytes => D.entryFromSlice x.2) h
  simpa [D.entry_roundtrip] using htext

/-- Appended entries replace the rows of their indices. -/
theorem mem_append_rows {entries : List Entry}
    (hinc : entries.Pairwise fun a b => a.logId.index < b.logId.index) (x : Nat × Bytes) :
    x ∈ (store.append D entries).logTable.rows ↔
      (∃ e ∈ entries, x = (e.logId.index, D.entryToVec e)) ∨
        (x ∈ store.logTable.rows ∧ ∀ e ∈ entries, x.1 ≠ e.logId.index) := by
  induction entries generalizing store with
  | nil => simp [append]
  | cons e es ih =>
    rw [List.pairwise_cons] at hinc
    have hcons : (store.append D (e :: es)) =
        ({ store with logTable := store.logTable.insert e.logId.index (D.entryToVec e) } :
          PersistentLogStore).append D es := rfl
    rw [hcons, ih hinc.2, Table.mem_insert]
    simp only [List.mem_cons, exists_eq_or_imp, forall_eq_or_imp]
    constructor
    · rintro (hnew | ⟨rfl | ⟨hne, hold⟩, hrest⟩)
      · exact Or.inl (Or.inr hnew)
      · exact Or.inl (Or.inl rfl)
      · exact Or.inr ⟨hold, hne, hrest⟩
    · rintro ((rfl | hnew) | ⟨hold, hne, hrest⟩)
      · exact Or.inr ⟨Or.inl rfl, fun e' he' => Nat.ne_of_lt (hinc.1 e' he')⟩
      · exact Or.inl hnew
      · exact Or.inr ⟨Or.inr ⟨hne, hold⟩, hrest⟩

/-- An empty store holds what is appended to it. -/
theorem holds_append_new {entries : List Entry}
    (hinc : entries.Pairwise fun a b => a.logId.index < b.logId.index) (e : Entry) :
    (PersistentLogStore.new.append D entries).Holds D e ↔ e ∈ entries := by
  rw [Holds, mem_append_rows hinc]
  constructor
  · rintro (⟨e', he', heq⟩ | ⟨hold, _⟩)
    · rwa [row_inj heq]
    · cases hold
  · exact fun he => Or.inl ⟨e, he, rfl⟩

theorem mem_truncate_rows (logId : LogId) (x : Nat × Bytes) :
    x ∈ (store.truncate logId).logTable.rows ↔ x ∈ store.logTable.rows ∧ x.1 < logId.index := by
  rw [truncate, Table.mem_removeAll_keys]
  simp

theorem mem_purge_rows (logId : LogId) (x : Nat × Bytes) :
    x ∈ (store.purge D logId).logTable.rows ↔ x ∈ store.logTable.rows ∧ logId.index < x.1 := by
  rw [purge, Table.mem_removeAll_keys]
  simp

theorem WellFormed.append (h : WellFormed D store) (entries : List Entry) :
    WellFormed D (store.append D entries) := by
  induction entries generalizing store with
  | nil => exact h
  | cons e es ih =>
    refine @ih { store with
      logTable := store.logTable.insert e.logId.index (D.entryToVec e) } ?_
    intro k bytes hrow
    rcases (store.logTable.mem_insert _ _ _).mp hrow with heq | ⟨_, hold⟩
    · cases heq
      exact ⟨e, rfl, rfl⟩
    · exact h k bytes hold

theorem WellFormed.truncate (h : WellFormed D store) (logId : LogId) :
    WellFormed D (store.truncate logId) :=
  fun k bytes hrow => h k bytes ((mem_truncate_rows logId _).mp hrow).1

theorem WellFormed.purge (h : WellFormed D store) (logId : LogId) :
    WellFormed D (store.purge D logId) :=
  fun k bytes hrow => h k bytes ((mem_purge_rows logId _).mp hrow).1

/-! ## Reading -/

/-- Rows of entries decode to these entries, in the order of the rows. -/
theorem decodeRows_spec {rows : List (Nat × Bytes)}
    (hsorted : rows.Pairwise fun a b => a.1 < b.1)
    (hwf : ∀ r ∈ rows, ∃ e : Entry, e.logId.index = r.1 ∧ D.entryToVec e = r.2) :
    ∃ entries, decodeRows D (rows.map Prod.snd) = .ok entries ∧
      entries.Pairwise (fun a b => a.logId.index < b.logId.index) ∧
      ∀ e, e ∈ entries ↔ (e.logId.index, D.entryToVec e) ∈ rows := by
  induction rows with
  | nil => exact ⟨[], rfl, List.Pairwise.nil, fun e => by simp⟩
  | cons r rows ih =>
    rw [List.pairwise_cons] at hsorted
    obtain ⟨entries, hdecode, hpair, hmem⟩ :=
      ih hsorted.2 fun r' hr' => hwf r' (List.mem_cons_of_mem _ hr')
    obtain ⟨e, hindex, hbytes⟩ := hwf r List.mem_cons_self
    have hr : r = (e.logId.index, D.entryToVec e) := by rw [hindex, hbytes]
    refine ⟨e :: entries, ?_, List.pairwise_cons.mpr ⟨?_, hpair⟩, ?_⟩
    · simp only [List.map_cons, decodeRows, ← hbytes, D.entry_roundtrip, hdecode]
    · intro e' he'
      rw [hindex]
      exact hsorted.1 _ ((hmem e').mp he')
    · intro e'
      rw [List.mem_cons, List.mem_cons, hmem, hr]
      exact or_congr_left ⟨fun h => by rw [h], row_inj⟩

/-- **Reading a range** of a well-formed store succeeds and lists the entries held in that range by
increasing index. -/
theorem tryGetLogEntries_spec (hwf : WellFormed D store) (range : Nat → Bool) :
    ∃ entries, store.tryGetLogEntries D range = .ok entries ∧
      entries.Pairwise (fun a b => a.logId.index < b.logId.index) ∧
      ∀ e, e ∈ entries ↔ store.Holds D e ∧ range e.logId.index = true := by
  have hsorted := (store.logTable.filter range).sorted
  obtain ⟨entries, hdecode, hpair, hmem⟩ := decodeRows_spec (D := D) hsorted fun r hr =>
    hwf r.1 r.2 ((store.logTable.mem_filter range r).mp hr).1
  refine ⟨entries, hdecode, hpair, ?_⟩
  intro e
  rw [hmem, Table.mem_filter]
  rfl

/-! ## The purge mark -/

@[simp] theorem lastPurged_new : PersistentLogStore.new.lastPurged D = .ok none := rfl

@[simp] theorem lastPurged_append (entries : List Entry) :
    (store.append D entries).lastPurged D = store.lastPurged D := rfl

@[simp] theorem lastPurged_truncate (logId : LogId) :
    (store.truncate logId).lastPurged D = store.lastPurged D := rfl

@[simp] theorem lastPurged_purge (logId : LogId) :
    (store.purge D logId).lastPurged D = .ok (some logId) := by
  simp [lastPurged, readMeta, purge, D.logId_roundtrip]

end PersistentLogStore

end RaftTimeDB
