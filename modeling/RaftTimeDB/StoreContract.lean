import Mathlib.Data.Prod.Lex
import RaftTimeDB.Lib.Runs
import RaftTimeDB.StoreRefinement

/-!
# The log store under openraft's contract

What openraft promises of its calls (`StoreOp.Allowed`): it appends consecutive entries right after the
last stored one, truncates above the purge mark, and never purges backwards, though possibly beyond
the last stored entry.  Log ids increase along a Raft log (`StoreOp.InOrder`).

Principal results: `Contiguous.run` — the stored keys stay the interval that starts right after the
purge mark; `log_state_iff` — `get_log_state` reports a last log id at or after the purge mark exactly
when an entry is stored or nothing has been purged.
-/

set_option autoImplicit false

namespace RaftTimeDB

/-! ## The order of log ids -/

/-- Log ids are compared by leader id (term, then node), then by index. -/
def LogId.key (id : LogId) : Nat ×ₗ Nat ×ₗ Nat :=
  toLex (id.leaderId.term, toLex (id.leaderId.nodeId, id.index))

theorem LogId.key_injective : Function.Injective LogId.key := by
  rintro ⟨⟨term, nodeId⟩, index⟩ ⟨⟨term', nodeId'⟩, index'⟩ h
  simp only [LogId.key, EmbeddingLike.apply_eq_iff_eq, Prod.mk.injEq] at h
  obtain ⟨rfl, rfl, rfl⟩ := h
  rfl

instance : LinearOrder LogId := LinearOrder.lift' LogId.key LogId.key_injective

/-- `a ≤ b` for `Option<LogId>`: an absent id is the least. -/
def NotAfter : Option LogId → Option LogId → Prop
  | none, _ => True
  | some _, none => False
  | some a, some b => a ≤ b

instance (a b : Option LogId) : Decidable (NotAfter a b) :=
  match a, b with
  | none, _ => isTrue trivial
  | some _, none => isFalse id
  | some a, some b => inferInstanceAs (Decidable (a ≤ b))

/-! ## The contract -/

namespace PersistentLogStore

/-- The purge mark openraft knows of. -/
def purgeMark (D : LogJson) (store : PersistentLogStore) : Option LogId :=
  match store.lastPurged D with
  | .ok lastPurged => lastPurged
  | .error _ => none

/-- Index right after the purge mark. -/
def firstIndex (D : LogJson) (store : PersistentLogStore) : Nat := nextIndex (store.purgeMark D)

/-- Index of the next entry: after the last stored one, or after the purge mark. -/
def nextAppend (D : LogJson) (store : PersistentLogStore) : Nat :=
  match store.logTable.last with
  | some (k, _) => k + 1
  | none => store.firstIndex D

/-- A row is stored under this index. -/
def HasKey (store : PersistentLogStore) (k : Nat) : Prop := ∃ bytes, (k, bytes) ∈ store.logTable.rows

end PersistentLogStore

/-- Where openraft appends, truncates and purges. -/
def StoreOp.Allowed (D : LogJson) (store : PersistentLogStore) : StoreOp → Prop
  | .append entries =>
      entries.map (·.logId.index) = List.range' (store.nextAppend D) entries.length
  | .truncate logId => store.firstIndex D ≤ logId.index
  | .purge logId => store.firstIndex D ≤ logId.index + 1
  | .saveVote _ => True

/-- The log ids of the call continue the log: appended entries come after the purge mark, and a
purge mark comes before the entries that stay. -/
def StoreOp.InOrder (D : LogJson) (store : PersistentLogStore) : StoreOp → Prop
  | .append entries => ∀ e ∈ entries, ∀ id ∈ store.purgeMark D, id < e.logId
  | .purge logId => ∀ r ∈ store.logTable.rows, logId.index < r.1 →
      ∀ e ∈ D.entryFromSlice r.2, logId < e.logId
  | _ => True

instance (D : LogJson) (store : PersistentLogStore) (op : StoreOp) :
    Decidable (op.Allowed D store) :=
  match op with
  | .append entries => inferInstanceAs (Decidable
      (entries.map (·.logId.index) = List.range' (store.nextAppend D) entries.length))
  | .truncate logId => inferInstanceAs (Decidable (store.firstIndex D ≤ logId.index))
  | .purge logId => inferInstanceAs (Decidable (store.firstIndex D ≤ logId.index + 1))
  | .saveVote _ => isTrue trivial

instance (D : LogJson) (store : PersistentLogStore) (op : StoreOp) :
    Decidable (op.InOrder D store) :=
  match op with
  | .append entries =>
      inferInstanceAs (Decidable (∀ e ∈ entries, ∀ id ∈ store.purgeMark D, id < e.logId))
  | .purge logId =>
      inferInstanceAs (Decidable (∀ r ∈ store.logTable.rows, logId.index < r.1 →
        ∀ e ∈ D.entryFromSlice r.2, logId < e.logId))
  | .truncate _ => isTrue trivial
  | .saveVote _ => isTrue trivial

/-! ## The stored interval -/

namespace PersistentLogStore

variable {D : LogJson} {store : PersistentLogStore}

theorem hasKey_append (entries : List Entry) (k : Nat) :
    (store.append D entries).HasKey k ↔ (∃ e ∈ entries, e.logId.index = k) ∨ store.HasKey k := by
  induction entries generalizing store with
  | nil => simp [append]
  | cons e es ih =>
    have hcons : store.append D (e :: es) =
        ({ store with logTable := store.logTable.insert e.logId.index (D.entryToVec e) } :
          PersistentLogStore).append D es := rfl
    have hinsert : HasKey { store with
        logTable := store.logTable.insert e.logId.index (D.entryToVec e) } k ↔
        e.logId.index = k ∨ store.HasKey k := by
      constructor
      · rintro ⟨bytes, hrow⟩
        rcases (store.logTable.mem_insert _ _ _).mp hrow with heq | ⟨_, hold⟩
        · exact Or.inl (congrArg Prod.fst heq).symm
        · exact Or.inr ⟨bytes, hold⟩
      · rintro (rfl | ⟨bytes, hold⟩)
        · exact ⟨_, (store.logTable.mem_insert _ _ _).mpr (Or.inl rfl)⟩
        · by_cases hk : k = e.logId.index
          · subst hk
            exact ⟨_, (store.logTable.mem_insert _ _ _).mpr (Or.inl rfl)⟩
          · exact ⟨bytes, (store.logTable.mem_insert _ _ _).mpr (Or.inr ⟨hk, hold⟩)⟩
    rw [hcons, ih, hinsert, List.exists_mem_cons_iff]
    constructor
    · rintro (hnew | heq | hold)
      · exact Or.inl (Or.inr hnew)
      · exact Or.inl (Or.inl heq)
      · exact Or.inr hold
    · rintro ((heq | hnew) | hold)
      · exact Or.inr (Or.inl heq)
      · exact Or.inl hnew
      · exact Or.inr (Or.inr hold)

theorem hasKey_truncate (logId : LogId) (k : Nat) :
    (store.truncate logId).HasKey k ↔ store.HasKey k ∧ k < logId.index := by
  simp only [HasKey, mem_truncate_rows, exists_and_right]

theorem hasKey_purge (logId : LogId) (k : Nat) :
    (store.purge D logId).HasKey k ↔ store.HasKey k ∧ logId.index < k := by
  simp only [HasKey, mem_purge_rows, exists_and_right]

/-- **The stored interval**: rows are texts of entries with the row's index, the purge mark can be
read, and the keys are the interval from right after the purge mark up to `stop`. -/
structure Contiguous (D : LogJson) (store : PersistentLogStore) (stop : Nat) : Prop where
  wellFormed : store.WellFormed D
  readable : store.lastPurged D = .ok (store.purgeMark D)
  first_le : store.firstIndex D ≤ stop
  keys : ∀ k, store.HasKey k ↔ store.firstIndex D ≤ k ∧ k < stop

theorem Contiguous.new : Contiguous D PersistentLogStore.new 0 := by
  refine ⟨WellFormed.new, rfl, Nat.le_refl _, ?_⟩
  intro k
  constructor
  · rintro ⟨bytes, hrow⟩
    cases hrow
  · rintro ⟨_, hlt⟩
    omega

/-- The next entry goes to the end of the interval. -/
theorem Contiguous.nextAppend_eq {stop : Nat} (h : Contiguous D store stop) :
    store.nextAppend D = stop := by
  unfold nextAppend
  cases hlast : store.logTable.last with
  | none =>
    -- no row, so the interval is empty
    show store.firstIndex D = stop
    have hrows := Table.last_eq_none_iff.mp hlast
    have hfirst := h.first_le
    have hno : ¬ store.HasKey (store.firstIndex D) := by
      rintro ⟨bytes, hrow⟩
      rw [hrows] at hrow
      cases hrow
    rw [h.keys] at hno
    omega
  | some r =>
    show r.1 + 1 = stop
    obtain ⟨hmem, hmax⟩ := Table.last_spec hlast
    have hr := (h.keys r.1).mp ⟨r.2, hmem⟩
    have hnext : ¬ store.HasKey (r.1 + 1) := by
      rintro ⟨bytes, hrow⟩
      have hle : r.1 + 1 ≤ r.1 := hmax _ hrow
      omega
    rw [h.keys] at hnext
    omega

@[simp] theorem purgeMark_append (entries : List Entry) :
    (store.append D entries).purgeMark D = store.purgeMark D := rfl

@[simp] theorem purgeMark_truncate (logId : LogId) :
    (store.truncate logId).purgeMark D = store.purgeMark D := rfl

@[simp] theorem purgeMark_purge (logId : LogId) :
    (store.purge D logId).purgeMark D = some logId := by
  rw [purgeMark, lastPurged_purge]

@[simp] theorem lastPurged_saveVote (vote : Vote) :
    (store.saveVote D vote).lastPurged D = store.lastPurged D := by
  have hne : META_LAST_PURGED ≠ META_VOTE := by decide
  simp only [lastPurged, readMeta, saveVote, writeMeta, Finmap.lookup_insert_of_ne _ hne]

@[simp] theorem purgeMark_saveVote (vote : Vote) :
    (store.saveVote D vote).purgeMark D = store.purgeMark D := by
  rw [purgeMark, lastPurged_saveVote]
  rfl

theorem Contiguous.append {stop : Nat} (h : Contiguous D store stop) {entries : List Entry}
    (hallowed : (StoreOp.append entries).Allowed D store) :
    Contiguous D (store.append D entries) (stop + entries.length) := by
  have hindices : entries.map (·.logId.index) = List.range' stop entries.length := by
    rw [← h.nextAppend_eq]
    exact hallowed
  have hnew : ∀ k, (∃ e ∈ entries, e.logId.index = k) ↔ stop ≤ k ∧ k < stop + entries.length := by
    intro k
    rw [← List.mem_range'_1, ← hindices, List.mem_map]
  have hfirst : (store.append D entries).firstIndex D = store.firstIndex D := rfl
  have hle := h.first_le
  refine ⟨h.wellFormed.append entries, h.readable, ?_, ?_⟩
  · rw [hfirst]
    omega
  · intro k
    rw [hasKey_append, hnew, h.keys, hfirst]
    omega

theorem Contiguous.truncate {stop : Nat} (h : Contiguous D store stop) {logId : LogId}
    (hallowed : (StoreOp.truncate logId).Allowed D store) :
    Contiguous D (store.truncate logId) (min stop logId.index) := by
  have hfirst : (store.truncate logId).firstIndex D = store.firstIndex D := rfl
  have habove : store.firstIndex D ≤ logId.index := hallowed
  have hle := h.first_le
  refine ⟨h.wellFormed.truncate logId, h.readable, ?_, ?_⟩
  · rw [hfirst]
    omega
  · intro k
    rw [hasKey_truncate, h.keys, hfirst]
    omega

theorem Contiguous.purge {stop : Nat} (h : Contiguous D store stop) {logId : LogId}
    (hallowed : (StoreOp.purge logId).Allowed D store) :
    Contiguous D (store.purge D logId) (max stop (logId.index + 1)) := by
  have hfirst : (store.purge D logId).firstIndex D = logId.index + 1 := by
    rw [firstIndex, purgeMark_purge, nextIndex_some]
  have hforward : store.firstIndex D ≤ logId.index + 1 := hallowed
  refine ⟨h.wellFormed.purge logId, ?_, ?_, ?_⟩
  · rw [purgeMark_purge, lastPurged_purge]
  · rw [hfirst]
    omega
  · intro k
    rw [hasKey_purge, h.keys, hfirst]
    omega

theorem Contiguous.saveVote {stop : Nat} (h : Contiguous D store stop) (vote : Vote) :
    Contiguous D (store.saveVote D vote) stop := by
  have hfirst : (store.saveVote D vote).firstIndex D = store.firstIndex D := by
    rw [firstIndex, purgeMark_saveVote]
    rfl
  refine ⟨h.wellFormed, ?_, ?_, ?_⟩
  · rw [purgeMark_saveVote, lastPurged_saveVote]
    exact h.readable
  · rw [hfirst]
    exact h.first_le
  · intro k
    rw [hfirst]
    exact h.keys k

/-- **Every allowed operation keeps the stored keys an interval.** -/
theorem Contiguous.run {stop : Nat} (h : Contiguous D store stop) {op : StoreOp}
    (hallowed : op.Allowed D store) : ∃ stop', Contiguous D (store.run D op) stop' := by
  cases op with
  | append entries => exact ⟨_, h.append hallowed⟩
  | truncate logId => exact ⟨_, h.truncate hallowed⟩
  | purge logId => exact ⟨_, h.purge hallowed⟩
  | saveVote vote => exact ⟨_, h.saveVote vote⟩

/-! ## Log ids along the log -/

/-- Every stored entry comes after the purge mark. -/
def Ordered (D : LogJson) (store : PersistentLogStore) : Prop :=
  ∀ r ∈ store.logTable.rows, ∀ e ∈ D.entryFromSlice r.2, ∀ id ∈ store.purgeMark D, id < e.logId

theorem Ordered.append (h : Ordered D store) {entries : List Entry}
    (horder : (StoreOp.append entries).InOrder D store) : Ordered D (store.append D entries) := by
  induction entries generalizing store with
  | nil => exact h
  | cons e es ih =>
    refine @ih { store with
      logTable := store.logTable.insert e.logId.index (D.entryToVec e) } ?_ ?_
    · intro r hr e' he' id hid
      rcases (store.logTable.mem_insert _ _ _).mp hr with rfl | ⟨_, hold⟩
      · rw [D.entry_roundtrip, Option.mem_some_iff] at he'
        subst he'
        exact horder e List.mem_cons_self id hid
      · exact h r hold e' he' id hid
    · intro e' he'
      exact horder e' (List.mem_cons_of_mem _ he')

/-- **Every operation in log order keeps the entries after the purge mark.** -/
theorem Ordered.run (h : Ordered D store) {op : StoreOp} (horder : op.InOrder D store) :
    Ordered D (store.run D op) := by
  cases op with
  | append entries => exact h.append horder
  | truncate logId =>
    intro r hr
    exact h r ((mem_truncate_rows logId r).mp hr).1
  | purge logId =>
    intro r hr e he id hid
    obtain ⟨hold, hlt⟩ := (mem_purge_rows logId r).mp hr
    have hmark : (store.run D (.purge logId)).purgeMark D = some logId := purgeMark_purge logId
    rw [hmark, Option.mem_some_iff] at hid
    subst hid
    exact horder r hold hlt e he
  | saveVote vote =>
    intro r hr e he id hid
    have hmark : (store.run D (.saveVote vote)).purgeMark D = store.purgeMark D :=
      purgeMark_saveVote vote
    rw [hmark] at hid
    exact h r hr e he id hid

/-- **The log state, exactly**: on a store with its entries after the purge mark, the reported last
log id is at or after the reported purge mark if and only if an entry is stored or nothing has been
purged. -/
theorem notAfter_iff {stop : Nat} (hcont : Contiguous D store stop) (hord : Ordered D store) :
    ∃ state, store.getLogState D = .ok state ∧
      (NotAfter state.lastPurgedLogId state.lastLogId ↔
        store.logTable.rows ≠ [] ∨ store.lastPurged D = .ok none) := by
  rw [hcont.readable]
  cases hlast : store.logTable.last with
  | none =>
    have hrows := Table.last_eq_none_iff.mp hlast
    refine ⟨⟨store.purgeMark D, none⟩, by simp only [getLogState, hcont.readable, hlast], ?_⟩
    cases hmark : store.purgeMark D with
    | none => exact iff_of_true trivial (Or.inr rfl)
    | some id => simp [NotAfter, hrows]
  | some r =>
    have hmem := (Table.last_spec hlast).1
    obtain ⟨e, _, htext⟩ := hcont.wellFormed r.1 r.2 hmem
    have hdecode : D.entryFromSlice r.2 = some e := by rw [← htext, D.entry_roundtrip]
    refine ⟨⟨store.purgeMark D, some e.logId⟩,
      by simp only [getLogState, hcont.readable, hlast, hdecode], iff_of_true ?_ ?_⟩
    · cases hmark : store.purgeMark D with
      | none => trivial
      | some id => exact le_of_lt (hord r hmem e hdecode id hmark)
    · exact Or.inl (List.ne_nil_of_mem hmem)

end PersistentLogStore

/-! ## Runs under the contract -/

/-- The two stores side by side. -/
structure Twins where
  db : OpenStore
  mem : LogStore

namespace Twins

def start (dir : DataDir) (s : ShardId) : Twins := ⟨OpenStore.openAt dir s, LogStore.new⟩

/-- openraft makes this call. -/
def Promised (D : LogJson) (w : Twins) : StoreCall → Prop
  | .op op => op.Allowed D w.db.store ∧ op.InOrder D w.db.store
  | _ => True

instance (D : LogJson) (w : Twins) (call : StoreCall) : Decidable (w.Promised D call) :=
  match call with
  | .op op =>
      inferInstanceAs (Decidable (op.Allowed D w.db.store ∧ op.InOrder D w.db.store))
  | .readVote => isTrue trivial
  | .getLogState => isTrue trivial
  | .tryGetLogEntries _ => isTrue trivial
  | .reopen => isTrue trivial

def step (D : LogJson) (s : ShardId) (w : Twins) (call : StoreCall) : Option Twins :=
  if w.Promised D call then some ⟨w.db.after D s call, w.mem.after call⟩ else none

/-- The stores are in step, and the persistent one is an interval of increasing log ids. -/
structure Inv (D : LogJson) (s : ShardId) (w : Twins) : Prop where
  inStep : InStep D s w.db w.mem
  contiguous : ∃ stop, w.db.store.Contiguous D stop
  ordered : w.db.store.Ordered D

variable {D : LogJson} {s : ShardId}

theorem Inv.start {dir : DataDir} (hfresh : dir.Fresh s) : Inv D s (start dir s) := by
  have hopen : (OpenStore.openAt dir s).store = PersistentLogStore.new := by
    rw [OpenStore.openAt, DataDir.openStore_of_fresh hfresh]
  refine ⟨InStep.openAt hfresh, ⟨0, ?_⟩, ?_⟩
  · show (OpenStore.openAt dir s).store.Contiguous D 0
    rw [hopen]
    exact PersistentLogStore.Contiguous.new
  · show (OpenStore.openAt dir s).store.Ordered D
    rw [hopen]
    intro r hr
    cases hr

theorem step_inv {w w' : Twins} {call : StoreCall} (hinv : Inv D s w)
    (h : step D s w call = some w') : Inv D s w' := by
  unfold step at h
  split at h
  · rename_i hpromised
    cases h
    have hstep := hinv.inStep.after call
    obtain ⟨stop, hcont⟩ := hinv.contiguous
    cases call with
    | op op => exact ⟨hstep, hcont.run hpromised.1, hinv.ordered.run hpromised.2⟩
    | readVote => exact ⟨hstep, ⟨stop, hcont⟩, hinv.ordered⟩
    | getLogState => exact ⟨hstep, ⟨stop, hcont⟩, hinv.ordered⟩
    | tryGetLogEntries range => exact ⟨hstep, ⟨stop, hcont⟩, hinv.ordered⟩
    | reopen =>
      rw [hinv.inStep.reopen_eq] at hstep ⊢
      exact ⟨hstep, ⟨stop, hcont⟩, hinv.ordered⟩
  · cases h

/-- **`get_log_state`, exactly.**  In every state that calls under openraft's contract reach, with the
persistent store reopened at any point, both stores report the same log state, and it has its purge
mark at or before its last log id if and only if an entry is stored or nothing has been purged. -/
theorem log_state_iff {dir : DataDir} (hfresh : dir.Fresh s) {calls : List StoreCall} {w : Twins}
    (h : Runs.exec (step D s) (start dir s) calls = some w) :
    ∃ state, w.db.store.getLogState D = .ok state ∧ w.mem.getLogState = .ok state ∧
      (NotAfter state.lastPurgedLogId state.lastLogId ↔
        w.db.store.logTable.rows ≠ [] ∨ w.db.store.lastPurged D = .ok none) := by
  have hinv : Inv D s w :=
    Runs.exec_inv (fun _ _ _ hI hs => step_inv hI hs) (Inv.start hfresh) h
  obtain ⟨stop, hcont⟩ := hinv.contiguous
  obtain ⟨state, hstate, hiff⟩ := PersistentLogStore.notAfter_iff hcont hinv.ordered
  refine ⟨state, hstate, ?_, hiff⟩
  rw [← hinv.inStep.represents.getLogState_eq, hstate]

/-- Two entries are appended and the first one is purged. -/
def onePurged : List StoreCall :=
  [.op (.append [⟨⟨⟨1, 1⟩, 0⟩, .blank⟩, ⟨⟨⟨1, 1⟩, 1⟩, .blank⟩]), .op (.purge ⟨⟨1, 1⟩, 0⟩), .reopen]

/-- With an entry left the purge mark is not after the last log id. -/
theorem log_state_with_entry :
    ∃ w state, Runs.exec (step JsonFormats.logJson 0) (start ⟨none, fun _ => none⟩ 0) onePurged =
        some w ∧
      w.db.store.getLogState JsonFormats.logJson = .ok state ∧
      NotAfter state.lastPurgedLogId state.lastLogId := by
  obtain ⟨w, h, hrows⟩ : ∃ w, Runs.exec (step JsonFormats.logJson 0)
      (start ⟨none, fun _ => none⟩ 0) onePurged = some w ∧ w.db.store.logTable.rows ≠ [] :=
    Runs.exists_exec (by decide +kernel)
  obtain ⟨state, hstate, _, hiff⟩ := log_state_iff ⟨rfl, fun _ => rfl⟩ h
  exact ⟨w, state, h, hstate, hiff.mpr (Or.inl hrows)⟩

/-- All entries are purged, as after the installation of a snapshot. -/
def allPurged : List StoreCall :=
  [.op (.append [⟨⟨⟨1, 1⟩, 0⟩, .blank⟩]), .op (.purge ⟨⟨1, 1⟩, 0⟩)]

/-- **An emptied log has no last log id.**  Once every entry is purged, both stores report the purge
mark and no last log id. -/
theorem emptied_log_state :
    ∃ w, Runs.exec (step JsonFormats.logJson 0) (start ⟨none, fun _ => none⟩ 0) allPurged = some w ∧
      w.db.store.getLogState JsonFormats.logJson = .ok ⟨some ⟨⟨1, 1⟩, 0⟩, none⟩ ∧
      w.mem.getLogState = .ok ⟨some ⟨⟨1, 1⟩, 0⟩, none⟩ ∧
      ¬ NotAfter (some ⟨⟨1, 1⟩, 0⟩) none := by
  obtain ⟨w, h, hdb, hmem⟩ : ∃ w, Runs.exec (step JsonFormats.logJson 0)
      (start ⟨none, fun _ => none⟩ 0) allPurged = some w ∧
      w.db.store.getLogState JsonFormats.logJson = .ok ⟨some ⟨⟨1, 1⟩, 0⟩, none⟩ ∧
      w.mem.getLogState = .ok ⟨some ⟨⟨1, 1⟩, 0⟩, none⟩ :=
    Runs.exists_exec (by decide +kernel)
  exact ⟨w, h, hdb, hmem, id⟩

end Twins

end RaftTimeDB
