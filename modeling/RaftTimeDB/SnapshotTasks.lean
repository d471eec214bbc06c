import RaftTimeDB.SnapshotCut

/-!
# Snapshot tasks of a cluster

Several nodes apply one log, build snapshots and install each other's.  On every node `apply` and
`install_snapshot` follow one another, and `build_snapshot` runs in a task of its own beside them.
A move is one locked section: the sections of `apply` are those of `SnapshotCut`, the builder reads
the state (`build`) and later stores the snapshot (`cache`), and `install_snapshot` overwrites the
state (`load`), replays the shard config to the pool (`replay`), encodes the state it finds
(`encode`) and caches the result under the received meta (`store`).

* Only snapshots that some node has returned are installed, and none that is older than the
  node's `last_applied`.
* The log ids of one log are ordered by their index: `Snapshot.position` is the number of log
  entries a snapshot says it covers.
* `World.builds` remembers what each build has read; no section looks at it.

Principal results: `exec_applyEntry`, `exec_installSnapshot` and `exec_buildSnapshot` — the sections
in a row are the functions of the state machine store; `exec_ok` — in every run the snapshots that
are held, cached and returned have the `last_applied` of their meta, an id of the log that the node
has reached.
-/

set_option autoImplicit false

namespace RaftTimeDB

/-- Number of log entries a snapshot covers, by its meta. -/
def Snapshot.position (snap : Snapshot) : Nat := nextIndex snap.snapMeta.lastLogId

/-- The id is none, or the id of an entry of the log. -/
def Log.Reached (L : Log) (id : Option LogId) : Prop := lastLogId (L.upTo id) = id

theorem Log.reached_none (L : Log) : L.Reached none := rfl

theorem Log.reached_of_getElem? {L : Log} {i : Nat} {e : Entry} (h : L.entries[i]? = some e) :
    L.Reached (some e.logId) := by
  unfold Log.Reached Log.upTo
  rw [nextIndex_some, L.index_eq i e h, Lists.take_succ_of_getElem? h, lastLogId_snoc]

/-- In one log the position determines the id. -/
theorem Log.Reached.eq_of_nextIndex {L : Log} {id id' : Option LogId} (h : L.Reached id)
    (h' : L.Reached id') (heq : nextIndex id = nextIndex id') : id = id' := by
  unfold Log.Reached Log.upTo at h h'
  rw [← h, ← h', heq]

namespace SnapshotTasks

open SnapshotCut (Section afterRecord)

/-! ## One node -/

/-- The section a running `install_snapshot` enters next. -/
inductive Install where
  | replay (snapMeta : SnapshotMeta)
  | encode (snapMeta : SnapshotMeta)
  | store (snap : Snapshot)
  deriving DecidableEq

/-- The meta the call was given. -/
def Install.snapMeta : Install → SnapshotMeta
  | .replay snapMeta => snapMeta
  | .encode snapMeta => snapMeta
  | .store snap => snap.snapMeta

structure Machine where
  sm : StateMachineStore
  /-- entries of the running `apply` call that it has not begun -/
  todo : List Entry
  /-- the entry `apply` is in the middle of -/
  current : Option (Entry × Section)
  installing : Option Install
  /-- a snapshot that is built and not yet cached -/
  holding : Option Snapshot
  /-- ghost: what `install_snapshot` has cached since the builder last read the state -/
  installed : List Snapshot
  deriving DecidableEq

def Machine.start (sm : StateMachineStore) : Machine := ⟨sm, [], none, none, none, []⟩

/-- Neither `apply` nor `install_snapshot` is running. -/
def Machine.Free (m : Machine) : Prop := m.todo = [] ∧ m.current = none ∧ m.installing = none

instance (m : Machine) : Decidable m.Free :=
  inferInstanceAs (Decidable (m.todo = [] ∧ m.current = none ∧ m.installing = none))

inductive Move where
  | call (count : Nat)
  | record
  | command
  | count
  | build (order : List (String × ShardId))
  | cache
  | getCurrent
  | load (snap : Snapshot)
  | replay (order : List (String × ShardId))
  | encode (order : List (String × ShardId))
  | store
  deriving DecidableEq

variable (J : CommandJson) (K : SnapshotCodec) (L : Log)

/-- One locked section, or the start of an `apply` call with the next entries of the log. -/
def Machine.step (m : Machine) : Move → Option Machine
  | .call count =>
      if m.Free then
        some { m with todo := (L.entries.drop (nextIndex m.sm.inner.lastApplied)).take count }
      else none
  | .record =>
      match m.current, m.todo with
      | none, e :: rest =>
          some
            { m with
              sm := { m.sm with inner := recordEntry e m.sm.inner }
              todo := rest
              current := afterRecord J e }
      | _, _ => none
  | .command =>
      match m.current with
      | some (e, .command) =>
          match e.command? J with
          | some cmd =>
              some
                { m with
                  sm := { m.sm with inner := updateConfig cmd m.sm.inner }.sendShardConfig cmd
                  current := some (e, .count) }
          | none => none
      | _ => none
  | .count =>
      match m.current with
      | some (e, .count) =>
          let sm := (e.forward?.map m.sm.sendForwarder).getD m.sm
          some { m with sm := { sm with inner := countApplied sm.inner }, current := none }
      | _ => none
  | .build order =>
      if m.holding = none ∧ Enumerates order m.sm.inner.shardRoutes then
        some
          { m with
            holding := some (StateMachineStore.snapshotOf K order m.sm.inner)
            installed := [] }
      else none
  | .cache =>
      match m.holding with
      | some snap =>
          some { m with sm := { m.sm with cachedSnapshot := some snap }, holding := none }
      | none => none
  | .getCurrent => some m
  | .load snap =>
      if m.Free ∧ nextIndex m.sm.inner.lastApplied ≤ snap.position then
        match K.fromSlice snap.bytes with
        | some data =>
            some
              { m with
                sm := { m.sm with inner := data.toInner }
                installing := some (.replay snap.snapMeta) }
        -- the call fails before its first section
        | none => some m
      else none
  | .replay order =>
      match m.installing with
      | some (.replay snapMeta) =>
          if Enumerates order m.sm.inner.shardRoutes then
            some
              { m with
                sm :=
                  { m.sm with
                    shardConfigTx :=
                      m.sm.shardConfigTx.map (· ++ replayCommands order m.sm.inner) }
                installing := some (.encode snapMeta) }
          else none
      | _ => none
  | .encode order =>
      match m.installing with
      | some (.encode snapMeta) =>
          if Enumerates order m.sm.inner.shardRoutes then
            some
              { m with
                installing := some (.store ⟨snapMeta, K.toVec order m.sm.inner.toData⟩) }
          else none
      | _ => none
  | .store =>
      match m.installing with
      | some (.store snap) =>
          some
            { m with
              sm := { m.sm with cachedSnapshot := some snap }
              installing := none
              installed := m.installed ++ [snap] }
      | _ => none

/-- What a section can do, with the guards under which it does it. -/
inductive Machine.Turn (m : Machine) : Move → Machine → Prop
  | call {count : Nat} (hfree : m.Free) :
      Turn m (.call count)
        { m with todo := (L.entries.drop (nextIndex m.sm.inner.lastApplied)).take count }
  | record {e : Entry} {rest : List Entry} (hcurrent : m.current = none)
      (htodo : m.todo = e :: rest) :
      Turn m .record
        { m with
          sm := { m.sm with inner := recordEntry e m.sm.inner }
          todo := rest
          current := afterRecord J e }
  | command {e : Entry} {cmd : ShardConfigCommand} (hcurrent : m.current = some (e, .command))
      (hcmd : e.command? J = some cmd) :
      Turn m .command
        { m with
          sm := { m.sm with inner := updateConfig cmd m.sm.inner }.sendShardConfig cmd
          current := some (e, .count) }
  | count {e : Entry} (hcurrent : m.current = some (e, .count)) :
      Turn m .count
        { m with
          sm :=
            { (e.forward?.map m.sm.sendForwarder).getD m.sm with
              inner := countApplied ((e.forward?.map m.sm.sendForwarder).getD m.sm).inner }
          current := none }
  | build {order : List (String × ShardId)} (horder : Enumerates order m.sm.inner.shardRoutes) :
      Turn m (.build order)
        { m with
          holding := some (StateMachineStore.snapshotOf K order m.sm.inner)
          installed := [] }
  | cache {held : Snapshot} (hheld : m.holding = some held) :
      Turn m .cache { m with sm := { m.sm with cachedSnapshot := some held }, holding := none }
  | getCurrent : Turn m .getCurrent m
  | load {snap : Snapshot} {data : SnapshotData} (hfree : m.Free)
      (hnewer : nextIndex m.sm.inner.lastApplied ≤ snap.position)
      (hdecode : K.fromSlice snap.bytes = some data) :
      Turn m (.load snap)
        { m with
          sm := { m.sm with inner := data.toInner }
          installing := some (.replay snap.snapMeta) }
  | refuse {snap : Snapshot} (hdecode : K.fromSlice snap.bytes = none) : Turn m (.load snap) m
  | replay {order : List (String × ShardId)} {snapMeta : SnapshotMeta}
      (hinstalling : m.installing = some (.replay snapMeta)) :
      Turn m (.replay order)
        { m with
          sm :=
            { m.sm with
              shardConfigTx := m.sm.shardConfigTx.map (· ++ replayCommands order m.sm.inner) }
          installing := some (.encode snapMeta) }
  | encode {order : List (String × ShardId)} {snapMeta : SnapshotMeta}
      (hinstalling : m.installing = some (.encode snapMeta))
      (horder : Enumerates order m.sm.inner.shardRoutes) :
      Turn m (.encode order)
        { m with installing := some (.store ⟨snapMeta, K.toVec order m.sm.inner.toData⟩) }
  | store {snap : Snapshot} (hinstalling : m.installing = some (.store snap)) :
      Turn m .store
        { m with
          sm := { m.sm with cachedSnapshot := some snap }
          installing := none
          installed := m.installed ++ [snap] }

variable {J K L}

theorem Machine.turn_of_step {m m' : Machine} {move : Move} (h : m.step J K L move = some m') :
    m.Turn J K L move m' := by
  cases move with
  | call count =>
    simp only [Machine.step, Option.ite_none_right_eq_some, Option.some.injEq] at h
    obtain ⟨hfree, rfl⟩ := h
    exact .call hfree
  | record =>
    simp only [Machine.step] at h
    split at h
    · rename_i e rest hcurrent htodo
      cases h
      exact .record hcurrent htodo
    · cases h
  | command =>
    simp only [Machine.step] at h
    split at h
    · rename_i e hcurrent
      split at h
      · rename_i cmd hcmd
        cases h
        exact .command hcurrent hcmd
      · cases h
    · cases h
  | count =>
    simp only [Machine.step] at h
    split at h
    · rename_i e hcurrent
      cases h
      exact .count hcurrent
    · cases h
  | build order =>
    simp only [Machine.step, Option.ite_none_right_eq_some, Option.some.injEq] at h
    obtain ⟨⟨_, horder⟩, rfl⟩ := h
    exact .build horder
  | cache =>
    simp only [Machine.step] at h
    split at h
    · rename_i held hheld
      cases h
      exact .cache hheld
    · cases h
  | getCurrent =>
    cases h
    exact .getCurrent
  | load snap =>
    simp only [Machine.step, Option.ite_none_right_eq_some] at h
    obtain ⟨⟨hfree, hnewer⟩, h⟩ := h
    split at h
    · rename_i data hdecode
      cases h
      exact .load hfree hnewer hdecode
    · rename_i hdecode
      cases h
      exact .refuse hdecode
  | replay order =>
    simp only [Machine.step] at h
    split at h
    · rename_i snapMeta hinstalling
      simp only [Option.ite_none_right_eq_some, Option.some.injEq] at h
      obtain ⟨_, rfl⟩ := h
      exact .replay hinstalling
    · cases h
  | encode order =>
    simp only [Machine.step] at h
    split at h
    · rename_i snapMeta hinstalling
      simp only [Option.ite_none_right_eq_some, Option.some.injEq] at h
      obtain ⟨horder, rfl⟩ := h
      exact .encode hinstalling horder
    · cases h
  | store =>
    simp only [Machine.step] at h
    split at h
    · rename_i snap hinstalling
      cases h
      exact .store hinstalling
    · cases h

variable (J K L)

/-! ## The cluster -/

/-- What a `build_snapshot` call has read: the locked state and the iteration order of its
routes. -/
structure Build where
  inner : StateMachineInner
  order : List (String × ShardId)
  deriving DecidableEq

/-- The snapshot it returns. -/
def Build.snapshot (b : Build) : Snapshot := StateMachineStore.snapshotOf K b.order b.inner

structure World where
  machine : NodeId → Machine
  /-- snapshots that `build_snapshot` or `get_current_snapshot` has returned on some node -/
  issued : List Snapshot
  builds : List Build

/-- Every node starts with a fresh store, with or without its channels. -/
def World.start (wiring : NodeId → Wiring) : World :=
  ⟨fun n => Machine.start (Replica.start (wiring n)).sm, [], []⟩

structure Label where
  node : NodeId
  move : Move
  deriving DecidableEq

/-- The snapshot a move takes from another node. -/
def Move.received : Move → List Snapshot
  | .load snap => [snap]
  | _ => []

/-- What a move returns to openraft. -/
def Move.returned (m : Machine) : Move → List Snapshot
  | .cache => m.holding.toList
  | .getCurrent => m.sm.getCurrentSnapshot.toList
  | _ => []

def Move.builds (m : Machine) : Move → List Build
  | .build order => [⟨m.sm.inner, order⟩]
  | _ => []

def step (w : World) (l : Label) : Option World :=
  if ∀ snap ∈ l.move.received, snap ∈ w.issued then
    ((w.machine l.node).step J K L l.move).map fun m =>
      { machine := Function.update w.machine l.node m
        issued := w.issued ++ l.move.returned (w.machine l.node)
        builds := w.builds ++ l.move.builds (w.machine l.node) }
  else none

variable {J K L}

theorem step_some {w w' : World} {l : Label} (h : step J K L w l = some w') :
    (∀ snap ∈ l.move.received, snap ∈ w.issued) ∧
    ∃ m, (w.machine l.node).step J K L l.move = some m ∧
      w' = { machine := Function.update w.machine l.node m
             issued := w.issued ++ l.move.returned (w.machine l.node)
             builds := w.builds ++ l.move.builds (w.machine l.node) } := by
  unfold step at h
  split at h
  · rename_i hreceived
    obtain ⟨m, hm, hw⟩ := Option.map_eq_some_iff.mp h
    exact ⟨hreceived, m, hm, hw.symm⟩
  · cases h

/-! ## The sections in a row -/

/-- The sections of `install_snapshot`, with nothing in between, are the call. -/
theorem exec_installSnapshot {m m' : Machine} {snap : Snapshot} {data : SnapshotData}
    {replayOrder encodeOrder : List (String × ShardId)} (hdecode : K.fromSlice snap.bytes = some data)
    (h : Runs.exec (Machine.step J K L) m
      [.load snap, .replay replayOrder, .encode encodeOrder, .store] = some m') :
    m.sm.installSnapshot K replayOrder encodeOrder snap = .ok m'.sm := by
  obtain ⟨m₁, h₁, h⟩ := Runs.exec_cons_some.mp h
  obtain ⟨m₂, h₂, h⟩ := Runs.exec_cons_some.mp h
  obtain ⟨m₃, h₃, h⟩ := Runs.exec_cons_some.mp h
  obtain ⟨m₄, h₄, h⟩ := Runs.exec_cons_some.mp h
  simp only [Runs.exec_nil, Option.some.injEq] at h
  subst h
  simp only [Machine.step, hdecode, Option.ite_none_right_eq_some, Option.some.injEq] at h₁
  obtain ⟨_, rfl⟩ := h₁
  simp only [Machine.step, Option.ite_none_right_eq_some, Option.some.injEq] at h₂
  obtain ⟨_, rfl⟩ := h₂
  simp only [Machine.step, Option.ite_none_right_eq_some, Option.some.injEq] at h₃
  obtain ⟨_, rfl⟩ := h₃
  simp only [Machine.step, Option.some.injEq] at h₄
  subst h₄
  simp only [StateMachineStore.installSnapshot, hdecode]

/-- The two sections of `build_snapshot`, with nothing in between, are the call. -/
theorem exec_buildSnapshot {m m' : Machine} {order : List (String × ShardId)}
    (h : Runs.exec (Machine.step J K L) m [.build order, .cache] = some m') :
    m'.sm = (m.sm.buildSnapshot K order).1 := by
  obtain ⟨m₁, h₁, h⟩ := Runs.exec_cons_some.mp h
  obtain ⟨m₂, h₂, h⟩ := Runs.exec_cons_some.mp h
  simp only [Runs.exec_nil, Option.some.injEq] at h
  subst h
  simp only [Machine.step, Option.ite_none_right_eq_some, Option.some.injEq] at h₁
  obtain ⟨_, rfl⟩ := h₁
  simp only [Machine.step, Option.some.injEq] at h₂
  subst h₂
  rfl

/-- The sections `apply` goes through for an entry. -/
def entryMoves (J : CommandJson) (e : Entry) : List Move :=
  if e.isNormal then
    if (e.command? J).isSome then [.record, .command, .count] else [.record, .count]
  else [.record]

/-- The sections of an entry, with nothing in between, are the loop body of `apply`. -/
theorem exec_applyEntry {m : Machine} {e : Entry} {rest : List Entry} (hcurrent : m.current = none)
    (htodo : m.todo = e :: rest) :
    Runs.exec (Machine.step J K L) m (entryMoves J e) =
      some { m with sm := m.sm.applyEntry J e, todo := rest } := by
  obtain ⟨logId, payload⟩ := e
  cases payload with
  | blank =>
    simp [entryMoves, Entry.isNormal, Runs.exec, Machine.step, hcurrent, htodo, afterRecord,
      StateMachineStore.applyEntry]
  | membership config =>
    simp [entryMoves, Entry.isNormal, Runs.exec, Machine.step, hcurrent, htodo, afterRecord,
      StateMachineStore.applyEntry]
  | normal request =>
    by_cases htag : request.rawMessage.head? = some SHARD_CONFIG_TAG
    · cases hcmd : decodeShardConfig J request.rawMessage with
      | none =>
        simp [entryMoves, Entry.isNormal, Entry.command?, Entry.forward?, Runs.exec, Machine.step,
          hcurrent, htodo, afterRecord, StateMachineStore.applyEntry, hcmd, htag]
      | some cmd =>
        simp [entryMoves, Entry.isNormal, Entry.command?, Entry.forward?, Runs.exec, Machine.step,
          hcurrent, htodo, afterRecord, StateMachineStore.applyEntry, hcmd, htag,
          StateMachineStore.sendShardConfig]
    · simp [entryMoves, Entry.isNormal, Entry.command?, Entry.forward?, Runs.exec, Machine.step,
        hcurrent, htodo, afterRecord, StateMachineStore.applyEntry, htag,
        decodeShardConfig_untagged htag]

/-- Moves of one node, as moves of the cluster. -/
theorem exec_node {n : NodeId} :
    ∀ {moves : List Move} {w : World} {m : Machine},
      Runs.exec (Machine.step J K L) (w.machine n) moves = some m →
      (∀ move ∈ moves, ∀ snap ∈ move.received, snap ∈ w.issued) →
      ∃ w', Runs.exec (step J K L) w (moves.map (Label.mk n)) = some w' ∧ w'.machine n = m ∧
        ∀ k, k ≠ n → w'.machine k = w.machine k
  | [], w, m, h, _ => by
    simp only [Runs.exec_nil, Option.some.injEq] at h
    exact ⟨w, rfl, h, fun _ _ => rfl⟩
  | move :: moves, w, m, h, hreceived => by
    obtain ⟨m₁, h₁, hrest⟩ := Runs.exec_cons_some.mp h
    let w₁ : World :=
      { machine := Function.update w.machine n m₁
        issued := w.issued ++ move.returned (w.machine n)
        builds := w.builds ++ move.builds (w.machine n) }
    have hstep : step J K L w ⟨n, move⟩ = some w₁ := by
      rw [step, if_pos (hreceived move List.mem_cons_self), h₁]
      rfl
    have hself : w₁.machine n = m₁ := Function.update_self n m₁ w.machine
    rw [← hself] at hrest
    obtain ⟨w', hexec, hm, hother⟩ := exec_node hrest fun move' hmove' snap hsnap =>
      List.mem_append_left _ (hreceived move' (List.mem_cons_of_mem _ hmove') snap hsnap)
    refine ⟨w', Runs.exec_cons_some.mpr ⟨w₁, hstep, hexec⟩, hm, fun k hk => ?_⟩
    rw [hother k hk]
    exact Function.update_of_ne hk m₁ w.machine

/-! ## What a node holds -/

/-- The data of a snapshot has the `last_applied` of its meta, which is an id of the log. -/
structure Genuine (K : SnapshotCodec) (L : Log) (snap : Snapshot) : Prop where
  decodes : ∃ data, K.fromSlice snap.bytes = some data ∧ data.lastApplied = snap.snapMeta.lastLogId
  reached : L.Reached snap.snapMeta.lastLogId

/-- Encoding a state under a meta with the same `last_applied`. -/
theorem Genuine.encode {inner : StateMachineInner} {snapMeta : SnapshotMeta}
    {order : List (String × ShardId)} (horder : Enumerates order inner.shardRoutes)
    (hmeta : snapMeta.lastLogId = inner.lastApplied) (hreached : L.Reached inner.lastApplied) :
    Genuine K L ⟨snapMeta, K.toVec order inner.toData⟩ where
  decodes := ⟨inner.toData, K.roundtrip order inner.toData horder, hmeta.symm⟩
  reached := by
    show L.Reached snapMeta.lastLogId
    rw [hmeta]
    exact hreached

structure Machine.Ok (K : SnapshotCodec) (L : Log) (m : Machine) : Prop where
  reached : L.Reached m.sm.inner.lastApplied
  todo : m.todo <+: L.entries.drop (nextIndex m.sm.inner.lastApplied)
  /-- nothing is applied while a snapshot is installed, so the state stays at its meta -/
  installing : ∀ i, m.installing = some i →
    m.todo = [] ∧ m.current = none ∧ i.snapMeta.lastLogId = m.sm.inner.lastApplied
  storing : ∀ snap, m.installing = some (.store snap) → Genuine K L snap
  holding : ∀ snap, m.holding = some snap →
    Genuine K L snap ∧ snap.position ≤ nextIndex m.sm.inner.lastApplied
  cached : ∀ snap, m.sm.getCurrentSnapshot = some snap →
    Genuine K L snap ∧ snap.position ≤ nextIndex m.sm.inner.lastApplied
  installed : ∀ snap ∈ m.installed, snap.position ≤ nextIndex m.sm.inner.lastApplied
  /-- the cache is ahead of the builder exactly if something newer was installed since it read -/
  overtaken : ∀ held, m.holding = some held →
    ((∀ snap, m.sm.getCurrentSnapshot = some snap → snap.position ≤ held.position) ↔
      ∀ snap ∈ m.installed, snap.position ≤ held.position)

theorem Machine.Ok.start (wiring : Wiring) :
    (Machine.start (Replica.start wiring).sm).Ok K L where
  reached := L.reached_none
  todo := List.nil_prefix
  installing i h := by cases h
  storing snap h := by cases h
  holding snap h := by cases h
  cached snap h := by cases h
  installed snap h := by cases h
  overtaken held h := by cases h

/-- A section of `apply`: the state moves forward in the log and the rest stays. -/
theorem Machine.Ok.advance {m m' : Machine} (hok : m.Ok K L)
    (hreached : L.Reached m'.sm.inner.lastApplied)
    (hle : nextIndex m.sm.inner.lastApplied ≤ nextIndex m'.sm.inner.lastApplied)
    (htodo : m'.todo <+: L.entries.drop (nextIndex m'.sm.inner.lastApplied))
    (hinstalling : m'.installing = none) (hholding : m'.holding = m.holding)
    (hinstalled : m'.installed = m.installed)
    (hcached : m'.sm.getCurrentSnapshot = m.sm.getCurrentSnapshot) : m'.Ok K L where
  reached := hreached
  todo := htodo
  installing i h := by rw [hinstalling] at h; cases h
  storing snap h := by rw [hinstalling] at h; cases h
  holding snap h := by
    rw [hholding] at h
    exact ⟨(hok.holding snap h).1, (hok.holding snap h).2.trans hle⟩
  cached snap h := by
    rw [hcached] at h
    exact ⟨(hok.cached snap h).1, (hok.cached snap h).2.trans hle⟩
  installed snap h := by
    rw [hinstalled] at h
    exact (hok.installed snap h).trans hle
  overtaken held h := by
    rw [hholding] at h
    rw [hcached, hinstalled]
    exact hok.overtaken held h

/-- Sending to the forwarder touches neither the state nor the cache. -/
theorem forwarded_fields (sm : StateMachineStore) (e : Entry) :
    ((e.forward?.map sm.sendForwarder).getD sm).inner = sm.inner ∧
      ((e.forward?.map sm.sendForwarder).getD sm).cachedSnapshot = sm.cachedSnapshot := by
  cases e.forward? <;> exact ⟨rfl, rfl⟩

theorem Machine.Ok.not_installing {m : Machine} (hok : m.Ok K L)
    (h : m.todo ≠ [] ∨ m.current ≠ none) : m.installing = none := by
  by_contra hinstalling
  obtain ⟨i, hi⟩ := Option.ne_none_iff_exists'.mp hinstalling
  obtain ⟨htodo, hcurrent, _⟩ := hok.installing i hi
  rcases h with h | h
  · exact h htodo
  · exact h hcurrent

theorem Machine.Ok.record {m : Machine} {e : Entry} {rest : List Entry} (hok : m.Ok K L)
    (htodo : m.todo = e :: rest) :
    Machine.Ok K L
      { m with
        sm := { m.sm with inner := recordEntry e m.sm.inner }
        todo := rest
        current := afterRecord J e } := by
  have hcall := hok.todo
  rw [htodo] at hcall
  obtain ⟨hget, hrest⟩ := Lists.cons_initial_drop hcall
  have hindex := L.index_eq _ e hget
  have hinstalling : m.installing = none := by
    refine hok.not_installing (.inl ?_)
    rw [htodo]
    exact List.cons_ne_nil e rest
  refine hok.advance ?_ ?_ ?_ hinstalling rfl rfl rfl
  · exact Log.reached_of_getElem? hget
  · show _ ≤ e.logId.index + 1
    omega
  · show rest <+: L.entries.drop (e.logId.index + 1)
    rw [hindex]
    exact hrest

/-- The snapshot just stored is the newest one installed since the builder's read. -/
theorem Machine.Ok.store {m : Machine} {snap : Snapshot} (hok : m.Ok K L)
    (hinstalling : m.installing = some (.store snap)) :
    Machine.Ok K L
      { m with
        sm := { m.sm with cachedSnapshot := some snap }
        installing := none
        installed := m.installed ++ [snap] } := by
  obtain ⟨_, _, hmeta⟩ := hok.installing _ hinstalling
  have hposition : snap.position = nextIndex m.sm.inner.lastApplied := congrArg nextIndex hmeta
  refine
    { hok with
      installing := fun i hi => by cases hi
      storing := fun s hs => by cases hs
      cached := ?_
      installed := ?_
      overtaken := ?_ }
  · rintro s hs
    cases hs
    exact ⟨hok.storing snap hinstalling, hposition.le⟩
  · intro s hs
    rcases List.mem_append.mp hs with hs | hs
    · exact hok.installed s hs
    · rw [List.mem_singleton.mp hs]
      exact hposition.le
  · intro held hheld
    constructor
    · intro hcached s hs
      have hsnap := hcached snap rfl
      rcases List.mem_append.mp hs with hs | hs
      · have hs := hok.installed s hs
        omega
      · rw [List.mem_singleton.mp hs]
        exact hsnap
    · rintro hall s hs
      cases hs
      exact hall snap (List.mem_append_right _ (List.mem_singleton_self snap))

/-- **Every section keeps a node in order**, if what it takes from other nodes is genuine. -/
theorem Machine.step_ok {m m' : Machine} {move : Move} (hok : m.Ok K L)
    (hreceived : ∀ snap ∈ move.received, Genuine K L snap)
    (h : m.step J K L move = some m') : m'.Ok K L := by
  cases Machine.turn_of_step h with
  | call hfree =>
    exact hok.advance hok.reached (Nat.le_refl _) (List.take_prefix _ _) hfree.2.2 rfl rfl rfl
  | record hcurrent htodo => exact hok.record htodo
  | @command e cmd hcurrent hcmd =>
    have hlast := updateConfig_lastApplied cmd m.sm.inner
    have hinstalling := hok.not_installing (.inr (by rw [hcurrent]; simp))
    refine hok.advance ?_ ?_ ?_ hinstalling rfl rfl rfl
    · show L.Reached (updateConfig cmd m.sm.inner).lastApplied
      rw [hlast]
      exact hok.reached
    · show _ ≤ nextIndex (updateConfig cmd m.sm.inner).lastApplied
      rw [hlast]
    · show m.todo <+: L.entries.drop (nextIndex (updateConfig cmd m.sm.inner).lastApplied)
      rw [hlast]
      exact hok.todo
  | @count e hcurrent =>
    have hsent := forwarded_fields m.sm e
    have hlast : ((e.forward?.map m.sm.sendForwarder).getD m.sm).inner.lastApplied =
        m.sm.inner.lastApplied := by rw [hsent.1]
    have hinstalling := hok.not_installing (.inr (by rw [hcurrent]; simp))
    refine hok.advance ?_ (Nat.le_of_eq (congrArg nextIndex hlast.symm)) ?_ hinstalling rfl rfl
      hsent.2
    · show L.Reached ((e.forward?.map m.sm.sendForwarder).getD m.sm).inner.lastApplied
      rw [hlast]
      exact hok.reached
    · show m.todo <+: L.entries.drop
        (nextIndex ((e.forward?.map m.sm.sendForwarder).getD m.sm).inner.lastApplied)
      rw [hlast]
      exact hok.todo
  | build horder =>
    refine
      { hok with
        holding := ?_
        installed := fun snap hsnap => by cases hsnap
        overtaken := ?_ }
    · rintro snap hsnap
      cases hsnap
      exact ⟨Genuine.encode horder rfl hok.reached, Nat.le_refl _⟩
    · rintro held hheld
      cases hheld
      exact iff_of_true (fun snap hsnap => (hok.cached snap hsnap).2) fun snap hsnap => by cases hsnap
  | cache hheld =>
    refine
      { hok with
        holding := fun snap hsnap => by cases hsnap
        cached := ?_
        overtaken := fun held hheld => by cases hheld }
    rintro snap hsnap
    cases hsnap
    exact hok.holding _ hheld
  | getCurrent => exact hok
  | @load snap data hfree hnewer hdecode =>
    obtain ⟨⟨data', hdecode', hdata⟩, hreached⟩ := hreceived snap (List.mem_singleton_self snap)
    cases hdecode.symm.trans hdecode'
    have hlast : data.toInner.lastApplied = snap.snapMeta.lastLogId := hdata
    have hle : nextIndex m.sm.inner.lastApplied ≤ nextIndex data.toInner.lastApplied := by
      rw [hlast]
      exact hnewer
    exact
      { reached := by
          show L.Reached data.toInner.lastApplied
          rw [hlast]
          exact hreached
        todo := by
          show m.todo <+: _
          rw [hfree.1]
          exact List.nil_prefix
        installing := by
          rintro i hi
          cases hi
          exact ⟨hfree.1, hfree.2.1, hlast.symm⟩
        storing := fun snap hsnap => by cases hsnap
        holding := fun s hs => ⟨(hok.holding s hs).1, (hok.holding s hs).2.trans hle⟩
        cached := fun s hs => ⟨(hok.cached s hs).1, (hok.cached s hs).2.trans hle⟩
        installed := fun s hs => (hok.installed s hs).trans hle
        overtaken := hok.overtaken }
  | refuse hdecode => exact hok
  | replay hinstalling =>
    obtain ⟨htodo, hcurrent, hmeta⟩ := hok.installing _ hinstalling
    refine { hok with installing := ?_, storing := fun snap hsnap => by cases hsnap }
    rintro i hi
    cases hi
    exact ⟨htodo, hcurrent, hmeta⟩
  | encode hinstalling horder =>
    obtain ⟨htodo, hcurrent, hmeta⟩ := hok.installing _ hinstalling
    refine { hok with installing := ?_, storing := ?_ }
    · rintro i hi
      cases hi
      exact ⟨htodo, hcurrent, hmeta⟩
    · rintro snap hsnap
      cases hsnap
      exact Genuine.encode horder hmeta hok.reached
  | store hinstalling => exact hok.store hinstalling

/-! ## Whole runs -/

structure World.Ok (K : SnapshotCodec) (L : Log) (w : World) : Prop where
  machine : ∀ n, (w.machine n).Ok K L
  issued : ∀ snap ∈ w.issued, Genuine K L snap
  builds : ∀ b ∈ w.builds, Enumerates b.order b.inner.shardRoutes ∧ L.Reached b.inner.lastApplied

theorem World.Ok.start (wiring : NodeId → Wiring) : (World.start wiring).Ok K L where
  machine n := Machine.Ok.start (wiring n)
  issued snap h := by cases h
  builds b h := by cases h

/-- A snapshot that is returned was held by the builder or cached. -/
theorem Move.mem_returned {m : Machine} {move : Move} {snap : Snapshot}
    (h : snap ∈ move.returned m) : m.holding = some snap ∨ m.sm.getCurrentSnapshot = some snap := by
  cases move with
  | cache => exact .inl (Option.mem_toList.mp h)
  | getCurrent => exact .inr (Option.mem_toList.mp h)
  | call _ | record | command | count | build _ | load _ | replay _ | encode _ | store => cases h

theorem Move.mem_builds {m : Machine} {move : Move} {b : Build} (h : b ∈ move.builds m) :
    ∃ order, move = .build order ∧ b = ⟨m.sm.inner, order⟩ := by
  cases move with
  | build order => exact ⟨order, rfl, List.mem_singleton.mp h⟩
  | call _ | record | command | count | cache | getCurrent | load _ | replay _ | encode _ | store =>
    cases h

theorem step_ok {w w' : World} {l : Label} (hok : w.Ok K L) (h : step J K L w l = some w') :
    w'.Ok K L := by
  obtain ⟨hreceived, m, hm, rfl⟩ := step_some h
  have hm' := Machine.step_ok (hok.machine l.node) (fun s hs => hok.issued s (hreceived s hs)) hm
  constructor
  · exact (Function.forall_update_iff w.machine fun _ m => m.Ok K L).mpr
      ⟨hm', fun n _ => hok.machine n⟩
  · intro snap hsnap
    rcases List.mem_append.mp hsnap with hsnap | hsnap
    · exact hok.issued snap hsnap
    · rcases Move.mem_returned hsnap with hheld | hcached
      · exact ((hok.machine l.node).holding snap hheld).1
      · exact ((hok.machine l.node).cached snap hcached).1
  · intro b hb
    rcases List.mem_append.mp hb with hb | hb
    · exact hok.builds b hb
    · obtain ⟨order, hmove, rfl⟩ := Move.mem_builds hb
      rw [hmove] at hm
      simp only [Machine.step, Option.ite_none_right_eq_some] at hm
      exact ⟨hm.1.2, (hok.machine l.node).reached⟩

theorem exec_ok {wiring : NodeId → Wiring} {labels : List Label} {w : World}
    (h : Runs.exec (step J K L) (World.start wiring) labels = some w) : w.Ok K L :=
  Runs.exec_inv (fun _ _ _ hok hs => step_ok hok hs) (World.Ok.start wiring) h

end SnapshotTasks

end RaftTimeDB
