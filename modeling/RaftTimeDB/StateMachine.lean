import RaftTimeDB.Router

/-!
# The Raft state machine of a shard

Model of `crates/proxy/src/raft/state_machine.rs`.  `apply` is written section by section: each
`inner.lock()` block of the source is one function on `StateMachineInner` (`recordEntry`,
`updateConfig`, `countApplied`), so that concurrent systems can interleave the sections.

* An attached unbounded channel is its queue, `none` a channel that is not attached.  Messages
  for the forwarder carry the log index of their entry as a ghost field: no code reads it.
* `serde_json` at `SnapshotData` and openraft's display of leader ids are the parameter
  `SnapshotCodec`, which is assumed to round-trip.  The text of a hash map follows its iteration
  order, so encoding takes that order as an argument.
* `apply` never fails, and so its `Result` is left out; `installSnapshot` fails on malformed bytes.

Principal results: `applyEntry_spec` and `apply_spec` — what applying entries does to each part of
the store; `fromSlice_snapshotOf` — a built snapshot decodes to the state it was built from.
-/

set_option autoImplicit false

namespace RaftTimeDB

/-! ## State -/

structure StateMachineInner where
  lastApplied : Option LogId
  lastMembership : StoredMembership
  appliedCount : Nat
  shardRoutes : RouteMap
  activeShards : List ShardId
  deriving DecidableEq

/-- The serialised snapshot.  The source declares the same five fields again. -/
structure SnapshotData where
  lastApplied : Option LogId
  lastMembership : StoredMembership
  appliedCount : Nat
  shardRoutes : RouteMap
  activeShards : List ShardId
  deriving DecidableEq

/-- The record `build_snapshot` and `install_snapshot` encode. -/
def StateMachineInner.toData (inner : StateMachineInner) : SnapshotData :=
  ⟨inner.lastApplied, inner.lastMembership, inner.appliedCount, inner.shardRoutes,
    inner.activeShards⟩

/-- The assignments of `install_snapshot`. -/
def SnapshotData.toInner (data : SnapshotData) : StateMachineInner :=
  ⟨data.lastApplied, data.lastMembership, data.appliedCount, data.shardRoutes, data.activeShards⟩

@[simp] theorem StateMachineInner.toInner_toData (inner : StateMachineInner) :
    inner.toData.toInner = inner := rfl

structure SnapshotMeta where
  lastLogId : Option LogId
  lastMembership : StoredMembership
  snapshotId : String
  deriving DecidableEq

structure Snapshot where
  snapMeta : SnapshotMeta
  bytes : Bytes
  deriving DecidableEq

/-- The third-party formatting snapshots rest on: `serde_json` at `SnapshotData`, and the display
of openraft leader ids. -/
structure SnapshotCodec where
  toVec : List (String × ShardId) → SnapshotData → Bytes
  fromSlice : Bytes → Option SnapshotData
  showLeader : LeaderId → String
  roundtrip : ∀ order data, Enumerates order data.shardRoutes →
    fromSlice (toVec order data) = some data

/-- A message on the forwarder channel; `logIndex` is ghost. -/
structure ForwarderMsg where
  logIndex : Nat
  originNodeId : NodeId
  rawMessage : Bytes
  deriving DecidableEq, Repr

structure StateMachineStore where
  inner : StateMachineInner
  forwarder : Option (List ForwarderMsg)
  shardConfigTx : Option (List ShardConfigCommand)
  cachedSnapshot : Option Snapshot
  deriving DecidableEq

def StateMachineInner.new : StateMachineInner := ⟨none, StoredMembership.empty, 0, ∅, []⟩

inductive ErrorSubject where
  | stateMachine
  | logs
  deriving DecidableEq, Repr

inductive ErrorVerb where
  | read
  | write
  deriving DecidableEq, Repr

structure StorageError where
  subject : ErrorSubject
  verb : ErrorVerb
  deriving DecidableEq, Repr

namespace StateMachineStore

def new : StateMachineStore := ⟨StateMachineInner.new, none, none, none⟩

/-- `set_forwarder` with a fresh channel. -/
def setForwarder (sm : StateMachineStore) : StateMachineStore := { sm with forwarder := some [] }

/-- `set_shard_config_tx` with a fresh channel. -/
def setShardConfigTx (sm : StateMachineStore) : StateMachineStore :=
  { sm with shardConfigTx := some [] }

def appliedState (sm : StateMachineStore) : Option LogId × StoredMembership :=
  (sm.inner.lastApplied, sm.inner.lastMembership)

/-- `tx.send` on the forwarder channel, if it is attached. -/
def sendForwarder (sm : StateMachineStore) (msg : ForwarderMsg) : StateMachineStore :=
  { sm with forwarder := sm.forwarder.map (· ++ [msg]) }

/-- `tx.send` on the shard config channel, if it is attached. -/
def sendShardConfig (sm : StateMachineStore) (cmd : ShardConfigCommand) : StateMachineStore :=
  { sm with shardConfigTx := sm.shardConfigTx.map (· ++ [cmd]) }

end StateMachineStore

/-! ## apply -/

/-- First locked section of the loop body. -/
def recordEntry (entry : Entry) (inner : StateMachineInner) : StateMachineInner :=
  { inner with
    lastApplied := some entry.logId
    lastMembership :=
      match entry.payload with
      | .membership m => ⟨some entry.logId, m⟩
      | _ => inner.lastMembership }

/-- Second locked section, for a decoded shard config command. -/
def updateConfig (cmd : ShardConfigCommand) (inner : StateMachineInner) : StateMachineInner :=
  match cmd with
  | .createShard shardId =>
      if shardId ∈ inner.activeShards then inner
      else { inner with activeShards := inner.activeShards ++ [shardId] }
  | .addRoute moduleName shardId =>
      { inner with shardRoutes := inner.shardRoutes.insert moduleName shardId }
  | .removeRoute moduleName =>
      { inner with shardRoutes := inner.shardRoutes.erase moduleName }

/-- Third locked section. -/
def countApplied (inner : StateMachineInner) : StateMachineInner :=
  { inner with appliedCount := inner.appliedCount + 1 }

/-- Loop body of `apply`. -/
def StateMachineStore.applyEntry (J : CommandJson) (sm : StateMachineStore) (entry : Entry) :
    StateMachineStore :=
  let sm := { sm with inner := recordEntry entry sm.inner }
  match entry.payload with
  | .normal request =>
      let sm :=
        if request.rawMessage.head? = some SHARD_CONFIG_TAG then
          match decodeShardConfig J request.rawMessage with
          | some cmd => { sm with inner := updateConfig cmd sm.inner }.sendShardConfig cmd
          | none => sm
        else
          sm.sendForwarder ⟨entry.logId.index, request.originNodeId, request.rawMessage⟩
      { sm with inner := countApplied sm.inner }
  | _ => sm

/-- `apply`: the store afterwards and one response per entry. -/
def StateMachineStore.apply (J : CommandJson) (sm : StateMachineStore) (entries : List Entry) :
    StateMachineStore × List ReducerCallResponse :=
  entries.foldl (fun acc entry => (acc.1.applyEntry J entry, acc.2 ++ [⟨true⟩])) (sm, [])

/-! ### What an entry means to the state machine -/

/-- The shard config command an entry carries. -/
def Entry.command? (J : CommandJson) (entry : Entry) : Option ShardConfigCommand :=
  match entry.payload with
  | .normal request => decodeShardConfig J request.rawMessage
  | _ => none

/-- The message an entry puts on the forwarder channel: every normal entry without the config
tag. -/
def Entry.forward? (entry : Entry) : Option ForwarderMsg :=
  match entry.payload with
  | .normal request =>
      if request.rawMessage.head? = some SHARD_CONFIG_TAG then none
      else some ⟨entry.logId.index, request.originNodeId, request.rawMessage⟩
  | _ => none

def Entry.isNormal (entry : Entry) : Bool :=
  match entry.payload with
  | .normal _ => true
  | _ => false

/-- The effect of one entry on the locked state, all sections together. -/
def applyInner (J : CommandJson) (inner : StateMachineInner) (entry : Entry) : StateMachineInner :=
  let inner := recordEntry entry inner
  let inner := ((entry.command? J).map fun cmd => updateConfig cmd inner).getD inner
  if entry.isNormal then countApplied inner else inner

theorem decodeShardConfig_untagged {J : CommandJson} {data : Bytes}
    (h : ¬ data.head? = some SHARD_CONFIG_TAG) : decodeShardConfig J data = none := by
  simp [decodeShardConfig, h]

/-- **One entry**: the locked state takes the entry's effect, an untagged request goes to the
forwarder and a decoded command to the pool. -/
theorem StateMachineStore.applyEntry_spec (J : CommandJson) (sm : StateMachineStore)
    (entry : Entry) :
    sm.applyEntry J entry =
      { inner := applyInner J sm.inner entry
        forwarder := sm.forwarder.map (· ++ entry.forward?.toList)
        shardConfigTx := sm.shardConfigTx.map (· ++ (entry.command? J).toList)
        cachedSnapshot := sm.cachedSnapshot } := by
  obtain ⟨logId, payload⟩ := entry
  cases payload with
  | blank => simp [applyEntry, applyInner, Entry.command?, Entry.forward?, Entry.isNormal]
  | membership m => simp [applyEntry, applyInner, Entry.command?, Entry.forward?, Entry.isNormal]
  | normal request =>
    by_cases htag : request.rawMessage.head? = some SHARD_CONFIG_TAG
    · cases hcmd : decodeShardConfig J request.rawMessage with
      | none =>
        simp [applyEntry, applyInner, Entry.command?, Entry.forward?, Entry.isNormal, htag, hcmd]
      | some cmd =>
        simp [applyEntry, applyInner, Entry.command?, Entry.forward?, Entry.isNormal, htag, hcmd,
          sendShardConfig]
    · simp [applyEntry, applyInner, Entry.command?, Entry.forward?, Entry.isNormal, htag,
        decodeShardConfig_untagged htag, sendForwarder]

theorem StateMachineStore.foldl_applyEntry (J : CommandJson) (entries : List Entry) :
    ∀ (sm : StateMachineStore) (rs : List ReducerCallResponse),
      entries.foldl (fun acc entry => (acc.1.applyEntry J entry, acc.2 ++ [⟨true⟩])) (sm, rs) =
        ({ inner := entries.foldl (applyInner J) sm.inner
           forwarder := sm.forwarder.map (· ++ entries.filterMap Entry.forward?)
           shardConfigTx := sm.shardConfigTx.map (· ++ entries.filterMap (Entry.command? J))
           cachedSnapshot := sm.cachedSnapshot },
          rs ++ List.replicate entries.length ⟨true⟩) := by
  induction entries with
  | nil => intro sm rs; simp
  | cons entry entries ih =>
    intro sm rs
    rw [List.foldl_cons, ih, applyEntry_spec]
    have hforward : ∀ q : List ForwarderMsg,
        q ++ entry.forward?.toList ++ entries.filterMap Entry.forward? =
          q ++ (entry :: entries).filterMap Entry.forward? := by
      intro q
      cases h : entry.forward? <;> simp [h]
    have hcommand : ∀ q : List ShardConfigCommand,
        q ++ (entry.command? J).toList ++ entries.filterMap (Entry.command? J) =
          q ++ (entry :: entries).filterMap (Entry.command? J) := by
      intro q
      cases h : entry.command? J <;> simp [h]
    simp only [Option.map_map, Function.comp_def, hforward, hcommand, List.foldl_cons,
      List.length_cons, List.replicate_succ, List.append_assoc, List.singleton_append]

/-- **A batch**: the entries' effects in order, their forwards and commands appended to the
channels, and one response per entry. -/
theorem StateMachineStore.apply_spec (J : CommandJson) (sm : StateMachineStore)
    (entries : List Entry) :
    sm.apply J entries =
      ({ inner := entries.foldl (applyInner J) sm.inner
         forwarder := sm.forwarder.map (· ++ entries.filterMap Entry.forward?)
         shardConfigTx := sm.shardConfigTx.map (· ++ entries.filterMap (Entry.command? J))
         cachedSnapshot := sm.cachedSnapshot },
        List.replicate entries.length ⟨true⟩) := by
  rw [apply, foldl_applyEntry, List.nil_append]

/-! ## Snapshots -/

/-- The commands `install_snapshot` replays to the pool, in the given iteration order of the
routes. -/
def replayCommands (order : List (String × ShardId)) (inner : StateMachineInner) :
    List ShardConfigCommand :=
  inner.activeShards.map .createShard ++ order.map fun p => .addRoute p.1 p.2

/-- `snapshot_id` of a state. -/
def SnapshotCodec.snapshotId (K : SnapshotCodec) (inner : StateMachineInner) : String :=
  match inner.lastApplied with
  | some id => K.showLeader id.leaderId ++ "-" ++ toString id.index
  | none => "0-0"

namespace StateMachineStore

/-- `install_snapshot`.  `replayOrder` and `encodeOrder` are the iteration orders of the new route
table and of its clone. -/
def installSnapshot (K : SnapshotCodec) (replayOrder encodeOrder : List (String × ShardId))
    (sm : StateMachineStore) (snap : Snapshot) : Except StorageError StateMachineStore :=
  match K.fromSlice snap.bytes with
  | none => .error ⟨.stateMachine, .read⟩
  | some data =>
      let inner := data.toInner
      -- replay shard config to the pool, then cache the snapshot under the received meta
      .ok { inner := inner
            forwarder := sm.forwarder
            shardConfigTx := sm.shardConfigTx.map (· ++ replayCommands replayOrder inner)
            cachedSnapshot := some ⟨snap.snapMeta, K.toVec encodeOrder inner.toData⟩ }

def getCurrentSnapshot (sm : StateMachineStore) : Option Snapshot := sm.cachedSnapshot

/-- The snapshot `build_snapshot` makes of the locked state. -/
def snapshotOf (K : SnapshotCodec) (order : List (String × ShardId)) (inner : StateMachineInner) :
    Snapshot :=
  ⟨⟨inner.lastApplied, inner.lastMembership, K.snapshotId inner⟩, K.toVec order inner.toData⟩

/-- A built snapshot decodes to the state it was built from. -/
theorem fromSlice_snapshotOf (K : SnapshotCodec) {order : List (String × ShardId)}
    {inner : StateMachineInner} (horder : Enumerates order inner.shardRoutes) :
    K.fromSlice (snapshotOf K order inner).bytes = some inner.toData :=
  K.roundtrip order inner.toData horder

/-- `build_snapshot`: the snapshot is returned and cached. -/
def buildSnapshot (K : SnapshotCodec) (order : List (String × ShardId)) (sm : StateMachineStore) :
    StateMachineStore × Snapshot :=
  let snapshot := snapshotOf K order sm.inner
  ({ sm with cachedSnapshot := some snapshot }, snapshot)

end StateMachineStore

end RaftTimeDB
