import RaftTimeDB.Handler
import RaftTimeDB.Lib.Runs
import RaftTimeDB.LogSpec

/-!
# A node: its Raft groups, its start and its config listener

One process with the Raft groups it has started, the remaining steps of `RaftPool::new`, and the task that
carries out shard config commands (`crates/proxy/src/raft/mod.rs`).

* `Raft::new` starts a group, and from then on openraft may call `apply` and `install_snapshot` on its
  state machine at any time.  A call runs section by section (`Action`): `apply` first clones the two
  senders, `install_snapshot` the config sender, and a call keeps what it has cloned.
* `RaftPool::new` starts shard 0, then attaches its config channel, then its forwarder channel, then spawns
  the listener.  `handle_shard_config` starts a shard, attaches its forwarder and puts it into the map.
  What it does after that (openraft's `initialize`) touches none of these tables.
* Clients' messages are classified and proposed; which entries openraft applies is up to the environment.
* Ghost fields record what a group's entries should put on the channels (`due`), what its `apply` calls
  have put there (`sent`), the attempts to create shards, and the proposals made for clients.

Principal results: `foldl_act_apply` and `foldl_act_install` — the sections of an undisturbed call together
are `apply` and `install_snapshot`; `step_effect` — everything a move can do.
-/

set_option autoImplicit false

namespace RaftTimeDB.Node

/-! ## Calls on a state machine -/

/-- Something put on a channel of a shard. -/
inductive Posted where
  | config (cmd : ShardConfigCommand)
  | forward (msg : ForwarderMsg)
  deriving DecidableEq, Repr

/-- A section of a running call.  The message of `dispatch` and `skip` is ghost. -/
inductive Action where
  /-- clone the forwarder sender -/
  | readForwarder
  /-- clone the config sender -/
  | readConfig
  /-- first locked section of an entry -/
  | record (entry : Entry)
  /-- second locked section, for a decoded command -/
  | config (cmd : ShardConfigCommand)
  | dispatch (cmd : ShardConfigCommand) (msg : ForwarderMsg)
  /-- a tagged request that does not decode -/
  | skip (msg : ForwarderMsg)
  | forward (msg : ForwarderMsg)
  /-- third locked section -/
  | count
  /-- the assignments of `install_snapshot` -/
  | load (inner : StateMachineInner)
  /-- a command `install_snapshot` replays to the pool -/
  | replay (cmd : ShardConfigCommand)
  | cache (snap : Snapshot)
  deriving DecidableEq

/-- The payload of an entry that starts with the config tag. -/
def tagged? (entry : Entry) : Option Bytes :=
  match entry.payload with
  | .normal request =>
      if request.rawMessage.head? = some SHARD_CONFIG_TAG then some request.rawMessage else none
  | _ => none

/-- The forwarder message of a request. -/
def messageOf (entry : Entry) (request : ReducerCallRequest) : ForwarderMsg :=
  ⟨entry.logId.index, request.originNodeId, request.rawMessage⟩

/-- What `apply` does with the payload of a Normal entry. -/
def requestActions (J : CommandJson) (entry : Entry) (request : ReducerCallRequest) : List Action :=
  if request.rawMessage.head? = some SHARD_CONFIG_TAG then
    match decodeShardConfig J request.rawMessage with
    | some cmd => [.config cmd, .dispatch cmd (messageOf entry request)]
    | none => [.skip (messageOf entry request)]
  else [.forward (messageOf entry request)]

/-- Loop body of `apply`. -/
def entryActions (J : CommandJson) (entry : Entry) : List Action :=
  .record entry ::
    match entry.payload with
    | .normal request => requestActions J entry request ++ [.count]
    | _ => []

def applyActions (J : CommandJson) (entries : List Entry) : List Action :=
  .readForwarder :: .readConfig :: entries.flatMap (entryActions J)

/-- `install_snapshot`; it does nothing if the snapshot does not decode. -/
def installActions (K : SnapshotCodec) (snap : Snapshot) (replayOrder encodeOrder : List (String × ShardId)) :
    List Action :=
  match K.fromSlice snap.bytes with
  | none => []
  | some data =>
      .load data.toInner :: .readConfig ::
        ((replayCommands replayOrder data.toInner).map .replay ++
          [.cache ⟨snap.snapMeta, K.toVec encodeOrder data⟩])

/-- A Raft group: its state machine, and the running call with the senders it has cloned and the sections
left. -/
structure Group where
  sm : StateMachineStore
  forwarderTx : Bool
  configTx : Bool
  todo : List Action
  due : List Posted
  sent : List Posted
  deriving DecidableEq

/-- A group that has just been started. -/
def Group.new : Group := ⟨StateMachineStore.new, false, false, [], [], []⟩

/-- What an entry with this message should put on a channel: its command on the config channel, if it
carries one and the shard is 0, else its message on the forwarder channel. -/
def expected (shardId : ShardId) (cmd : Option ShardConfigCommand) (msg : ForwarderMsg) : Posted :=
  match shardId, cmd with
  | 0, some cmd => .config cmd
  | _, _ => .forward msg

namespace Group

def setInner (g : Group) (inner : StateMachineInner) : Group :=
  { g with sm := { g.sm with inner := inner } }

/-- `tx.send` on the cloned config sender, if there is one. -/
def sendConfig (g : Group) (cmd : ShardConfigCommand) : StateMachineStore :=
  if g.configTx then g.sm.sendShardConfig cmd else g.sm

/-- `tx.send` on the cloned forwarder sender, if there is one. -/
def sendForward (g : Group) (msg : ForwarderMsg) : StateMachineStore :=
  if g.forwarderTx then g.sm.sendForwarder msg else g.sm

/-- One section of the running call. -/
def act (shardId : ShardId) (g : Group) : Action → Group
  | .readForwarder => { g with forwarderTx := g.sm.forwarder.isSome }
  | .readConfig => { g with configTx := g.sm.shardConfigTx.isSome }
  | .record entry => g.setInner (recordEntry entry g.sm.inner)
  | .config cmd => g.setInner (updateConfig cmd g.sm.inner)
  | .dispatch cmd msg =>
      { g with
        sm := g.sendConfig cmd
        due := g.due ++ [expected shardId (some cmd) msg]
        sent := g.sent ++ if g.configTx then [.config cmd] else [] }
  | .skip msg => { g with due := g.due ++ [expected shardId none msg] }
  | .forward msg =>
      { g with
        sm := g.sendForward msg
        due := g.due ++ [expected shardId none msg]
        sent := g.sent ++ if g.forwarderTx then [.forward msg] else [] }
  | .count => g.setInner (countApplied g.sm.inner)
  | .load inner => g.setInner inner
  | .replay cmd => { g with sm := g.sendConfig cmd }
  | .cache snap => { g with sm := { g.sm with cachedSnapshot := some snap } }

/-- The running call has cloned the senders that are attached. -/
def Current (g : Group) : Prop :=
  g.forwarderTx = g.sm.forwarder.isSome ∧ g.configTx = g.sm.shardConfigTx.isSome

end Group

namespace Group

variable {shardId : ShardId} {g : Group}

theorem Current.sendConfig (h : g.Current) (cmd : ShardConfigCommand) :
    g.sendConfig cmd = g.sm.sendShardConfig cmd := by
  unfold Group.sendConfig
  split
  · rfl
  · rename_i hno
    rw [h.2, Bool.not_eq_true, Option.isSome_eq_false_iff, Option.isNone_iff_eq_none] at hno
    rw [StateMachineStore.sendShardConfig, hno, Option.map_none, ← hno]

theorem Current.sendForward (h : g.Current) (msg : ForwarderMsg) :
    g.sendForward msg = g.sm.sendForwarder msg := by
  unfold Group.sendForward
  split
  · rfl
  · rename_i hno
    rw [h.1, Bool.not_eq_true, Option.isSome_eq_false_iff, Option.isNone_iff_eq_none] at hno
    rw [StateMachineStore.sendForwarder, hno, Option.map_none, ← hno]

/-- No section detaches a channel. -/
theorem Current.act (h : g.Current) (shardId : ShardId) (a : Action) : (g.act shardId a).Current := by
  cases a with
  | readForwarder => exact ⟨rfl, h.2⟩
  | readConfig => exact ⟨h.1, rfl⟩
  | dispatch cmd msg | replay cmd =>
    have hsend := h.sendConfig cmd
    refine ⟨?_, ?_⟩
    · simp only [Group.act, hsend, StateMachineStore.sendShardConfig, h.1]
    · simp only [Group.act, hsend, StateMachineStore.sendShardConfig, Option.isSome_map, h.2]
  | forward msg =>
    have hsend := h.sendForward msg
    refine ⟨?_, ?_⟩
    · simp only [Group.act, hsend, StateMachineStore.sendForwarder, Option.isSome_map, h.1]
    · simp only [Group.act, hsend, StateMachineStore.sendForwarder, h.2]
  | record entry => exact h
  | config cmd => exact h
  | skip msg => exact h
  | count => exact h
  | load inner => exact h
  | cache snap => exact h

theorem Current.foldl_act (h : g.Current) (as : List Action) : (as.foldl (Group.act shardId) g).Current := by
  induction as generalizing g with
  | nil => exact h
  | cons a as ih => exact ih (h.act shardId a)

end Group

/-- **One entry**: its sections together are the loop body of `apply`. -/
theorem foldl_act_entry (J : CommandJson) (shardId : ShardId) (entry : Entry) {g : Group} (h : g.Current) :
    ((entryActions J entry).foldl (Group.act shardId) g).sm = g.sm.applyEntry J entry := by
  unfold entryActions StateMachineStore.applyEntry
  cases hpayload : entry.payload with
  | blank => rfl
  | membership m => rfl
  | normal request =>
    have hrecord := h.act shardId (.record entry)
    simp only [requestActions]
    split
    · rename_i htag
      cases hcmd : decodeShardConfig J request.rawMessage with
      | none => rfl
      | some cmd =>
        have hconfig := (hrecord.act shardId (.config cmd)).sendConfig cmd
        simp only [Group.act] at hconfig
        simp only [List.cons_append, List.nil_append, List.foldl_cons, List.foldl_nil, Group.act, hconfig]
        rfl
    · have hforward := hrecord.sendForward (messageOf entry request)
      simp only [Group.act] at hforward
      simp only [List.cons_append, List.nil_append, List.foldl_cons, List.foldl_nil, Group.act, hforward]
      rfl

theorem foldl_act_entries (J : CommandJson) (shardId : ShardId) (entries : List Entry) {g : Group}
    (h : g.Current) :
    ((entries.flatMap (entryActions J)).foldl (Group.act shardId) g).sm = (g.sm.apply J entries).1 := by
  rw [StateMachineStore.apply_spec]
  induction entries generalizing g with
  | nil => simp
  | cons entry entries ih =>
    rw [List.flatMap_cons, List.foldl_append, ih (h.foldl_act _), foldl_act_entry J shardId entry h,
      StateMachineStore.applyEntry_spec]
    cases hforward : entry.forward? <;> cases hcommand : entry.command? J <;>
      simp [hforward, hcommand, Function.comp_def]

/-- **A call of `apply`** that is not disturbed is `apply`. -/
theorem foldl_act_apply (J : CommandJson) (shardId : ShardId) (entries : List Entry) (g : Group) :
    ((applyActions J entries).foldl (Group.act shardId) g).sm = (g.sm.apply J entries).1 := by
  have hcurrent : ((g.act shardId .readForwarder).act shardId .readConfig).Current := ⟨rfl, rfl⟩
  exact foldl_act_entries J shardId entries hcurrent

theorem foldl_act_replay (shardId : ShardId) (cmds : List ShardConfigCommand) {g : Group} (h : g.Current) :
    ((cmds.map .replay).foldl (Group.act shardId) g).sm =
      { g.sm with shardConfigTx := g.sm.shardConfigTx.map (· ++ cmds) } := by
  induction cmds generalizing g with
  | nil => simp
  | cons cmd cmds ih =>
    have hcurrent := h.act shardId (.replay cmd)
    have hsend := h.sendConfig cmd
    rw [List.map_cons, List.foldl_cons, ih hcurrent]
    simp only [Group.act, hsend, StateMachineStore.sendShardConfig, Option.map_map]
    simp [Function.comp_def]

/-- **A call of `install_snapshot`** that is not disturbed is `install_snapshot`. -/
theorem foldl_act_install (K : SnapshotCodec) (shardId : ShardId) (snap : Snapshot)
    (replayOrder encodeOrder : List (String × ShardId)) {g : Group} (h : g.Current) :
    g.sm.installSnapshot K replayOrder encodeOrder snap =
      if (K.fromSlice snap.bytes).isSome then
        .ok ((installActions K snap replayOrder encodeOrder).foldl (Group.act shardId) g).sm
      else .error ⟨.stateMachine, .read⟩ := by
  unfold StateMachineStore.installSnapshot installActions
  cases K.fromSlice snap.bytes with
  | none => rfl
  | some data =>
    have hload := (h.act shardId (.load data.toInner)).act shardId .readConfig
    have hreplay := foldl_act_replay shardId (replayCommands replayOrder data.toInner) hload
    simp only [Group.act] at hreplay
    simp only [Option.isSome_some, if_true, List.foldl_cons, List.foldl_append, List.foldl_nil, Group.act,
      hreplay]
    rfl

/-! ## What a running call is going to do -/

/-- The effect of a section on the locked state. -/
def Action.onInner : Action → StateMachineInner → StateMachineInner
  | .record entry, inner => recordEntry entry inner
  | .config cmd, inner => updateConfig cmd inner
  | .count, inner => countApplied inner
  | .load inner, _ => inner
  | _, inner => inner

/-- The command a section sends to the pool. -/
def Action.command? : Action → Option ShardConfigCommand
  | .dispatch cmd _ => some cmd
  | .replay cmd => some cmd
  | _ => none

/-- Whether a call has a config sender after a section, the channel being attached. -/
def Action.onTx (a : Action) (tx : Bool) : Bool :=
  match a with
  | .readConfig => true
  | _ => tx

/-- The commands that sections send to the pool, the channel being attached; `tx` says whether the call has
cloned the sender. -/
def sends : Bool → List Action → List ShardConfigCommand
  | _, [] => []
  | tx, a :: as => (if tx then a.command?.toList else []) ++ sends (a.onTx tx) as

@[simp] theorem act_inner (shardId : ShardId) (g : Group) (a : Action) :
    (g.act shardId a).sm.inner = a.onInner g.sm.inner := by
  cases a with
  | dispatch cmd msg | replay cmd =>
    simp only [Group.act, Group.sendConfig, Action.onInner]
    split <;> rfl
  | forward msg =>
    simp only [Group.act, Group.sendForward, Action.onInner]
    split <;> rfl
  | _ => rfl

@[simp] theorem act_todo (shardId : ShardId) (g : Group) (a : Action) : (g.act shardId a).todo = g.todo := by
  cases a <;> rfl

/-- **A section on an attached config channel** appends what it sends. -/
theorem act_queue (shardId : ShardId) {g : Group} {queue : List ShardConfigCommand}
    (hqueue : g.sm.shardConfigTx = some queue) (a : Action) :
    (g.act shardId a).configTx = a.onTx g.configTx ∧
      (g.act shardId a).sm.shardConfigTx =
        some (queue ++ if g.configTx then a.command?.toList else []) := by
  cases a with
  | readConfig => simp [Group.act, Action.onTx, Action.command?, hqueue]
  | dispatch cmd msg | replay cmd =>
    refine ⟨rfl, ?_⟩
    simp only [Group.act, Group.sendConfig, Action.command?, Option.toList_some]
    split
    · simp [StateMachineStore.sendShardConfig, hqueue]
    · simp [hqueue]
  | forward msg =>
    refine ⟨rfl, ?_⟩
    simp only [Group.act, Group.sendForward, Action.command?]
    split <;> simp [StateMachineStore.sendForwarder, hqueue]
  | _ => simp [Group.act, Group.setInner, Action.onTx, Action.command?, hqueue]

theorem sends_true_append (as bs : List Action) :
    sends true (as ++ bs) = sends true as ++ sends true bs := by
  induction as with
  | nil => rfl
  | cons a as ih =>
    have htx : a.onTx true = true := by cases a <;> rfl
    simp only [List.cons_append, sends, htx, ih, List.append_assoc]

theorem sends_entry (J : CommandJson) (entry : Entry) :
    sends true (entryActions J entry) = (entry.command? J).toList := by
  unfold entryActions Entry.command?
  cases entry.payload with
  | blank => rfl
  | membership m => rfl
  | normal request =>
    simp only [requestActions]
    split
    · cases decodeShardConfig J request.rawMessage <;> rfl
    · rename_i htag
      rw [decodeShardConfig_untagged htag]
      rfl

/-- **A call of `apply`** sends the commands of its entries. -/
theorem sends_apply (J : CommandJson) (tx : Bool) (entries : List Entry) :
    sends tx (applyActions J entries) = commandsOf J entries := by
  have hentries : sends true (entries.flatMap (entryActions J)) = commandsOf J entries := by
    induction entries with
    | nil => rfl
    | cons entry entries ih =>
      rw [List.flatMap_cons, sends_true_append, sends_entry, ih]
      cases h : entry.command? J <;> simp [commandsOf, h]
  cases tx <;> exact hentries

theorem sends_replay (cmds : List ShardConfigCommand) : sends true (cmds.map .replay) = cmds := by
  induction cmds with
  | nil => rfl
  | cons cmd cmds ih => simp [sends, Action.command?, Action.onTx, ih]

/-- **A call of `install_snapshot`** replays the decoded snapshot. -/
theorem sends_install {K : SnapshotCodec} {snap : Snapshot} {data : SnapshotData}
    (hdecode : K.fromSlice snap.bytes = some data) (tx : Bool)
    (replayOrder encodeOrder : List (String × ShardId)) :
    sends tx (installActions K snap replayOrder encodeOrder) = replayCommands replayOrder data.toInner := by
  have hreplay : sends true ((replayCommands replayOrder data.toInner).map .replay ++
      [.cache ⟨snap.snapMeta, K.toVec encodeOrder data⟩]) = replayCommands replayOrder data.toInner := by
    rw [sends_true_append, sends_replay]
    exact List.append_nil _
  unfold installActions
  rw [hdecode]
  cases tx <;> exact hreplay

theorem foldl_onInner (shardId : ShardId) (as : List Action) (g : Group) :
    (as.foldl (Group.act shardId) g).sm.inner = as.foldl (fun inner a => a.onInner inner) g.sm.inner := by
  induction as generalizing g with
  | nil => rfl
  | cons a as ih => rw [List.foldl_cons, ih, act_inner, List.foldl_cons]

/-- What a call of `apply` leaves in the locked state. -/
theorem onInner_apply (J : CommandJson) (entries : List Entry) (inner : StateMachineInner) :
    (applyActions J entries).foldl (fun inner a => a.onInner inner) inner =
      entries.foldl (applyInner J) inner := by
  have h := foldl_onInner 0 (applyActions J entries) (Group.new.setInner inner)
  rw [foldl_act_apply, StateMachineStore.apply_spec] at h
  exact h.symm

/-- What a call of `install_snapshot` leaves in the locked state. -/
theorem onInner_install {K : SnapshotCodec} {snap : Snapshot} {data : SnapshotData}
    (hdecode : K.fromSlice snap.bytes = some data) (replayOrder encodeOrder : List (String × ShardId))
    (inner : StateMachineInner) :
    (installActions K snap replayOrder encodeOrder).foldl (fun inner a => a.onInner inner) inner =
      data.toInner := by
  have hreplay : ∀ (cmds : List ShardConfigCommand) (inner : StateMachineInner),
      (cmds.map Action.replay).foldl (fun inner a => a.onInner inner) inner = inner := by
    intro cmds
    induction cmds with
    | nil => exact fun _ => rfl
    | cons cmd cmds ih => exact fun inner => ih inner
  unfold installActions
  rw [hdecode]
  simp only [List.foldl_cons, List.foldl_append, List.foldl_nil, hreplay]
  rfl

/-! ## The process -/

/-- Where `RaftPool::new` stands. -/
inductive BootPc where
  /-- nothing started -/
  | fresh
  /-- shard 0 started -/
  | created
  /-- its config channel attached -/
  | configAttached
  /-- its forwarder channel attached -/
  | forwarderAttached
  /-- the listener spawned -/
  | running
  deriving DecidableEq, Repr

/-- Where the config listener stands. -/
inductive ListenerPc where
  | idle
  | handling (cmd : ShardConfigCommand)
  /-- in `create_shard_state` -/
  | creating (shardId : ShardId)
  /-- the shard is started, its forwarder channel not yet attached -/
  | wiring (shardId : ShardId)
  /-- about to put the shard into the map -/
  | inserting (shardId : ShardId)
  deriving DecidableEq

structure World where
  boot : BootPc
  group : ShardId → Option Group
  pool : RaftPool
  listener : ListenerPc
  attempts : List (ShardId × Bool)
  proposed : List (ShardId × ReducerCallRequest)

def World.start : World := ⟨.fresh, fun _ => none, RaftPool.new, .idle, [], []⟩

def World.setGroup (w : World) (s : ShardId) (g : Group) : World :=
  { w with group := Function.update w.group s (some g) }

/-- `shards.write().insert`. -/
def insertShard (pool : RaftPool) (s : ShardId) : RaftPool :=
  if s ∈ pool.shards then pool else { pool with shards := pool.shards ++ [s] }

inductive Label where
  /-- the next step of `RaftPool::new` -/
  | boot
  /-- openraft calls `apply` -/
  | apply (s : ShardId) (entries : List Entry)
  /-- openraft calls `install_snapshot` -/
  | install (s : ShardId) (snap : Snapshot) (replayOrder encodeOrder : List (String × ShardId))
  /-- the next section of the call on a shard -/
  | act (s : ShardId)
  /-- the listener takes a command off the channel -/
  | receive
  /-- it looks at the command; a route command it carries out at once -/
  | handle
  /-- `create_shard_state` returns -/
  | create (ok : Bool)
  /-- `set_forwarder` on the new shard -/
  | wire
  | insert
  /-- a client's message on a connection bound to a shard -/
  | message (s : ShardId) (msg : Message)

variable (nodeId : NodeId) (J : CommandJson) (K : SnapshotCodec)

/-- openraft starts a call on a shard that has none running. -/
def World.call (w : World) (s : ShardId) (actions : List Action) : Option World :=
  match w.group s with
  | some g => if g.todo = [] then some (w.setGroup s { g with todo := actions }) else none
  | none => none

def step (w : World) : Label → Option World
  | .boot =>
      match w.boot, w.group 0 with
      | .fresh, _ => some { w.setGroup 0 Group.new with boot := .created }
      | .created, some g =>
          some { w.setGroup 0 { g with sm := g.sm.setShardConfigTx } with boot := .configAttached }
      | .configAttached, some g =>
          some { w.setGroup 0 { g with sm := g.sm.setForwarder } with boot := .forwarderAttached }
      | .forwarderAttached, some _ => some { w with boot := .running }
      | _, _ => none
  | .apply s entries => w.call s (applyActions J entries)
  | .install s snap replayOrder encodeOrder =>
      if ∀ data ∈ K.fromSlice snap.bytes,
          Enumerates replayOrder data.shardRoutes ∧ Enumerates encodeOrder data.shardRoutes then
        w.call s (installActions K snap replayOrder encodeOrder)
      else none
  | .act s =>
      match w.group s with
      | some g =>
          match g.todo with
          | a :: rest => some (w.setGroup s (Group.act s { g with todo := rest } a))
          | [] => none
      | none => none
  | .receive =>
      match w.boot, w.listener, w.group 0 with
      | .running, .idle, some g =>
          match g.sm.shardConfigTx with
          | some (cmd :: rest) =>
              some { w.setGroup 0 { g with sm := { g.sm with shardConfigTx := some rest } } with
                listener := .handling cmd }
          | _ => none
      | _, _, _ => none
  | .handle =>
      match w.listener with
      | .handling (.createShard s) =>
          some { w with listener := if s ∈ w.pool.shards then .idle else .creating s }
      | .handling cmd => some { w with pool := w.pool.handleShardConfig true cmd, listener := .idle }
      | _ => none
  | .create ok =>
      match w.listener with
      | .creating s =>
          let w := { w with attempts := w.attempts ++ [(s, ok)] }
          if ok then some { w.setGroup s Group.new with listener := .wiring s }
          else some { w with listener := .idle }
      | _ => none
  | .wire =>
      match w.listener with
      | .wiring s =>
          match w.group s with
          | some g =>
              some { w.setGroup s { g with sm := g.sm.setForwarder } with listener := .inserting s }
          | none => none
      | _ => none
  | .insert =>
      match w.listener with
      | .inserting s => some { w with pool := insertShard w.pool s, listener := .idle }
      | _ => none
  | .message s msg =>
      match w.boot, classifyMessage msg, msg with
      | .running, .write, .binary data =>
          if s ∈ w.pool.shards then
            some { w with proposed := w.proposed ++ [(s, proposeRequest nodeId data)] }
          else some w
      | .running, _, _ => some w
      | _, _, _ => none

variable {nodeId J K}

@[simp] theorem setGroup_self (w : World) (s : ShardId) (g : Group) : (w.setGroup s g).group s = some g :=
  Function.update_self _ _ _

@[simp] theorem setGroup_of_ne (w : World) {s t : ShardId} (h : t ≠ s) (g : Group) :
    (w.setGroup s g).group t = w.group t := Function.update_of_ne h _ _

@[simp] theorem setGroup_pool (w : World) (s : ShardId) (g : Group) : (w.setGroup s g).pool = w.pool := rfl

/-- Shard 0 is started and its config channel attached, and nothing has been applied. -/
def World.attached : World :=
  { World.start.setGroup 0 { Group.new with sm := StateMachineStore.new.setShardConfigTx } with
    boot := .configAttached }

/-- `RaftPool::new` gets there if openraft makes no call before. -/
theorem exec_attached : Runs.exec (step nodeId J K) World.start [.boot, .boot] = some World.attached := by
  simp [Runs.exec, step, World.start, World.setGroup, World.attached, Group.new]

/-! ## What each move does -/

/-- The sections of the call a label starts. -/
def Label.call? (J : CommandJson) (K : SnapshotCodec) : Label → Option (ShardId × List Action)
  | .apply s entries => some (s, applyActions J entries)
  | .install s snap replayOrder encodeOrder => some (s, installActions K snap replayOrder encodeOrder)
  | _ => none

/-- The iteration orders of a label enumerate the routes. -/
def Label.Ordered (K : SnapshotCodec) : Label → Prop
  | .install _ snap replayOrder encodeOrder => ∀ data ∈ K.fromSlice snap.bytes,
      Enumerates replayOrder data.shardRoutes ∧ Enumerates encodeOrder data.shardRoutes
  | _ => True

/-- The moves of a node and what they change. -/
inductive Effect (nodeId : NodeId) (J : CommandJson) (K : SnapshotCodec) (w : World) :
    Label → World → Prop where
  | bootCreate (hboot : w.boot = .fresh) :
      Effect nodeId J K w .boot { w.setGroup 0 Group.new with boot := .created }
  | bootConfig {g : Group} (hboot : w.boot = .created) (hg : w.group 0 = some g) :
      Effect nodeId J K w .boot
        { w.setGroup 0 { g with sm := g.sm.setShardConfigTx } with boot := .configAttached }
  | bootForwarder {g : Group} (hboot : w.boot = .configAttached) (hg : w.group 0 = some g) :
      Effect nodeId J K w .boot
        { w.setGroup 0 { g with sm := g.sm.setForwarder } with boot := .forwarderAttached }
  | bootListener (hboot : w.boot = .forwarderAttached) :
      Effect nodeId J K w .boot { w with boot := .running }
  | call {l : Label} {s : ShardId} {actions : List Action} {g : Group}
      (hl : l.call? J K = some (s, actions)) (horder : l.Ordered K) (hg : w.group s = some g)
      (hidle : g.todo = []) :
      Effect nodeId J K w l (w.setGroup s { g with todo := actions })
  | act {s : ShardId} {g : Group} {a : Action} {rest : List Action} (hg : w.group s = some g)
      (htodo : g.todo = a :: rest) :
      Effect nodeId J K w (.act s) (w.setGroup s (Group.act s { g with todo := rest } a))
  | receive {g : Group} {cmd : ShardConfigCommand} {rest : List ShardConfigCommand}
      (hboot : w.boot = .running) (hidle : w.listener = .idle) (hg : w.group 0 = some g)
      (hqueue : g.sm.shardConfigTx = some (cmd :: rest)) :
      Effect nodeId J K w .receive
        { w.setGroup 0 { g with sm := { g.sm with shardConfigTx := some rest } } with
          listener := .handling cmd }
  | present {s : ShardId} (hl : w.listener = .handling (.createShard s)) (hs : s ∈ w.pool.shards) :
      Effect nodeId J K w .handle { w with listener := .idle }
  | absent {s : ShardId} (hl : w.listener = .handling (.createShard s)) (hs : s ∉ w.pool.shards) :
      Effect nodeId J K w .handle { w with listener := .creating s }
  | route {cmd : ShardConfigCommand} (hl : w.listener = .handling cmd) (hcmd : cmd.created? = none) :
      Effect nodeId J K w .handle
        { w with pool := w.pool.handleShardConfig true cmd, listener := .idle }
  | createOk {s : ShardId} (hl : w.listener = .creating s) :
      Effect nodeId J K w (.create true)
        { w.setGroup s Group.new with attempts := w.attempts ++ [(s, true)], listener := .wiring s }
  | createFail {s : ShardId} (hl : w.listener = .creating s) :
      Effect nodeId J K w (.create false)
        { w with attempts := w.attempts ++ [(s, false)], listener := .idle }
  | wire {s : ShardId} {g : Group} (hl : w.listener = .wiring s) (hg : w.group s = some g) :
      Effect nodeId J K w .wire
        { w.setGroup s { g with sm := g.sm.setForwarder } with listener := .inserting s }
  | insert {s : ShardId} (hl : w.listener = .inserting s) :
      Effect nodeId J K w .insert { w with pool := insertShard w.pool s, listener := .idle }
  | propose {s : ShardId} {data : Bytes} (hboot : w.boot = .running)
      (hwrite : classifyMessage (.binary data) = .write) :
      Effect nodeId J K w (.message s (.binary data))
        { w with proposed := w.proposed ++ [(s, proposeRequest nodeId data)] }
  | pass {s : ShardId} {msg : Message} : Effect nodeId J K w (.message s msg) w

theorem call_effect {w w' : World} {l : Label} {s : ShardId} {actions : List Action}
    (hl : l.call? J K = some (s, actions)) (horder : l.Ordered K) (h : w.call s actions = some w') :
    Effect nodeId J K w l w' := by
  unfold World.call at h
  split at h
  · rename_i g hg
    split at h
    · rename_i hidle
      cases h
      exact .call hl horder hg hidle
    · cases h
  · cases h

/-- **Everything a move can do.** -/
theorem step_effect {w w' : World} {l : Label} (h : step nodeId J K w l = some w') :
    Effect nodeId J K w l w' := by
  cases l with
  | boot =>
    simp only [step] at h
    split at h
    · rename_i hboot
      cases h
      exact .bootCreate hboot
    · rename_i g hboot hg
      cases h
      exact .bootConfig hboot hg
    · rename_i g hboot hg
      cases h
      exact .bootForwarder hboot hg
    · rename_i g hboot _
      cases h
      exact .bootListener hboot
    · cases h
  | apply s entries => exact call_effect rfl trivial h
  | install s snap replayOrder encodeOrder =>
    simp only [step] at h
    split at h
    · rename_i horder
      exact call_effect rfl horder h
    · cases h
  | act s =>
    simp only [step] at h
    split at h
    · rename_i g hg
      split at h
      · rename_i a rest htodo
        cases h
        exact .act hg htodo
      · cases h
    · cases h
  | receive =>
    simp only [step] at h
    split at h
    · rename_i g hboot hidle hg
      split at h
      · rename_i cmd rest hqueue
        cases h
        exact .receive hboot hidle hg hqueue
      · cases h
    · cases h
  | handle =>
    simp only [step] at h
    split at h
    · rename_i s hl
      cases h
      split
      · rename_i hs
        exact .present hl hs
      · rename_i hs
        exact .absent hl hs
    · rename_i cmd hno hl
      cases h
      refine .route hl ?_
      cases cmd with
      | createShard s => exact absurd rfl (hno s)
      | addRoute moduleName shardId => rfl
      | removeRoute moduleName => rfl
    · cases h
  | create ok =>
    simp only [step] at h
    split at h
    · rename_i s hl
      split at h
      · rename_i hok
        cases h
        subst hok
        exact .createOk hl
      · rename_i hok
        rw [Bool.not_eq_true] at hok
        cases h
        subst hok
        exact .createFail hl
    · cases h
  | wire =>
    simp only [step] at h
    split at h
    · rename_i s hl
      split at h
      · rename_i g hg
        cases h
        exact .wire hl hg
      · cases h
    · cases h
  | insert =>
    simp only [step] at h
    split at h
    · rename_i s hl
      cases h
      exact .insert hl
    · cases h
  | message s msg =>
    simp only [step] at h
    split at h
    · rename_i data hboot hwrite
      split at h
      · cases h
        exact .propose hboot hwrite
      · cases h
        exact .pass
    · cases h
      exact .pass
    · cases h

end RaftTimeDB.Node
