import RaftTimeDB.Lib.Runs
import RaftTimeDB.LogSpec
import RaftTimeDB.Pool

/-!
# State machine replicas over one committed log

Any number of nodes run the state machine of one shard over the same committed log `L`.  Each move
is one call of `apply`, `build_snapshot`, `get_current_snapshot` or `install_snapshot`, or one half
of the config listener's loop (`receive` takes the next command off the channel, `handle` runs
`handle_shard_config` on it).  Calls are atomic and happen in any order:

* `apply` continues with the entries right after the node's `last_applied`, in any batch size;
* an installed snapshot was returned by `build_snapshot` or `get_current_snapshot` on some node
  (`issued`), so it may be relayed any number of times, and it is not older than the installing
  node's `last_applied`;
* iteration orders of the route table are arbitrary enumerations of it.

`step_inv` is the invariant all results about this system rest on: every node's state and every
issued or cached snapshot is a cut of `L`.
-/

set_option autoImplicit false

namespace RaftTimeDB

/-- A node's state machine for the shard, its pool and the command its config listener is
handling. -/
structure Replica where
  sm : StateMachineStore
  pool : RaftPool
  handling : Option ShardConfigCommand

/-- Which channels are attached on a node. -/
structure Wiring where
  forwarder : Bool
  shardConfig : Bool

/-- A node that has just started. -/
def Replica.start (wiring : Wiring) : Replica where
  sm :=
    { StateMachineStore.new with
      forwarder := if wiring.forwarder then some [] else none
      shardConfigTx := if wiring.shardConfig then some [] else none }
  pool := RaftPool.new
  handling := none

namespace Replicas

structure World where
  replica : NodeId → Replica
  issued : List Snapshot

def World.start (wiring : NodeId → Wiring) : World := ⟨fun n => Replica.start (wiring n), []⟩

def World.set (w : World) (n : NodeId) (r : Replica) : World :=
  { w with replica := Function.update w.replica n r }

def World.setStore (w : World) (n : NodeId) (sm : StateMachineStore) : World :=
  w.set n { w.replica n with sm := sm }

/-- Number of log entries a node has behind it. -/
def World.applied (w : World) (n : NodeId) : Nat := nextIndex (w.replica n).sm.inner.lastApplied

inductive Label where
  | apply (n : NodeId) (count : Nat)
  | build (n : NodeId) (order : List (String × ShardId))
  | current (n : NodeId)
  | install (n : NodeId) (snap : Snapshot) (replayOrder encodeOrder : List (String × ShardId))
  | receive (n : NodeId)
  | handle (n : NodeId) (created : Bool)

/-- The node a move happens on. -/
def Label.node : Label → NodeId
  | .apply n _ => n
  | .build n _ => n
  | .current n => n
  | .install n _ _ _ => n
  | .receive n => n
  | .handle n _ => n

/-- The entries `apply` is called with. -/
def batch (L : Log) (w : World) (n : NodeId) (count : Nat) : List Entry :=
  (L.entries.drop (w.applied n)).take count

variable (J : CommandJson) (K : SnapshotCodec) (L : Log)

/-- One call, or one half-turn of a config listener. -/
def step (w : World) : Label → Option World
  | .apply n count => some (w.setStore n ((w.replica n).sm.apply J (batch L w n count)).1)
  | .build n order =>
      if Enumerates order (w.replica n).sm.inner.shardRoutes then
        let r := (w.replica n).sm.buildSnapshot K order
        some { w.setStore n r.1 with issued := w.issued ++ [r.2] }
      else none
  | .current n => some { w with issued := w.issued ++ (w.replica n).sm.getCurrentSnapshot.toList }
  | .install n snap replayOrder encodeOrder =>
      if snap ∈ w.issued ∧ w.applied n ≤ nextIndex snap.snapMeta.lastLogId then
        match (w.replica n).sm.installSnapshot K replayOrder encodeOrder snap with
        | .ok sm =>
            if Enumerates replayOrder sm.inner.shardRoutes ∧
                Enumerates encodeOrder sm.inner.shardRoutes then
              some (w.setStore n sm)
            else none
        | .error _ => none
      else none
  | .receive n =>
      match (w.replica n).handling, (w.replica n).sm.shardConfigTx with
      | none, some (cmd :: rest) =>
          some (w.set n
            { w.replica n with
              sm := { (w.replica n).sm with shardConfigTx := some rest }
              handling := some cmd })
      | _, _ => none
  | .handle n created =>
      match (w.replica n).handling with
      | some cmd =>
          some (w.set n
            { w.replica n with
              pool := (w.replica n).pool.handleShardConfig created cmd
              handling := none })
      | none => none

/-! ## What each move does -/

variable {J K L}

@[simp] theorem set_replica_self (w : World) (n : NodeId) (r : Replica) :
    (w.set n r).replica n = r := by
  simp [World.set]

theorem set_replica_ne (w : World) {n m : NodeId} (r : Replica) (h : m ≠ n) :
    (w.set n r).replica m = w.replica m := by
  simp [World.set, h]

@[simp] theorem setStore_replica_self (w : World) (n : NodeId) (sm : StateMachineStore) :
    (w.setStore n sm).replica n = { w.replica n with sm := sm } := by
  simp [World.setStore]

@[simp] theorem setStore_applied_self (w : World) (n : NodeId) (sm : StateMachineStore) :
    (w.setStore n sm).applied n = nextIndex sm.inner.lastApplied := by
  simp [World.applied]

/-- **Frame**: a move on one node leaves the other nodes alone. -/
theorem step_replica_ne {w w' : World} {l : Label} (h : step J K L w l = some w') {m : NodeId}
    (hm : l.node ≠ m) : w'.replica m = w.replica m := by
  have hm' : m ≠ l.node := Ne.symm hm
  cases l with
  | apply n count =>
    simp only [step, Option.some.injEq] at h
    subst h
    exact set_replica_ne _ _ hm'
  | build n order =>
    simp only [step] at h
    split at h
    · cases h
      exact set_replica_ne _ _ hm'
    · cases h
  | current n =>
    simp only [step, Option.some.injEq] at h
    subst h
    rfl
  | install n snap replayOrder encodeOrder =>
    simp only [step] at h
    split at h
    · split at h
      · split at h
        · cases h
          exact set_replica_ne _ _ hm'
        · cases h
      · cases h
    · cases h
  | receive n =>
    simp only [step] at h
    split at h
    · cases h
      exact set_replica_ne _ _ hm'
    · cases h
  | handle n created =>
    simp only [step] at h
    split at h
    · cases h
      exact set_replica_ne _ _ hm'
    · cases h

/-- A snapshot decodes to a cut of the log, and its meta describes the same cut. -/
structure SnapshotOk (J : CommandJson) (K : SnapshotCodec) (L : Log) (snap : Snapshot) : Prop where
  cut : ∃ inner, L.IsCut J inner ∧ K.fromSlice snap.bytes = some inner.toData ∧
    snap.snapMeta.lastLogId = inner.lastApplied ∧
    snap.snapMeta.lastMembership = inner.lastMembership

theorem snapshotOf_ok {inner : StateMachineInner} (hcut : L.IsCut J inner)
    {order : List (String × ShardId)} (horder : Enumerates order inner.shardRoutes) :
    SnapshotOk J K L (StateMachineStore.snapshotOf K order inner) :=
  ⟨inner, hcut, StateMachineStore.fromSlice_snapshotOf K horder, rfl, rfl⟩

theorem install_issued {w w' : World} {n : NodeId} {snap : Snapshot}
    {replayOrder encodeOrder : List (String × ShardId)}
    (h : step J K L w (.install n snap replayOrder encodeOrder) = some w') : snap ∈ w.issued := by
  simp only [step] at h
  split at h
  · rename_i hguard
    exact hguard.1
  · cases h

/-- Everything a successful install does, for a snapshot that decodes to the state `inner`. -/
theorem install_decoded {w w' : World} {n : NodeId} {snap : Snapshot}
    {replayOrder encodeOrder : List (String × ShardId)} {inner : StateMachineInner}
    (hdecode : K.fromSlice snap.bytes = some inner.toData)
    (h : step J K L w (.install n snap replayOrder encodeOrder) = some w') :
    w.applied n ≤ nextIndex snap.snapMeta.lastLogId ∧
      Enumerates replayOrder inner.shardRoutes ∧ Enumerates encodeOrder inner.shardRoutes ∧
      w' = w.setStore n
        { inner := inner
          forwarder := (w.replica n).sm.forwarder
          shardConfigTx :=
            (w.replica n).sm.shardConfigTx.map (· ++ replayCommands replayOrder inner)
          cachedSnapshot := some ⟨snap.snapMeta, K.toVec encodeOrder inner.toData⟩ } := by
  simp only [step, StateMachineStore.installSnapshot, hdecode,
    StateMachineInner.toInner_toData] at h
  split at h
  · rename_i hguard
    split at h
    · rename_i horders
      cases h
      exact ⟨hguard.2, horders.1, horders.2, rfl⟩
    · cases h
  · cases h

/-- **The invariant**: nodes, issued and cached snapshots are cuts of the log. -/
structure Inv (J : CommandJson) (K : SnapshotCodec) (L : Log) (w : World) : Prop where
  cut : ∀ n, L.IsCut J (w.replica n).sm.inner
  issued : ∀ snap ∈ w.issued, SnapshotOk J K L snap
  cached : ∀ n snap, (w.replica n).sm.cachedSnapshot = some snap → SnapshotOk J K L snap

theorem Inv.start (wiring : NodeId → Wiring) : Inv J K L (World.start wiring) := by
  refine ⟨fun n => Log.IsCut.new L J, fun snap h => ?_, fun n snap h => ?_⟩ <;>
  cases h

/-- Changing one node keeps the invariant if its new store is a cut with a good cache. -/
theorem Inv.set {w : World} (hinv : Inv J K L w) {n : NodeId} {r : Replica}
    (hcut : L.IsCut J r.sm.inner)
    (hcached : ∀ snap, r.sm.cachedSnapshot = some snap → SnapshotOk J K L snap) :
    Inv J K L (w.set n r) := by
  refine ⟨?_, hinv.issued, ?_⟩
  · intro m
    by_cases hm : m = n
    · subst hm
      rwa [set_replica_self]
    · rw [set_replica_ne _ _ hm]
      exact hinv.cut m
  · intro m snap
    by_cases hm : m = n
    · subst hm
      rw [set_replica_self]
      exact hcached snap
    · rw [set_replica_ne _ _ hm]
      exact hinv.cached m snap

/-- **Every move keeps the invariant.** -/
theorem step_inv {w w' : World} {l : Label} (hinv : Inv J K L w)
    (h : step J K L w l = some w') : Inv J K L w' := by
  cases l with
  | apply n count =>
    simp only [step, Option.some.injEq] at h
    subst h
    rw [StateMachineStore.apply_spec]
    exact hinv.set ((hinv.cut n).foldl count) (hinv.cached n)
  | build n order =>
    simp only [step] at h
    split at h
    · rename_i horder
      cases h
      have hok : SnapshotOk J K L ((w.replica n).sm.buildSnapshot K order).2 :=
        snapshotOf_ok (hinv.cut n) horder
      have hset : Inv J K L (w.setStore n ((w.replica n).sm.buildSnapshot K order).1) := by
        refine hinv.set (hinv.cut n) ?_
        intro snap hsnap
        cases hsnap
        exact hok
      refine ⟨hset.cut, ?_, hset.cached⟩
      intro snap hsnap
      rcases List.mem_append.mp hsnap with hold | hnew
      · exact hinv.issued snap hold
      · rw [List.mem_singleton] at hnew
        subst hnew
        exact hok
    · cases h
  | current n =>
    simp only [step, Option.some.injEq] at h
    subst h
    refine ⟨hinv.cut, ?_, hinv.cached⟩
    intro snap hsnap
    rcases List.mem_append.mp hsnap with hold | hnew
    · exact hinv.issued snap hold
    · exact hinv.cached n snap (Option.mem_toList.mp hnew)
  | install n snap replayOrder encodeOrder =>
    obtain ⟨inner, hcut, hdecode, hlast, hmem⟩ := (hinv.issued snap (install_issued h)).cut
    obtain ⟨_, _, hencode, rfl⟩ := install_decoded hdecode h
    refine hinv.set hcut ?_
    intro snap' hsnap'
    cases hsnap'
    exact ⟨inner, hcut, K.roundtrip encodeOrder inner.toData hencode, hlast, hmem⟩
  | receive n =>
    simp only [step] at h
    split at h
    · cases h
      exact hinv.set (hinv.cut n) (hinv.cached n)
    · cases h
  | handle n created =>
    simp only [step] at h
    split at h
    · cases h
      exact hinv.set (hinv.cut n) (hinv.cached n)
    · cases h

/-- The invariant holds after every run. -/
theorem exec_inv {wiring : NodeId → Wiring} {labels : List Label} {w : World}
    (h : Runs.exec (step J K L) (World.start wiring) labels = some w) : Inv J K L w :=
  Runs.exec_inv (fun _ _ _ hI hs => step_inv hI hs) (Inv.start wiring) h

/-- **Handing over a snapshot**: a node can install what another one builds unless it is ahead. -/
theorem exec_transfer {w₀ w : World} {labels : List Label} {n : NodeId} {inner : StateMachineInner}
    (h : Runs.exec (step J K L) w₀ labels = some w) (hinner : (w.replica n).sm.inner = inner)
    (order : List (String × ShardId)) (horder : Enumerates order inner.shardRoutes) (m : NodeId)
    (hne : m ≠ n) (hle : w.applied m ≤ w.applied n) :
    ∃ w', Runs.exec (step J K L) w₀ (labels ++ [.build n order,
        .install m (StateMachineStore.snapshotOf K order inner) order order]) = some w' ∧
      w'.replica m = { w.replica m with
        sm :=
          { inner := inner
            forwarder := (w.replica m).sm.forwarder
            shardConfigTx := (w.replica m).sm.shardConfigTx.map (· ++ replayCommands order inner)
            cachedSnapshot := some (StateMachineStore.snapshotOf K order inner) } } := by
  subst hinner
  have hdecode := K.roundtrip order (w.replica n).sm.inner.toData horder
  have hguard : nextIndex (w.replica m).sm.inner.lastApplied ≤
      nextIndex (w.replica n).sm.inner.lastApplied := hle
  simp [Runs.exec_append, h, Runs.exec, step, horder, World.setStore, World.set,
    World.applied, StateMachineStore.buildSnapshot, StateMachineStore.snapshotOf, hne, hguard,
    StateMachineStore.installSnapshot, hdecode]

end Replicas

end RaftTimeDB
