import RaftTimeDB.Handler
import RaftTimeDB.Lib.Runs
import RaftTimeDB.LogSpec
import RaftTimeDB.Members

/-!
# How a new shard starts

`handle_shard_config` (`crates/proxy/src/raft/mod.rs`) on all nodes of a cluster: every node creates
its own Raft group of a new shard when its listener comes to the `CreateShard` command, and the node
that leads shard 0 at that moment initializes the group with the members of shard 0.  The listener
is cut at its awaits: `create_shard_state`, `ensure_linearizable` on shard 0, and `initialize` on
the new group.

* A group is pristine until it is initialized or hears from a group of its shard that is not;
  openraft keeps its vote and log on disk, so a restart does not make it pristine again.
* openraft's `initialize` and `client_write` are parameters (`RaftCalls`): `initialize` is refused on
  a group that is not pristine (`NotAllowed`) and on a node that is not one of the members
  (`NotInMembers`); a pristine group knows no leader, so its `client_write` is not `Ok` and names no
  leader.  What the metrics of shard 0 show is the environment's choice.
* Shard 0's log is the list of its committed commands.  Every node applies it in order, or installs
  a snapshot of a part of it; after a restart it starts again with an empty pool and applies what it
  has stored.

Principal result: `orphaned_shard_dead` — a shard that every node has created and none has
initialized can never be written to again before some node restarts, and any other shard can be,
without a restart.
-/

set_option autoImplicit false

namespace RaftTimeDB.ShardStart

/-! ## The cluster -/

/-- The nodes and their configurations. -/
structure Deployment where
  nodes : Finset NodeId
  raftAddr : NodeId → String
  peers : NodeId → List String

def Deployment.config (d : Deployment) (n : NodeId) : NodeConfig := ⟨n, d.raftAddr n, d.peers n⟩

/-- Where the config listener of a node is. -/
inductive ListenerPc where
  | idle
  /-- in `create_shard_state` -/
  | creating (shardId : ShardId)
  /-- the shard is in the map; in `ensure_linearizable` on shard 0 -/
  | checking (shardId : ShardId)
  /-- `ensure_linearizable` was `Ok`; about to read the members and initialize -/
  | leading (shardId : ShardId)
  deriving DecidableEq, Repr

/-- The shard the listener is starting. -/
def ListenerPc.shard? : ListenerPc → Option ShardId
  | .idle => none
  | .creating shardId | .checking shardId | .leading shardId => some shardId

structure NodeState where
  pool : RaftPool
  /-- how much of shard 0's log has been applied -/
  applied : Nat
  /-- the config channel -/
  queue : List ShardConfigCommand
  listener : ListenerPc
  deriving DecidableEq

/-- `RaftPool::new`. -/
def NodeState.new : NodeState := ⟨RaftPool.new, 0, [], .idle⟩

/-- `log` has the committed commands of shard 0; `active n s` says that the group of shard `s` on
node `n` is not pristine; `acked` records the calls of `propose_write` that returned `Ok`. -/
structure World where
  log : List ShardConfigCommand
  node : NodeId → NodeState
  active : NodeId → ShardId → Bool
  acked : List (NodeId × ShardId)

def World.start : World := ⟨[], fun _ => .new, fun _ _ => false, []⟩

def World.setNode (w : World) (n : NodeId) (ns : NodeState) : World :=
  { w with node := Function.update w.node n ns }

def World.activate (w : World) (n : NodeId) (s : ShardId) : World :=
  { w with active := Function.update w.active n (Function.update (w.active n) s true) }

/-! ## Calls of openraft -/

inductive InitializeError where
  | notAllowed
  | notInMembers
  deriving DecidableEq, Repr

/-- The calls of openraft on a group that is pristine or not. -/
structure RaftCalls where
  /-- `Raft::initialize` -/
  init : Bool → NodeId → NodeMap → Except InitializeError Unit
  init_ok {active : Bool} {n : NodeId} {members : NodeMap} :
    init active n members = .ok () ↔ active = false ∧ n ∈ members
  /-- what `client_write` may return -/
  answers : Bool → ClientWriteResult → Bool
  /-- a pristine group commits nothing -/
  pristine_ok : answers false .ok = false
  /-- a pristine group knows no leader -/
  pristine_forward (leader : BasicNode) : answers false (.forwardToLeader (some leader)) = false
  active_ok : answers true .ok = true

/-! ## Functions of the pool -/

/-- `handle_shard_config` up to its first await. -/
def handle (ns : NodeState) : ShardConfigCommand → NodeState
  | .createShard shardId =>
      if shardId ∈ ns.pool.shards then ns else { ns with listener := .creating shardId }
  | cmd => { ns with pool := ns.pool.handleShardConfig true cmd }

/-- The members a node starts a new shard with; `metrics` is what shard 0 shows at that moment. -/
def membersOf (d : Deployment) (n : NodeId) (pool : RaftPool) (metrics : RaftMetrics) : NodeMap :=
  PoolView.getCurrentMembers
    ⟨d.config n, fun s => if s ∈ pool.shards then some metrics else none⟩ 0

/-- `propose_write` is `Ok`; `answer` is the HTTP answer if the write is forwarded. -/
def proposeWrite (n : NodeId) (pool : RaftPool) (s : ShardId) (data : Bytes)
    (result : ClientWriteResult) (answer : Option Nat) : Bool :=
  match pool.proposeTarget s with
  | .error _ => false
  | .ok _ =>
      match afterClientWrite n data result with
      | .done ok => ok
      | .post _ _ => afterPost answer

/-- The commands `install_snapshot` replays for a snapshot of the given commands. -/
def replayOf (order : List (String × ShardId)) (cmds : List ShardConfigCommand) :
    List ShardConfigCommand :=
  replayCommands order
    { StateMachineInner.new with activeShards := shardsOf cmds, shardRoutes := routesOf cmds }

/-! ## Steps -/

inductive Label where
  /-- a command is committed in shard 0 -/
  | commit (cmd : ShardConfigCommand)
  | apply (n : NodeId)
  /-- a snapshot of the first `k` commands is installed -/
  | install (n : NodeId) (k : Nat) (order : List (String × ShardId))
  /-- the listener takes the next command -/
  | receive (n : NodeId)
  /-- `create_shard_state` returns -/
  | create (n : NodeId) (ok : Bool)
  /-- `ensure_linearizable` on shard 0 returns -/
  | linearizable (n : NodeId) (ok : Bool)
  /-- the members are read and `initialize` is called -/
  | initShard (n : NodeId) (metrics : RaftMetrics)
  /-- a group that is not pristine sends an RPC to the group of its shard on another node -/
  | contact (m n : NodeId) (s : ShardId)
  | clusterInit (n : NodeId) (members : NodeMap)
  | write (n : NodeId) (s : ShardId) (data : Bytes) (result : ClientWriteResult) (answer : Option Nat)
  | restart (n : NodeId)

/-- The node of a label has not been restarted by it. -/
def Label.NoRestart : Label → Prop
  | .restart _ => False
  | _ => True

def step (O : RaftCalls) (d : Deployment) (w : World) : Label → Option World
  | .commit cmd =>
      if ∃ n ∈ d.nodes, w.active n 0 = true then some { w with log := w.log ++ [cmd] } else none
  | .apply n =>
      if n ∈ d.nodes then
        (w.log[(w.node n).applied]?).map fun cmd =>
          w.setNode n { w.node n with
            applied := (w.node n).applied + 1
            queue := (w.node n).queue ++ [cmd] }
      else none
  | .install n k order =>
      if n ∈ d.nodes ∧ (w.node n).applied ≤ k ∧ k ≤ w.log.length ∧
        Enumerates order (routesOf (w.log.take k)) then
        some (w.setNode n { w.node n with
          applied := k
          queue := (w.node n).queue ++ replayOf order (w.log.take k) })
      else none
  | .receive n =>
      if n ∈ d.nodes then
        match (w.node n).listener, (w.node n).queue with
        | .idle, cmd :: rest => some (w.setNode n (handle { w.node n with queue := rest } cmd))
        | _, _ => none
      else none
  | .create n ok =>
      if n ∈ d.nodes then
        match (w.node n).listener with
        | .creating s =>
            some (w.setNode n { w.node n with
              pool := (w.node n).pool.handleShardConfig ok (.createShard s)
              listener := if ok then .checking s else .idle })
        | _ => none
      else none
  | .linearizable n ok =>
      -- a pristine group is not a leader
      if n ∈ d.nodes ∧ (ok = true → w.active n 0 = true) then
        match (w.node n).listener with
        | .checking s => some (w.setNode n { w.node n with listener := if ok then .leading s else .idle })
        | _ => none
      else none
  | .initShard n metrics =>
      if n ∈ d.nodes then
        match (w.node n).listener with
        | .leading s =>
            let w' := w.setNode n { w.node n with listener := .idle }
            match O.init (w.active n s) n (membersOf d n (w.node n).pool metrics) with
            | .ok _ => some (w'.activate n s)
            | .error _ => some w'
        | _ => none
      else none
  | .contact m n s =>
      if m ∈ d.nodes ∧ n ∈ d.nodes ∧ s ∈ (w.node m).pool.shards ∧ w.active m s = true ∧
          s ∈ (w.node n).pool.shards then
        some (w.activate n s)
      else none
  | .clusterInit n members =>
      if n ∈ d.nodes then
        match O.init (w.active n 0) n members with
        | .ok _ => some (w.activate n 0)
        | .error _ => some w
      else none
  | .write n s data result answer =>
      if n ∈ d.nodes ∧ O.answers (w.active n s) result then
        some { w with
          acked := w.acked ++ if proposeWrite n (w.node n).pool s data result answer then [(n, s)] else [] }
      else none
  | .restart n => if n ∈ d.nodes then some (w.setNode n .new) else none

def Reachable (O : RaftCalls) (d : Deployment) (w : World) : Prop :=
  ∃ ls, Runs.exec (step O d) World.start ls = some w

/-! ## What a step can do -/

@[simp] theorem setNode_active (w : World) (n : NodeId) (ns : NodeState) :
    (w.setNode n ns).active = w.active := rfl

@[simp] theorem setNode_node_self (w : World) (n : NodeId) (ns : NodeState) :
    (w.setNode n ns).node n = ns :=
  Function.update_self ..

theorem setNode_node_ne (w : World) {n n' : NodeId} (ns : NodeState) (h : n' ≠ n) :
    (w.setNode n ns).node n' = w.node n' :=
  Function.update_of_ne h ..

@[simp] theorem activate_node (w : World) (n : NodeId) (s : ShardId) :
    (w.activate n s).node = w.node := rfl

theorem activate_active (w : World) (n n' : NodeId) (s s' : ShardId) :
    (w.activate n s).active n' s' = if n' = n ∧ s' = s then true else w.active n' s' := by
  by_cases hn : n' = n
  · subst hn
    by_cases hs : s' = s <;> simp [World.activate, hs]
  · simp [World.activate, hn]

section Handle

variable (ns : NodeState) (cmd : ShardConfigCommand)

@[simp] theorem handle_applied : (handle ns cmd).applied = ns.applied := by
  unfold handle
  split
  · split <;> rfl
  · rfl

@[simp] theorem handle_queue : (handle ns cmd).queue = ns.queue := by
  unfold handle
  split
  · split <;> rfl
  · rfl

/-- Nothing is in the map before `create_shard_state` returns. -/
@[simp] theorem handle_shards : (handle ns cmd).pool.shards = ns.pool.shards := by
  unfold handle
  split
  · split <;> rfl
  · cases cmd with
    | createShard t =>
      rename_i hother
      exact absurd rfl (hother t)
    | addRoute moduleName t | removeRoute moduleName => rfl

/-- The listener is done with the command, or starts a shard that is not in the map. -/
theorem handle_listener :
    (handle ns cmd).listener = ns.listener ∨
      ∃ t, cmd = .createShard t ∧ t ∉ ns.pool.shards ∧ (handle ns cmd).listener = .creating t := by
  cases cmd with
  | createShard t =>
    by_cases ht : t ∈ ns.pool.shards
    · exact Or.inl (by rw [handle, if_pos ht])
    · exact Or.inr ⟨t, rfl, ht, by rw [handle, if_neg ht]⟩
  | addRoute moduleName t | removeRoute moduleName => exact Or.inl rfl

end Handle

/-- A move of one node that initializes and restarts nothing; `length` is that of shard 0's log. -/
inductive Move (length : Nat) (ns : NodeState) : NodeState → Prop where
  | feed {applied : Nat} (happlied : applied ≤ length) (cmds : List ShardConfigCommand) :
      Move length ns { ns with applied := applied, queue := ns.queue ++ cmds }
  | receive {cmd : ShardConfigCommand} {rest : List ShardConfigCommand}
      (hidle : ns.listener = .idle) (hqueue : ns.queue = cmd :: rest) :
      Move length ns (handle { ns with queue := rest } cmd)
  | create {s : ShardId} (hcreating : ns.listener = .creating s) (ok : Bool) :
      Move length ns { ns with
        pool := ns.pool.handleShardConfig ok (.createShard s)
        listener := if ok then .checking s else .idle }
  | check {s : ShardId} (hchecking : ns.listener = .checking s) (ok : Bool) :
      Move length ns { ns with listener := if ok then .leading s else .idle }
  | refused {s : ShardId} (hleading : ns.listener = .leading s) :
      Move length ns { ns with listener := .idle }

/-- Everything a step can do. -/
inductive Effect (O : RaftCalls) (d : Deployment) (w : World) : Label → World → Prop where
  | commit (cmd : ShardConfigCommand) : Effect O d w (.commit cmd) { w with log := w.log ++ [cmd] }
  | move {l : Label} {n : NodeId} {ns : NodeState} (hl : l.NoRestart)
      (hmove : Move w.log.length (w.node n) ns) :
      Effect O d w l (w.setNode n ns)
  | init {n : NodeId} {s : ShardId} (metrics : RaftMetrics)
      (hleading : (w.node n).listener = .leading s) :
      Effect O d w (.initShard n metrics)
        ((w.setNode n { w.node n with listener := .idle }).activate n s)
  | contact {m n : NodeId} {s : ShardId} (hm : m ∈ d.nodes) (hactive : w.active m s = true) :
      Effect O d w (.contact m n s) (w.activate n s)
  | clusterInit (n : NodeId) (members : NodeMap) : Effect O d w (.clusterInit n members) (w.activate n 0)
  | initRefused (n : NodeId) (members : NodeMap) : Effect O d w (.clusterInit n members) w
  | write {n : NodeId} {s : ShardId} (data : Bytes) {result : ClientWriteResult} (answer : Option Nat)
      (hn : n ∈ d.nodes) (hresult : O.answers (w.active n s) result = true) :
      Effect O d w (.write n s data result answer)
        { w with
          acked := w.acked ++ if proposeWrite n (w.node n).pool s data result answer then [(n, s)] else [] }
  | restart (n : NodeId) : Effect O d w (.restart n) (w.setNode n .new)

variable {O : RaftCalls} {d : Deployment} {w w' : World} {l : Label}

theorem step_effect (h : step O d w l = some w') : Effect O d w l w' := by
  cases l with
  | commit cmd =>
    simp only [step] at h
    split at h
    · cases h
      exact .commit cmd
    · cases h
  | apply n =>
    simp only [step] at h
    split at h
    · obtain ⟨cmd, hcmd, hw⟩ := Option.map_eq_some_iff.mp h
      subst hw
      exact .move trivial (.feed (List.getElem?_eq_some_iff.mp hcmd).1 [cmd])
    · cases h
  | install n k order =>
    simp only [step] at h
    split at h
    · rename_i hguard
      cases h
      exact .move trivial (.feed hguard.2.2.1 _)
    · cases h
  | receive n =>
    simp only [step] at h
    split at h
    · split at h
      · rename_i cmd rest hidle hqueue
        cases h
        exact .move trivial (.receive hidle hqueue)
      · cases h
    · cases h
  | create n ok =>
    simp only [step] at h
    split at h
    · split at h
      · rename_i s hcreating
        cases h
        exact .move trivial (.create hcreating ok)
      · cases h
    · cases h
  | linearizable n ok =>
    simp only [step] at h
    split at h
    · split at h
      · rename_i s hchecking
        cases h
        exact .move trivial (.check hchecking ok)
      · cases h
    · cases h
  | initShard n metrics =>
    simp only [step] at h
    split at h
    · split at h
      · rename_i s hleading
        split at h
        · cases h
          exact .init metrics hleading
        · cases h
          exact .move trivial (.refused hleading)
      · cases h
    · cases h
  | contact m n s =>
    simp only [step] at h
    split at h
    · rename_i hguard
      cases h
      exact .contact hguard.1 hguard.2.2.2.1
    · cases h
  | clusterInit n members =>
    simp only [step] at h
    split at h
    · split at h
      · cases h
        exact .clusterInit n members
      · cases h
        exact .initRefused n members
    · cases h
  | write n s data result answer =>
    simp only [step] at h
    split at h
    · rename_i hguard
      cases h
      exact .write data answer hguard.1 hguard.2
    · cases h
  | restart n =>
    simp only [step] at h
    split at h
    · cases h
      exact .restart n
    · cases h

/-! ## Invariants -/

/-- A shard of the pool stays there. -/
theorem Move.shards {length : Nat} {ns ns' : NodeState} (h : Move length ns ns') {s : ShardId}
    (hs : s ∈ ns.pool.shards) :
    s ∈ ns'.pool.shards := by
  cases h with
  | feed happlied cmds => exact hs
  | receive hidle hqueue => rwa [handle_shards]
  | create hcreating ok => exact RaftPool.mem_handleShardConfig hs ok _
  | check hchecking ok => exact hs
  | refused hleading => exact hs

/-- The shard the listener has put into the map and is still starting. -/
def ListenerPc.inserted? : ListenerPc → Option ShardId
  | .idle | .creating _ => none
  | .checking shardId | .leading shardId => some shardId

/-- A node runs shard 0, and a shard past its creation is in the map. -/
structure NodeInv (ns : NodeState) : Prop where
  zero : 0 ∈ ns.pool.shards
  held : ∀ s ∈ ns.listener.inserted?, s ∈ ns.pool.shards

theorem NodeInv.new : NodeInv .new := ⟨List.mem_singleton_self 0, fun _ h => nomatch h⟩

theorem NodeInv.idle {ns : NodeState} (h : NodeInv ns) : NodeInv { ns with listener := .idle } :=
  ⟨h.zero, fun _ hpc => nomatch hpc⟩

theorem NodeInv.move {length : Nat} {ns ns' : NodeState} (h : NodeInv ns)
    (hmove : Move length ns ns') : NodeInv ns' := by
  refine ⟨hmove.shards h.zero, ?_⟩
  intro s hpc
  cases hmove with
  | feed happlied cmds => exact h.held s hpc
  | receive hidle hqueue =>
    rcases handle_listener _ _ with hsame | ⟨t, -, -, hcreating⟩
    · rw [hsame] at hpc
      rw [handle_shards]
      exact h.held s hpc
    · rw [hcreating] at hpc
      cases hpc
  | create hcreating ok =>
    cases ok with
    | false => cases hpc
    | true =>
      cases hpc
      simp only [RaftPool.handleShardConfig]
      split
      · assumption
      · exact List.mem_append_right _ (List.mem_singleton_self s)
  | check hchecking ok =>
    cases ok with
    | false => cases hpc
    | true => exact h.held s (by rw [hchecking]; exact hpc)
  | refused hleading => cases hpc

theorem Move.applied {length : Nat} {ns ns' : NodeState} (h : Move length ns ns')
    (hns : ns.applied ≤ length) :
    ns'.applied ≤ length := by
  cases h with
  | feed happlied cmds => exact happlied
  | receive hidle hqueue => rwa [handle_applied]
  | create hcreating ok => exact hns
  | check hchecking ok => exact hns
  | refused hleading => exact hns

structure Inv (d : Deployment) (w : World) : Prop where
  node : ∀ n, NodeInv (w.node n)
  applied : ∀ n, (w.node n).applied ≤ w.log.length
  acked : ∀ n s, (n, s) ∈ w.acked → n ∈ d.nodes ∧ w.active n s = true

theorem Inv.start (d : Deployment) : Inv d World.start :=
    ⟨fun _ => .new, fun _ => Nat.le_refl 0, fun _ _ h => nomatch h⟩

theorem Inv.setNode (h : Inv d w) (n : NodeId) {ns : NodeState} (hns : NodeInv ns)
    (happlied : ns.applied ≤ w.log.length) : Inv d (w.setNode n ns) := by
  refine ⟨?_, ?_, h.acked⟩ <;> intro n'
  · by_cases hn : n' = n
    · subst hn
      rwa [setNode_node_self]
    · rw [setNode_node_ne w ns hn]
      exact h.node n'
  · by_cases hn : n' = n
    · subst hn
      rwa [setNode_node_self]
    · rw [setNode_node_ne w ns hn]
      exact h.applied n'

theorem Inv.activate (h : Inv d w) (n : NodeId) (s : ShardId) : Inv d (w.activate n s) := by
  refine ⟨h.node, h.applied, ?_⟩
  intro n' s' hacked
  refine ⟨(h.acked n' s' hacked).1, ?_⟩
  rw [activate_active, (h.acked n' s' hacked).2]
  split <;> rfl

/-- Only a group that is not pristine takes a write. -/
theorem active_of_proposeWrite {n : NodeId} {pool : RaftPool} {s : ShardId} {data : Bytes}
    {result : ClientWriteResult} {answer : Option Nat} {active : Bool}
    (hresult : O.answers active result = true)
    (h : proposeWrite n pool s data result answer = true) : active = true := by
  by_contra hpristine
  rw [Bool.not_eq_true] at hpristine
  subst hpristine
  unfold proposeWrite at h
  split at h
  · cases h
  · cases result with
    | ok =>
      rw [O.pristine_ok] at hresult
      cases hresult
    | forwardToLeader leader =>
      cases leader with
      | some leaderNode =>
        rw [O.pristine_forward] at hresult
        cases hresult
      | none => cases h
    | otherError => cases h

theorem Inv.effect (h : Inv d w) (heffect : Effect O d w l w') : Inv d w' := by
  cases heffect with
  | commit cmd =>
    refine ⟨h.node, ?_, h.acked⟩
    intro n
    rw [List.length_append]
    exact (h.applied n).trans (Nat.le_add_right _ _)
  | move hl hmove => exact h.setNode _ ((h.node _).move hmove) (hmove.applied (h.applied _))
  | init metrics hleading => exact (h.setNode _ (h.node _).idle (h.applied _)).activate _ _
  | contact hm hactive => exact h.activate _ _
  | clusterInit n members => exact h.activate n 0
  | initRefused n members => exact h
  | write data answer hn hresult =>
    refine ⟨h.node, h.applied, ?_⟩
    intro n' s' hacked
    rcases List.mem_append.mp hacked with hold | hnew
    · exact h.acked n' s' hold
    · split at hnew
      · rename_i hok
        rw [List.mem_singleton, Prod.mk.injEq] at hnew
        obtain ⟨rfl, rfl⟩ := hnew
        exact ⟨hn, active_of_proposeWrite hresult hok⟩
      · cases hnew
  | restart n => exact h.setNode n .new (Nat.zero_le _)

theorem Inv.of_step (h : Inv d w) (hstep : step O d w l = some w') : Inv d w' :=
    h.effect (step_effect hstep)

theorem Reachable.inv (h : Reachable O d w) : Inv d w := by
  obtain ⟨ls, hls⟩ := h
  exact Runs.exec_inv (fun _ _ _ hinv => hinv.of_step) (Inv.start d) hls

/-! ## Orphaned shards -/

/-- A node has created the shard and is done with it. -/
def PastStart (ns : NodeState) (s : ShardId) : Prop := s ∈ ns.pool.shards ∧ ns.listener.shard? ≠ some s

/-- Every node has created the shard, none is starting it, and no group of it has been
initialized. -/
def Orphaned (d : Deployment) (w : World) (s : ShardId) : Prop :=
  ∀ n ∈ d.nodes, PastStart (w.node n) s ∧ w.active n s = false

theorem PastStart.move {length : Nat} {ns ns' : NodeState} {s : ShardId} (h : PastStart ns s)
    (hmove : Move length ns ns') :
    PastStart ns' s := by
  refine ⟨hmove.shards h.1, ?_⟩
  intro hpc
  cases hmove with
  | feed happlied cmds => exact h.2 hpc
  | receive hidle hqueue =>
    rcases handle_listener _ _ with hsame | ⟨t, -, hnew, hcreating⟩
    · rw [hsame] at hpc
      exact h.2 hpc
    · rw [hcreating] at hpc
      cases hpc
      exact hnew h.1
  | create hcreating ok =>
    cases ok with
    | false => cases hpc
    | true => exact h.2 (by rw [hcreating]; exact hpc)
  | check hchecking ok =>
    cases ok with
    | false => cases hpc
    | true => exact h.2 (by rw [hchecking]; exact hpc)
  | refused hleading => cases hpc

/-- An orphaned shard stays so until a restart. -/
theorem Orphaned.effect {s : ShardId} (hs : s ≠ 0) (h : Orphaned d w s) (hl : l.NoRestart)
    (heffect : Effect O d w l w') : Orphaned d w' s := by
  intro n hn
  obtain ⟨hpast, hpristine⟩ := h n hn
  cases heffect with
  | commit cmd => exact ⟨hpast, hpristine⟩
  | move hl' hmove =>
    rename_i n' ns
    refine ⟨?_, hpristine⟩
    by_cases heq : n = n'
    · subst heq
      rw [setNode_node_self]
      exact hpast.move hmove
    · rwa [setNode_node_ne w ns heq]
  | init metrics hleading =>
    rename_i n' t
    rw [activate_node, activate_active, setNode_active]
    by_cases heq : n = n'
    · subst heq
      have hne : s ≠ t := fun hst => hpast.2 (by rw [hleading, hst]; rfl)
      rw [setNode_node_self, if_neg fun hboth => hne hboth.2]
      exact ⟨⟨hpast.1, fun hpc => nomatch hpc⟩, hpristine⟩
    · rw [setNode_node_ne w _ heq, if_neg fun hboth => heq hboth.1]
      exact ⟨hpast, hpristine⟩
  | contact hm hactive =>
    rename_i m n' t
    refine ⟨hpast, ?_⟩
    have hne : s ≠ t := by
      rintro rfl
      rw [(h m hm).2] at hactive
      cases hactive
    rw [activate_active, if_neg fun hboth => hne hboth.2]
    exact hpristine
  | clusterInit n' members =>
    refine ⟨hpast, ?_⟩
    rw [activate_active, if_neg fun hboth => hs hboth.2]
    exact hpristine
  | initRefused n' members => exact ⟨hpast, hpristine⟩
  | write data answer hn' hresult => exact ⟨hpast, hpristine⟩
  | restart n' => exact hl.elim

theorem Orphaned.reaches {s : ShardId} (hs : s ≠ 0) (h : Orphaned d w s)
    (hreaches : Runs.Reaches (step O d) Label.NoRestart w w') : Orphaned d w' s :=
  hreaches.inv (I := fun w => Orphaned d w s)
    (fun _ _ _ horphaned hl hstep => horphaned.effect hs hl (step_effect hstep)) h

/-! ## Starting a shard -/

/-- Some run without a restart makes the node run an active group of the shard. -/
def Startable (O : RaftCalls) (d : Deployment) (w : World) (n : NodeId) (s : ShardId) : Prop :=
  ∃ w', Runs.Reaches (step O d) Label.NoRestart w w' ∧ w'.active n s = true ∧
    s ∈ (w'.node n).pool.shards

/-- In some run without a restart a write to the shard on the node returns `Ok`. -/
def Writable (O : RaftCalls) (d : Deployment) (w : World) (n : NodeId) (s : ShardId) : Prop :=
  ∃ w', Runs.Reaches (step O d) Label.NoRestart w w' ∧ (n, s) ∈ w'.acked

theorem Startable.of_reaches {n : NodeId} {s : ShardId} (h : Startable O d w' n s)
    (hreaches : Runs.Reaches (step O d) Label.NoRestart w w') : Startable O d w n s := by
  obtain ⟨u, hu, hrunning⟩ := h
  exact ⟨u, hreaches.trans hu, hrunning⟩

/-- **A shard that can be started can be written to.** -/
theorem Startable.writable {n : NodeId} {s : ShardId} (hn : n ∈ d.nodes) (h : Startable O d w n s) :
    Writable O d w n s := by
  obtain ⟨u, hu, hactive, hrunning⟩ := h
  have hok : proposeWrite n (u.node n).pool s [] .ok none = true := by
    simp [proposeWrite, RaftPool.proposeTarget, RaftPool.getRaft, hrunning, afterClientWrite]
  have hstep : step O d u (.write n s [] .ok none) = some { u with acked := u.acked ++ [(n, s)] } := by
    simp [step, hn, hactive, O.active_ok, hok]
  exact ⟨_, hu.trans (.single (l := .write n s [] .ok none) trivial hstep),
    List.mem_append_right _ (List.mem_singleton_self _)⟩

theorem Inv.reaches (h : Inv d w) (hreaches : Runs.Reaches (step O d) Label.NoRestart w w') : Inv d w' :=
  hreaches.inv (fun _ _ _ hinv _ => hinv.of_step) h

section Starting

variable {n : NodeId} {s : ShardId}

/-- The group of shard 0 on a node can be made active: another node contacts it, or it is the
first. -/
theorem exists_active_zero (hinv : Inv d w) (hn : n ∈ d.nodes) :
    ∃ w', Runs.Reaches (step O d) Label.NoRestart w w' ∧ w'.node = w.node ∧ w'.log = w.log ∧
      w'.active n 0 = true := by
  by_cases hactive : w.active n 0 = true
  · exact ⟨w, .refl w, rfl, rfl, hactive⟩
  · have hself : (w.activate n 0).active n 0 = true := by simp [activate_active]
    by_cases hother : ∃ m ∈ d.nodes, w.active m 0 = true
    · obtain ⟨m, hm, hm0⟩ := hother
      refine ⟨w.activate n 0, .single (l := .contact m n 0) trivial ?_, rfl, rfl, hself⟩
      exact if_pos ⟨hm, hn, (hinv.node m).zero, hm0, (hinv.node n).zero⟩
    · have hmem : n ∈ (∅ : NodeMap).insert n ⟨d.raftAddr n⟩ := Finmap.mem_insert.mpr (Or.inl rfl)
      refine ⟨w.activate n 0,
        .single (l := .clusterInit n ((∅ : NodeMap).insert n ⟨d.raftAddr n⟩)) trivial ?_, rfl, rfl,
          hself⟩
      have hinit := O.init_ok.mpr ⟨Bool.eq_false_iff.mpr hactive, hmem⟩
      simp only [step, if_pos hn, hinit]

/-- A shard 0 whose only voter is the node: metrics that the environment may choose, and with which the
node is one of the members it reads. -/
def soleVoter (n : NodeId) : RaftMetrics := ⟨⟨[{n}], ∅⟩, some n⟩

theorem mem_membersOf {pool : RaftPool} (hzero : 0 ∈ pool.shards) :
    n ∈ membersOf d n pool (soleVoter n) := by
  have hview : (PoolView.mk (d.config n)
      fun s => if s ∈ pool.shards then some (soleVoter n) else none).shards 0 = some (soleVoter n) :=
    if_pos hzero
  rw [← Finmap.lookup_isSome, membersOf, PoolView.lookup_getCurrentMembers hview]
  simp [soleVoter, Membership.voterIds, PoolView.address?, Deployment.config]

theorem startable_of_leading (hinv : Inv d w) (hn : n ∈ d.nodes)
    (h : (w.node n).listener = .leading s) :
    Startable O d w n s := by
  have hrunning : s ∈ (w.node n).pool.shards := (hinv.node n).held s (by rw [h]; rfl)
  by_cases hactive : w.active n s = true
  · exact ⟨w, .refl w, hactive, hrunning⟩
  · refine ⟨(w.setNode n { w.node n with listener := .idle }).activate n s,
      .single (l := .initShard n (soleVoter n)) trivial ?_, by simp [activate_active], by simpa⟩
    have hinit := O.init_ok.mpr ⟨Bool.eq_false_iff.mpr hactive,
      mem_membersOf (d := d) (n := n) (hinv.node n).zero⟩
    simp only [step, if_pos hn, h, hinit]

theorem startable_of_checking (hinv : Inv d w) (hn : n ∈ d.nodes)
    (h : (w.node n).listener = .checking s) :
    Startable O d w n s := by
  obtain ⟨w₁, hreaches, hnode, -, hzero⟩ := exists_active_zero (O := O) hinv hn
  have hstep : step O d w₁ (.linearizable n true) =
      some (w₁.setNode n { w₁.node n with listener := .leading s }) := by
    simp [step, hn, hzero, hnode, h]
  have hstart := startable_of_leading (O := O) ((hinv.reaches hreaches).of_step hstep) hn
    (congrArg NodeState.listener (setNode_node_self w₁ n _))
  exact hstart.of_reaches (hreaches.trans (.single (l := .linearizable n true) trivial hstep))

theorem startable_of_creating (hinv : Inv d w) (hn : n ∈ d.nodes)
    (h : (w.node n).listener = .creating s) :
    Startable O d w n s := by
  have hstep : step O d w (.create n true) = some (w.setNode n { w.node n with
      pool := (w.node n).pool.handleShardConfig true (.createShard s), listener := .checking s }) := by
    simp [step, hn, h]
  have hstart := startable_of_checking (O := O) (hinv.of_step hstep) hn
    (congrArg NodeState.listener (setNode_node_self w n _))
  exact hstart.of_reaches (.single (l := .create n true) trivial hstep)

/-- The commands a node has still to carry out. -/
def pending (w : World) (n : NodeId) : List ShardConfigCommand :=
  (w.node n).queue ++ w.log.drop (w.node n).applied

/-- The listener waits for the next command, and the shard is not in the map. -/
structure Waiting (w : World) (n : NodeId) (s : ShardId) : Prop where
  idle : (w.node n).listener = .idle
  absent : s ∉ (w.node n).pool.shards

theorem notMem_handleShardConfig {pool : RaftPool} {t : ShardId} (h : s ∉ pool.shards) (hne : s ≠ t)
    (ok : Bool) : s ∉ (pool.handleShardConfig ok (.createShard t)).shards := by
  simp only [RaftPool.handleShardConfig]
  split
  · exact h
  · split
    · simp [h, hne]
    · exact h

/-- The listener can finish with another shard. -/
theorem exists_waiting (hn : n ∈ d.nodes) (hother : (w.node n).listener.shard? ≠ some s)
    (habsent : s ∉ (w.node n).pool.shards) :
    ∃ w', Runs.Reaches (step O d) Label.NoRestart w w' ∧ Waiting w' n s ∧
      pending w' n = pending w n := by
  have hchecking : ∀ (u : World) (t : ShardId), (u.node n).listener = .checking t →
      s ∉ (u.node n).pool.shards →
      ∃ w', Runs.Reaches (step O d) Label.NoRestart u w' ∧ Waiting w' n s ∧
        pending w' n = pending u n := by
    intro u t hu hno
    refine ⟨u.setNode n { u.node n with listener := .idle },
      .single (l := .linearizable n false) trivial (by simp [step, hn, hu]),
        ⟨by simp, by simpa using hno⟩, ?_⟩
    simp [pending, World.setNode]
  cases hpc : (w.node n).listener with
  | idle => exact ⟨w, .refl w, ⟨hpc, habsent⟩, rfl⟩
  | checking t => exact hchecking w t hpc habsent
  | creating t =>
    have hne : s ≠ t := fun heq => hother (by rw [hpc, heq]; rfl)
    have hstep : step O d w (.create n true) = some (w.setNode n { w.node n with
        pool := (w.node n).pool.handleShardConfig true (.createShard t)
        listener := .checking t }) := by
      simp [step, hn, hpc]
    have hno := notMem_handleShardConfig habsent hne true
    obtain ⟨w', hreaches, hwaiting, hpending⟩ := hchecking (w.setNode n { w.node n with
      pool := (w.node n).pool.handleShardConfig true (.createShard t), listener := .checking t }) t
      (by simp) (by simpa using hno)
    refine ⟨w', .head (l := .create n true) trivial hstep hreaches, hwaiting, hpending.trans ?_⟩
    simp [pending, World.setNode]
  | leading t =>
    have hstep : ∃ u, step O d w (.initShard n (soleVoter n)) = some u ∧
        u.node n = { w.node n with listener := .idle } ∧ u.log = w.log := by
      simp only [step, hn, hpc, if_true]
      split
      · exact ⟨_, rfl, by simp, rfl⟩
      · exact ⟨_, rfl, by simp, rfl⟩
    obtain ⟨u, hu, hnode, hlog⟩ := hstep
    refine ⟨u, .single (l := .initShard n (soleVoter n)) trivial hu, ⟨?_, ?_⟩, ?_⟩
    · rw [hnode]
    · rw [hnode]
      exact habsent
    · rw [pending, pending, hnode, hlog]

/-- The next command can be brought to the head of the queue. -/
theorem exists_queued (hn : n ∈ d.nodes) (hwaiting : Waiting w n s) {cmd : ShardConfigCommand}
    {rest : List ShardConfigCommand} (hpending : pending w n = cmd :: rest) :
    ∃ w' queue, Runs.Reaches (step O d) Label.NoRestart w w' ∧ Waiting w' n s ∧
      (w'.node n).queue = cmd :: queue ∧ queue ++ w'.log.drop (w'.node n).applied = rest := by
  cases hqueue : (w.node n).queue with
  | cons cmd' queue =>
    rw [pending, hqueue, List.cons_append, List.cons.injEq] at hpending
    obtain ⟨rfl, hrest⟩ := hpending
    exact ⟨w, queue, .refl w, hwaiting, hqueue, hrest⟩
  | nil =>
    rw [pending, hqueue, List.nil_append] at hpending
    have hcmd : w.log[(w.node n).applied]? = some cmd := by
      rw [← List.head?_drop, hpending]
      rfl
    have hrest : w.log.drop ((w.node n).applied + 1) = rest := by
      rw [← List.tail_drop, hpending]
      rfl
    refine ⟨w.setNode n { w.node n with applied := (w.node n).applied + 1, queue := [cmd] }, [],
      .single (l := .apply n) trivial ?_, ⟨?_, ?_⟩, ?_, ?_⟩
    · simp [step, hn, hcmd, hqueue]
    · simpa using hwaiting.idle
    · simpa using hwaiting.absent
    · simp
    · simpa [World.setNode] using hrest

/-- **The listener comes to the command**: by induction on what the node has still to carry out. -/
theorem startable_of_pending (hn : n ∈ d.nodes) {cmds : List ShardConfigCommand} (hinv : Inv d w)
    (hwaiting : Waiting w n s) (hpending : pending w n = cmds) (hcmd : .createShard s ∈ cmds) :
    Startable O d w n s := by
  induction cmds generalizing w with
  | nil => cases hcmd
  | cons cmd rest ih =>
    obtain ⟨w₁, queue, hreaches, hwaiting₁, hqueue, hrest⟩ := exists_queued hn hwaiting hpending
    have hinv₁ := hinv.reaches hreaches
    have hstep : step O d w₁ (.receive n) =
        some (w₁.setNode n (handle { w₁.node n with queue := queue } cmd)) := by
      simp [step, hn, hwaiting₁.idle, hqueue]
    refine Startable.of_reaches ?_ (hreaches.trans (.single (l := .receive n) trivial hstep))
    have hinv₂ := hinv₁.of_step hstep
    have hnode := setNode_node_self w₁ n (handle { w₁.node n with queue := queue } cmd)
    have hpending₂ : pending (w₁.setNode n (handle { w₁.node n with queue := queue } cmd)) n =
        rest := by
      rw [pending, hnode, handle_queue, handle_applied, ← hrest]
      rfl
    have habsent₂ : s ∉ (handle { w₁.node n with queue := queue } cmd).pool.shards := by
      rw [handle_shards]
      exact hwaiting₁.absent
    by_cases hnext : cmd = .createShard s
    · subst hnext
      refine startable_of_creating hinv₂ hn ?_
      rw [hnode, handle, if_neg hwaiting₁.absent]
    · -- the listener can finish with what it has taken
      have hlater : .createShard s ∈ rest :=
        (List.mem_cons.mp hcmd).resolve_left fun heq => hnext heq.symm
      have hother : (handle { w₁.node n with queue := queue } cmd).listener.shard? ≠ some s := by
        rcases handle_listener { w₁.node n with queue := queue } cmd with
          hsame | ⟨t, rfl, -, hcreating⟩
        · rw [hsame]
          simp [hwaiting₁.idle, ListenerPc.shard?]
        · rw [hcreating]
          rintro heq
          cases heq
          exact hnext rfl
      rw [← hnode] at hother habsent₂
      obtain ⟨w₃, hreaches₃, hwaiting₃, hpending₃⟩ := exists_waiting hn hother habsent₂
      exact (ih (hinv₂.reaches hreaches₃) hwaiting₃ (hpending₃.trans hpending₂) hlater).of_reaches
        hreaches₃

/-- A listener that is starting the shard can go through with it. -/
theorem startable_of_listener (hinv : Inv d w) (hn : n ∈ d.nodes)
    (h : (w.node n).listener.shard? = some s) :
    Startable O d w n s := by
  cases hpc : (w.node n).listener with
  | idle =>
    rw [hpc] at h
    cases h
  | creating t =>
    rw [hpc] at h
    cases h
    exact startable_of_creating hinv hn hpc
  | checking t =>
    rw [hpc] at h
    cases h
    exact startable_of_checking hinv hn hpc
  | leading t =>
    rw [hpc] at h
    cases h
    exact startable_of_leading hinv hn hpc

/-- A node that has not created the shard can still start it. -/
theorem startable_of_absent (hinv : Inv d w) (hn : n ∈ d.nodes)
    (habsent : s ∉ (w.node n).pool.shards) :
    Startable O d w n s := by
  by_cases hlistener : (w.node n).listener.shard? = some s
  · exact startable_of_listener hinv hn hlistener
  · obtain ⟨w₁, hreaches₁, hwaiting₁, -⟩ := exists_waiting hn hlistener habsent
    have hinv₁ := hinv.reaches hreaches₁
    obtain ⟨w₂, hreaches₂, hnode₂, -, hzero⟩ := exists_active_zero (O := O) hinv₁ hn
    have hinv₂ := hinv₁.reaches hreaches₂
    -- the command is committed once more
    have hstep : step O d w₂ (.commit (.createShard s)) =
        some { w₂ with log := w₂.log ++ [.createShard s] } :=
      if_pos ⟨n, hn, hzero⟩
    have hreaches := (hreaches₁.trans hreaches₂).trans
      (.single (l := .commit (.createShard s)) trivial hstep)
    refine (startable_of_pending hn (hinv₂.of_step hstep) ?_ rfl ?_).of_reaches hreaches
    · exact ⟨by rw [hnode₂]; exact hwaiting₁.idle, by rw [hnode₂]; exact hwaiting₁.absent⟩
    · refine List.mem_append_right _ ?_
      rw [List.drop_append_of_le_length (hinv₂.applied n)]
      exact List.mem_append_right _ (List.mem_singleton_self _)

theorem startable_of_not_pastStart (hinv : Inv d w) (hn : n ∈ d.nodes) (h : ¬ PastStart (w.node n) s) :
    Startable O d w n s := by
  by_cases hin : s ∈ (w.node n).pool.shards
  · refine startable_of_listener hinv hn ?_
    by_contra hno
    exact h ⟨hin, hno⟩
  · exact startable_of_absent hinv hn hin

end Starting

/-! ## Main result -/

instance (d : Deployment) (w : World) (s : ShardId) : Decidable (Orphaned d w s) :=
  inferInstanceAs
    (Decidable (∀ n ∈ d.nodes,
      (s ∈ (w.node n).pool.shards ∧ (w.node n).listener.shard? ≠ some s) ∧ w.active n s = false))

/-- No group of the shard becomes active, and no write to it returns `Ok`, whatever happens before a
node restarts. -/
def Dead (O : RaftCalls) (d : Deployment) (w : World) (s : ShardId) : Prop :=
  ∀ w', Runs.Reaches (step O d) Label.NoRestart w w' →
    ∀ n ∈ d.nodes, w'.active n s = false ∧ (n, s) ∉ w'.acked

/-- **Orphaned shards are dead, and no others are.**  In every reachable state of the cluster a
shard other than 0 is dead exactly when every node has created it, none is still starting it and
none has initialized it: neither another `CreateShard` nor a change of shard 0's leader helps.  Any
other shard can be written to without a restart, and a restart of any node makes it possible again to
start the orphaned shard there and to write to it. -/
theorem orphaned_shard_dead (hreach : Reachable O d w) {s : ShardId} (hs : s ≠ 0) :
    (Dead O d w s ↔ Orphaned d w s) ∧
    ((∀ n ∈ d.nodes, ¬ Writable O d w n s) ↔ Orphaned d w s) ∧
    (Orphaned d w s → ∀ n ∈ d.nodes, ∃ w₁, step O d w (.restart n) = some w₁ ∧
      Startable O d w₁ n s ∧ Writable O d w₁ n s) := by
  have hinv := hreach.inv
  have hdead : Orphaned d w s → Dead O d w s := by
    intro horphaned w' hreaches n hn
    have hpristine := (horphaned.reaches hs hreaches n hn).2
    refine ⟨hpristine, ?_⟩
    intro hacked
    rw [((hinv.reaches hreaches).acked n s hacked).2] at hpristine
    cases hpristine
  have horphaned : (∀ n ∈ d.nodes, ¬ Writable O d w n s) → Orphaned d w s := by
    intro hunwritable n hn
    have hpast : PastStart (w.node n) s := by
      by_contra hpast
      exact hunwritable n hn ((startable_of_not_pastStart hinv hn hpast).writable hn)
    refine ⟨hpast, ?_⟩
    by_contra hactive
    exact hunwritable n hn
      (Startable.writable hn ⟨w, .refl w, Bool.eq_true_of_not_eq_false hactive, hpast.1⟩)
  refine ⟨⟨fun h => horphaned ?_, hdead⟩, ⟨horphaned, fun h n hn => ?_⟩, ?_⟩
  · rintro n hn ⟨w', hreaches, hacked⟩
    exact (h w' hreaches n hn).2 hacked
  · rintro ⟨w', hreaches, hacked⟩
    exact (hdead h w' hreaches n hn).2 hacked
  · intro _ n hn
    have hstep : step O d w (.restart n) = some (w.setNode n .new) := if_pos hn
    have hstart : Startable O d (w.setNode n .new) n s := by
      refine startable_of_absent (hinv.of_step hstep) hn ?_
      rw [setNode_node_self]
      exact fun hin => hs (List.mem_singleton.mp hin)
    exact ⟨_, hstep, hstart, hstart.writable hn⟩

/-- Calls that are refused as openraft documents it, and may return anything else. -/
def raftCalls : RaftCalls where
  init active n members :=
    if active then .error .notAllowed
    else if n ∈ members then .ok () else .error .notInMembers
  init_ok {active n members} := by
    cases active
    · by_cases hmem : n ∈ members <;> simp [hmem]
    · simp
  answers active
    | .ok | .forwardToLeader (some _) => active
    | .forwardToLeader none | .otherError => true
  pristine_ok := rfl
  pristine_forward _ := rfl
  active_ok := rfl

/-- The first two nodes of the compose file. -/
def twoNodes : Deployment where
  nodes := {1, 2}
  raftAddr _ := "0.0.0.0:4001"
  peers n := if n = 1 then ["2=node-2:4001"] else ["1=node-1:4001"]

/-- Shard 1 is created while node 1 leads shard 0.  Node 2 creates it first and does not lead;
before node 1 has created it, node 2 becomes the leader. -/
def leaderMoves : List Label :=
  [.clusterInit 1 ((∅ : NodeMap).insert 1 ⟨"node-1:4001"⟩ |>.insert 2 ⟨"node-2:4001"⟩), .contact 1 2 0,
    .commit (.createShard 1), .apply 2, .receive 2, .create 2 true, .linearizable 2 false,
    .apply 1, .receive 1, .create 1 true, .linearizable 1 false]

/-- **A change of leader can leave a shard dead.** -/
theorem leader_change_leaves_shard_dead :
    ∃ w, Reachable raftCalls twoNodes w ∧ w.log = [.createShard 1] ∧ Dead raftCalls twoNodes w 1 ∧
      ∃ w₁, step raftCalls twoNodes w (.restart 1) = some w₁ ∧ Startable raftCalls twoNodes w₁ 1 1 ∧
        Writable raftCalls twoNodes w₁ 1 1 := by
  obtain ⟨w, hexec, hlog, horphaned⟩ :
      ∃ w, Runs.exec (step raftCalls twoNodes) World.start leaderMoves = some w ∧
      w.log = [.createShard 1] ∧ Orphaned twoNodes w 1 :=
    Runs.exists_exec (by decide +kernel)
  have hdead := orphaned_shard_dead (s := 1) ⟨leaderMoves, hexec⟩ (by decide)
  exact ⟨w, ⟨leaderMoves, hexec⟩, hlog, hdead.1.mpr horphaned, hdead.2.2 horphaned 1 (by decide)⟩

end RaftTimeDB.ShardStart
