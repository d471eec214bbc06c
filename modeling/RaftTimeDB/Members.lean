import Mathlib.Data.Finset.Sort
import RaftTimeDB.Router

/-!
# Members of a shard and their addresses

The functions of `crates/proxy/src/raft/mod.rs` that look up a cluster's members: `parse_peers`,
`get_current_members` and `current_leader`.  Which nodes vote comes from the replicated membership of a
shard (openraft's metrics); their addresses come from the node's own configuration.

* openraft's membership changes are the parameter `MembershipApi`, with its documented effect on the
  voters and on the address book.  `add_learner` does not replace the address of a node it knows, and
  `change_membership(S, false)` drops the voters that are not in `S`.
* A metrics watch is its current value.

Principal results: `lookup_getCurrentMembers` — what the map says of each node; `members_recorded_iff` —
it is the recorded membership exactly when the node's address book agrees with the recorded one.
-/

set_option autoImplicit false

namespace RaftTimeDB

/-- `BTreeMap<u64, BasicNode>`. -/
abbrev NodeMap := Finmap (fun _ : NodeId => BasicNode)

/-! ## Configuration -/

/-- The fields of `NodeConfig` that are read here. -/
structure NodeConfig where
  nodeId : NodeId
  raftAddr : String
  peers : List String
  deriving DecidableEq, Repr

/-- `str::parse::<u64>`: decimal digits with an optional plus sign. -/
def parseU64 (text : List Char) : Option Nat :=
  let digits := match text with
    | '+' :: rest => rest
    | _ => text
  if digits = [] ∨ digits.any (fun c => !c.isDigit) then none
  else
    let n := digits.foldl (fun n c => 10 * n + (c.toNat - '0'.toNat)) 0
    if n < 2 ^ 64 then some n else none

/-- One peer string `id=host:port`; other strings are skipped with a warning. -/
def parsePeer (peer : String) : Option (NodeId × BasicNode) :=
  match splitOnce '=' peer.toList with
  | some (idStr, addr) => (parseU64 idStr).map fun id => (id, ⟨String.ofList addr⟩)
  | none => none

def parsePeers (peers : List String) : NodeMap :=
  peers.foldl
    (fun map peer =>
      match parsePeer peer with
      | some (id, node) => map.insert id node
      | none => map)
    ∅

/-! ## Memberships -/

/-- `Membership::voter_ids`. -/
def Membership.voterIds (m : Membership) : Finset NodeId :=
  m.configs.foldr (fun config ids => config ∪ ids) ∅

/-- openraft's membership changes. -/
structure MembershipApi where
  initMembers : NodeMap → Membership
  addLearner : Membership → NodeId → BasicNode → Membership
  changeMembership : Membership → Finset NodeId → Membership
  initMembers_voters : ∀ members, (initMembers members).voterIds = members.keys
  initMembers_nodes : ∀ members, (initMembers members).nodes = members
  addLearner_voters : ∀ m id node, (addLearner m id node).voterIds = m.voterIds
  addLearner_nodes : ∀ m id node,
    (addLearner m id node).nodes = if id ∈ m.nodes then m.nodes else m.nodes.insert id node
  change_voters : ∀ m voters, (changeMembership m voters).voterIds = voters
  change_nodes : ∀ m voters id, (changeMembership m voters).nodes.lookup id =
    if id ∈ m.voterIds ∧ id ∉ voters then none else m.nodes.lookup id

/-- Every voter has a recorded address. -/
def Membership.Known (m : Membership) : Prop := ∀ id ∈ m.voterIds, id ∈ m.nodes

section

variable (M : MembershipApi)

/-- The membership of a shard after a successful turn of `add_node_all_shards`. -/
def MembershipApi.added (m : Membership) (id : NodeId) (addr : String) : Membership :=
  let learner := M.addLearner m id ⟨addr⟩
  M.changeMembership learner (insert id learner.voterIds)

/-- The membership of a shard after a successful turn of `remove_node_all_shards`. -/
def MembershipApi.removed (m : Membership) (id : NodeId) : Membership :=
  M.changeMembership m (m.voterIds.erase id)

variable {M}

@[simp] theorem MembershipApi.added_voters (m : Membership) (id : NodeId) (addr : String) :
    (M.added m id addr).voterIds = insert id m.voterIds := by
  rw [added, M.change_voters, M.addLearner_voters]

@[simp] theorem MembershipApi.removed_voters (m : Membership) (id : NodeId) :
    (M.removed m id).voterIds = m.voterIds.erase id := by
  rw [removed, M.change_voters]

theorem MembershipApi.addLearner_known (m : Membership) (id : NodeId) (node : BasicNode) :
    id ∈ (M.addLearner m id node).nodes := by
  rw [M.addLearner_nodes]
  split
  · assumption
  · exact Finmap.mem_insert.mpr (Or.inl rfl)

theorem MembershipApi.addLearner_mem {m : Membership} {id : NodeId} (h : id ∈ m.nodes)
    (other : NodeId) (node : BasicNode) : id ∈ (M.addLearner m other node).nodes := by
  rw [M.addLearner_nodes]
  split
  · exact h
  · exact Finmap.mem_insert.mpr (Or.inr h)

/-- A node that stays or becomes a voter keeps its address. -/
theorem MembershipApi.change_mem {m : Membership} {voters : Finset NodeId} {id : NodeId}
    (h : id ∈ m.nodes) (hid : id ∈ voters) : id ∈ (M.changeMembership m voters).nodes := by
  rw [← Finmap.lookup_isSome, M.change_nodes, if_neg fun hgone => hgone.2 hid]
  exact Finmap.lookup_isSome.mpr h

theorem Membership.Known.added {m : Membership} (h : m.Known) (id : NodeId) (addr : String) :
    (M.added m id addr).Known := by
  intro other hother
  refine M.change_mem ?_ (by rwa [MembershipApi.added, M.change_voters] at hother)
  rw [MembershipApi.added_voters, Finset.mem_insert] at hother
  rcases hother with rfl | hold
  · exact M.addLearner_known m _ _
  · exact M.addLearner_mem (h other hold) id _

theorem Membership.Known.removed {m : Membership} (h : m.Known) (id : NodeId) :
    (M.removed m id).Known := by
  intro other hother
  rw [MembershipApi.removed_voters] at hother
  exact M.change_mem (h other (Finset.mem_of_mem_erase hother)) hother

/-- The memberships of shard 0: the one given to `cluster_init`, then any successful additions and
removals of nodes. -/
inductive MembershipApi.Reachable (M : MembershipApi) : Membership → Prop where
  | init (members : NodeMap) : M.Reachable (M.initMembers members)
  | add {m : Membership} (id : NodeId) (addr : String) : M.Reachable m → M.Reachable (M.added m id addr)
  | remove {m : Membership} (id : NodeId) : M.Reachable m → M.Reachable (M.removed m id)

theorem MembershipApi.Reachable.known {m : Membership} (h : M.Reachable m) : m.Known := by
  induction h with
  | init members =>
    intro id hid
    rw [M.initMembers_voters, Finmap.mem_keys] at hid
    rwa [M.initMembers_nodes]
  | add id addr _ ih => exact ih.added id addr
  | remove id _ ih => exact ih.removed id

end

/-! ## The pool's view -/

/-- What `raft.metrics()` shows. -/
structure RaftMetrics where
  membership : Membership
  currentLeader : Option NodeId

/-- A node's configuration and the metrics of the shards in its pool. -/
structure PoolView where
  config : NodeConfig
  shards : ShardId → Option RaftMetrics

namespace PoolView

/-- The static address book. -/
def peers (v : PoolView) : NodeMap := parsePeers v.config.peers

/-- Loop body of `get_current_members`. -/
def addMember (v : PoolView) (members : NodeMap) (id : NodeId) : NodeMap :=
  if id = v.config.nodeId then members.insert id ⟨v.config.raftAddr⟩
  else
    match v.peers.lookup id with
    | some node => members.insert id node
    | none => members

def getCurrentMembers (v : PoolView) (s : ShardId) : NodeMap :=
  match v.shards s with
  | some metrics => (metrics.membership.voterIds.sort (· ≤ ·)).foldl v.addMember ∅
  | none => ∅

def currentLeader (v : PoolView) (s : ShardId) : Option (NodeId × String) :=
  match v.shards s with
  | some metrics =>
      match metrics.currentLeader with
      | some leaderId =>
          if leaderId = v.config.nodeId then some (leaderId, v.config.raftAddr)
          else (v.peers.lookup leaderId).map fun node => (leaderId, node.addr)
      | none => none
  | none => none

/-- The address a node's configuration gives for a node id. -/
def address? (v : PoolView) (id : NodeId) : Option BasicNode :=
  if id = v.config.nodeId then some ⟨v.config.raftAddr⟩ else v.peers.lookup id

theorem addMember_lookup (v : PoolView) (members : NodeMap) (id other : NodeId) :
    (v.addMember members id).lookup other =
      if other = id then (v.address? id).or (members.lookup id) else members.lookup other := by
  by_cases hother : other = id
  · subst hother
    unfold addMember address?
    split
    · simp
    · cases v.peers.lookup other <;> simp
  · unfold addMember
    rw [if_neg hother]
    split
    · rw [Finmap.lookup_insert_of_ne _ hother]
    · cases v.peers.lookup id with
      | none => rfl
      | some node => rw [Finmap.lookup_insert_of_ne _ hother]

theorem foldl_addMember_lookup (v : PoolView) (ids : List NodeId) (members : NodeMap) (id : NodeId) :
    (ids.foldl v.addMember members).lookup id =
      if id ∈ ids then (v.address? id).or (members.lookup id) else members.lookup id := by
  induction ids generalizing members with
  | nil => simp
  | cons i ids ih =>
    rw [List.foldl_cons, ih, addMember_lookup]
    by_cases hi : id = i
    · subst hi
      cases v.address? id <;> simp
    · simp [hi]

/-- **The current members**: each voter with the address of the node's own configuration, and left out
if that has none. -/
theorem lookup_getCurrentMembers {v : PoolView} {s : ShardId} {metrics : RaftMetrics}
    (h : v.shards s = some metrics) (id : NodeId) :
    (v.getCurrentMembers s).lookup id =
      if id ∈ metrics.membership.voterIds then v.address? id else none := by
  simp only [getCurrentMembers, h, foldl_addMember_lookup, Finset.mem_sort, Finmap.lookup_empty,
    Option.or_none]

theorem currentLeader_eq {v : PoolView} {s : ShardId} {m : Membership} {leaderId : NodeId}
    (h : v.shards s = some ⟨m, some leaderId⟩) :
    v.currentLeader s = (v.address? leaderId).map fun node => (leaderId, node.addr) := by
  simp only [currentLeader, h, address?]
  split <;> rfl

/-! ## Main result -/

/-- The voters of a membership with their recorded addresses. -/
def IsRecorded (members : NodeMap) (m : Membership) : Prop :=
  ∀ id, members.lookup id = if id ∈ m.voterIds then m.nodes.lookup id else none

/-- What a node shows of a shard is the recorded membership: the current members are the voters with
their recorded addresses, and so is the leader that is known. -/
structure ShowsRecorded (v : PoolView) (s : ShardId) (m : Membership) (leader : Option NodeId) :
    Prop where
  members : IsRecorded (v.getCurrentMembers s) m
  leader : ∀ id ∈ leader, id ∈ m.voterIds →
    ∃ node, m.nodes.lookup id = some node ∧ v.currentLeader s = some (id, node.addr)

/-- The node's own configuration has the recorded address of every voter: its `raft_addr` is the one
recorded for itself, and its peer list names every other voter with the recorded address. -/
def AddressesAgree (v : PoolView) (m : Membership) : Prop :=
  ∀ id ∈ m.voterIds, v.address? id = m.nodes.lookup id

theorem isRecorded_iff {v : PoolView} {s : ShardId} {metrics : RaftMetrics}
    (h : v.shards s = some metrics) :
    IsRecorded (v.getCurrentMembers s) metrics.membership ↔ v.AddressesAgree metrics.membership := by
  constructor
  · intro hrecorded id hid
    have hlookup := hrecorded id
    rwa [lookup_getCurrentMembers h, if_pos hid, if_pos hid] at hlookup
  · intro hagree id
    rw [lookup_getCurrentMembers h]
    split
    · rename_i hid
      exact hagree id hid
    · rfl

end PoolView

/-- **The members of shard 0 as a node sees them, exactly.**  For every reachable membership of shard 0
and every node configuration, the node's current members are the voters with their recorded addresses,
and so is its current leader, if and only if its own configuration has the recorded address of every
voter.  Nodes of which this holds see the same map. -/
theorem members_recorded_iff {M : MembershipApi} {m : Membership} (hreach : M.Reachable m)
    {v : PoolView} {leader : Option NodeId} (h : v.shards 0 = some ⟨m, leader⟩) :
    (v.ShowsRecorded 0 m leader ↔ v.AddressesAgree m) ∧
    (v.AddressesAgree m → ∀ (v' : PoolView) (leader' : Option NodeId),
      v'.shards 0 = some ⟨m, leader'⟩ → v'.AddressesAgree m →
      v.getCurrentMembers 0 = v'.getCurrentMembers 0) := by
  refine ⟨⟨fun hshows => (PoolView.isRecorded_iff h).mp hshows.members, ?_⟩, ?_⟩
  · intro hagree
    refine ⟨(PoolView.isRecorded_iff h).mpr hagree, ?_⟩
    intro id hid hvoter
    rw [Option.mem_def] at hid
    subst hid
    obtain ⟨node, hnode⟩ := Finmap.mem_iff.mp (hreach.known id hvoter)
    refine ⟨node, hnode, ?_⟩
    rw [PoolView.currentLeader_eq h, hagree id hvoter, hnode, Option.map_some]
  · intro hagree v' leader' h' hagree'
    refine Finmap.ext_lookup ?_
    intro id
    rw [(PoolView.isRecorded_iff h).mpr hagree id, (PoolView.isRecorded_iff h').mpr hagree' id]

/-! ## A concrete membership API -/

instance : LeftCommutative fun (id : NodeId) (nodes : NodeMap) => nodes.erase id :=
  ⟨fun _ _ _ => Finmap.erase_erase⟩

/-- The address book without the given nodes. -/
def NodeMap.without (nodes : NodeMap) (gone : Finset NodeId) : NodeMap :=
  gone.val.foldr (fun id nodes => nodes.erase id) nodes

theorem NodeMap.lookup_without (nodes : NodeMap) (gone : Finset NodeId) (id : NodeId) :
    (nodes.without gone).lookup id = if id ∈ gone then none else nodes.lookup id := by
  have hfold : ∀ ids : Multiset NodeId,
      (ids.foldr (fun id nodes => nodes.erase id) nodes).lookup id =
        if id ∈ ids then none else nodes.lookup id := by
    intro ids
    induction ids using Multiset.induction_on with
    | empty => simp
    | cons i ids ih =>
      rw [Multiset.foldr_cons]
      by_cases hi : id = i
      · subst hi
        simp
      · rw [Finmap.lookup_erase_ne hi, ih]
        simp [hi]
  exact hfold gone.val

/-- openraft's changes between uniform memberships. -/
def uniformApi : MembershipApi where
  initMembers members := ⟨[members.keys], members⟩
  addLearner m id node :=
    { m with nodes := if id ∈ m.nodes then m.nodes else m.nodes.insert id node }
  changeMembership m voters := ⟨[voters], NodeMap.without m.nodes (m.voterIds \ voters)⟩
  initMembers_voters members := by simp [Membership.voterIds]
  initMembers_nodes _ := rfl
  addLearner_voters _ _ _ := rfl
  addLearner_nodes _ _ _ := rfl
  change_voters m voters := by simp [Membership.voterIds]
  change_nodes m voters id := by
    simp only [NodeMap.lookup_without, Finset.mem_sdiff]

/-- The members of the compose file, as its cluster is initialised. -/
def composeMembers : NodeMap :=
  ((Finmap.singleton 1 ⟨"node-1:4001"⟩).insert 2 ⟨"node-2:4001"⟩).insert 3 ⟨"node-3:4001"⟩

/-- Node 1 with the address the other nodes know it by. -/
def node1Named (m : Membership) (leader : Option NodeId) : PoolView where
  config := ⟨1, "node-1:4001", ["2=node-2:4001", "3=node-3:4001"]⟩
  shards _ := some ⟨m, leader⟩

/-- With its public address as `raft_addr` node 1 sees the recorded membership. -/
theorem named_node_shows_recorded :
    (node1Named (uniformApi.initMembers composeMembers) (some 2)).ShowsRecorded 0
      (uniformApi.initMembers composeMembers) (some 2) :=
  (members_recorded_iff (.init composeMembers) rfl).1.mpr (by
    unfold PoolView.AddressesAgree
    decide +kernel)

/-- Node 1 as the compose file configures it: it listens on all interfaces. -/
def node1Bound (m : Membership) : PoolView where
  config := ⟨1, "0.0.0.0:4001", ["2=node-2:4001", "3=node-3:4001"]⟩
  shards _ := some ⟨m, some 1⟩

/-- Node 2 of the compose file. -/
def node2Bound (m : Membership) : PoolView where
  config := ⟨2, "0.0.0.0:4001", ["1=node-1:4001", "3=node-3:4001"]⟩
  shards _ := some ⟨m, some 1⟩

/-- **A node shows its bind address and leaves added voters out.**  In the compose cluster, after node 4
has been added, node 1 shows itself under its bind address and has no entry for voter 4, and node 2,
with the same membership, shows another map. -/
theorem bound_node_misses_voter :
    ∃ m, uniformApi.Reachable m ∧ 4 ∈ m.voterIds ∧
      m.nodes.lookup 1 = some ⟨"node-1:4001"⟩ ∧
      ((node1Bound m).getCurrentMembers 0).lookup 1 = some ⟨"0.0.0.0:4001"⟩ ∧
      ((node1Bound m).getCurrentMembers 0).lookup 4 = none ∧
      (node1Bound m).currentLeader 0 = some (1, "0.0.0.0:4001") ∧
      ((node2Bound m).getCurrentMembers 0).lookup 1 = some ⟨"node-1:4001"⟩ := by
  refine ⟨uniformApi.added (uniformApi.initMembers composeMembers) 4 "node-4:4001",
    .add 4 _ (.init composeMembers), ?_⟩
  simp only [PoolView.lookup_getCurrentMembers (v := node1Bound _) rfl,
    PoolView.lookup_getCurrentMembers (v := node2Bound _) rfl]
  decide +kernel

end RaftTimeDB
