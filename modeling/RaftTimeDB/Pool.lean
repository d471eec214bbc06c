import RaftTimeDB.Router

/-!
# The pool of Raft groups

The part of `RaftPool` (`crates/proxy/src/raft/mod.rs`) that shard config commands materialise: the
shards a node runs and its router.  Creating a shard can fail (`create_shard_state` opens files), so
`handleShardConfig` takes that outcome.  The call of openraft's `initialize` that may follow a
successful creation touches neither table and is left out here.
-/

set_option autoImplicit false

namespace RaftTimeDB

structure RaftPool where
  shards : List ShardId
  router : ShardRouter
  deriving DecidableEq

namespace RaftPool

/-- `RaftPool::new`: shard 0 and an empty router. -/
def new : RaftPool := ⟨[0], ShardRouter.new⟩

/-- `handle_shard_config`; `created` is the outcome of `create_shard_state` if it is called. -/
def handleShardConfig (created : Bool) (pool : RaftPool) (cmd : ShardConfigCommand) : RaftPool :=
  match cmd with
  | .createShard shardId =>
      if shardId ∈ pool.shards then pool
      else if created then { pool with shards := pool.shards ++ [shardId] } else pool
  | .addRoute moduleName shardId => { pool with router := pool.router.addRoute moduleName shardId }
  | .removeRoute moduleName => { pool with router := (pool.router.removeRoute moduleName).2 }

def routeModule (pool : RaftPool) (moduleName : String) : ShardId := pool.router.route moduleName

/-- `get_raft`: a Raft group is named by its shard. -/
def getRaft (pool : RaftPool) (shardId : ShardId) : Option ShardId :=
  if shardId ∈ pool.shards then some shardId else none

/-- The group `propose_write` goes to, or its error. -/
def proposeTarget (pool : RaftPool) (shardId : ShardId) : Except String ShardId :=
  match pool.getRaft shardId with
  | some raft => .ok raft
  | none => .error ("shard " ++ toString shardId ++ " not found")

/-- Creating a shard leaves the router alone. -/
theorem handleShardConfig_createShard_router (created : Bool) (pool : RaftPool) (shardId : ShardId) :
    (pool.handleShardConfig created (.createShard shardId)).router = pool.router := by
  simp only [handleShardConfig]
  split
  · rfl
  · split <;> rfl

theorem handleShardConfig_defaultShard (created : Bool) (pool : RaftPool) (cmd : ShardConfigCommand) :
    (pool.handleShardConfig created cmd).router.defaultShard = pool.router.defaultShard := by
  cases cmd with
  | createShard shardId => rw [handleShardConfig_createShard_router]
  | addRoute moduleName shardId => rfl
  | removeRoute moduleName => rfl

/-- No command removes a shard. -/
theorem mem_handleShardConfig {pool : RaftPool} {s : ShardId} (h : s ∈ pool.shards) (created : Bool)
    (cmd : ShardConfigCommand) : s ∈ (pool.handleShardConfig created cmd).shards := by
  cases cmd with
  | createShard shardId =>
    simp only [handleShardConfig]
    split
    · exact h
    · split
      · exact List.mem_append_left _ h
      · exact h
  | addRoute moduleName shardId => exact h
  | removeRoute moduleName => exact h

theorem getRaft_isSome {pool : RaftPool} {shardId : ShardId} :
    (pool.getRaft shardId).isSome = true ↔ shardId ∈ pool.shards := by
  by_cases h : shardId ∈ pool.shards <;> simp [getRaft, h]

theorem proposeTarget_ok_iff {pool : RaftPool} {shardId : ShardId} :
    pool.proposeTarget shardId = .ok shardId ↔ shardId ∈ pool.shards := by
  by_cases h : shardId ∈ pool.shards <;> simp [proposeTarget, getRaft, h]

end RaftPool

end RaftTimeDB
