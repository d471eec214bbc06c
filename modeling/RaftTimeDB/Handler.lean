import RaftTimeDB.Types

/-!
# Client messages and proposals

Message classification (`crates/proxy/src/websocket/handler.rs`), `RaftPool::propose_write`
(`crates/proxy/src/raft/mod.rs`) and the endpoint that serves a forwarded write
(`cluster_shard_write` in `crates/proxy/src/api.rs`).

* Payloads of control frames are kept as the bytes they carry; only binary messages are looked into.
* `propose_write` is cut at its awaits: `proposeRequest` is what it hands to `client_write`,
  `afterClientWrite` what it does with the result, `afterPost` what it makes of the HTTP answer.
  The result of the whole call is whether it is `Ok`.
-/

set_option autoImplicit false

namespace RaftTimeDB

/-! ## Messages -/

/-- `tungstenite::Message`. -/
inductive Message where
  | text (text : String)
  | binary (data : Bytes)
  | ping (data : Bytes)
  | pong (data : Bytes)
  | close (frame : Option (Nat × String))
  deriving DecidableEq, Repr

namespace StdbTags

def CALL_REDUCER : UInt8 := 3

def CALL_PROCEDURE : UInt8 := 4

end StdbTags

inductive MessageKind where
  | write
  | read
  | passThrough
  deriving DecidableEq, Repr

def isWriteTag (tag : UInt8) : Bool :=
  tag == StdbTags.CALL_REDUCER || tag == StdbTags.CALL_PROCEDURE

/-- `classify_message`: the first byte of a binary message decides. -/
def classifyMessage : Message → MessageKind
  | .binary (tag :: _) => if isWriteTag tag then .write else .read
  | _ => .passThrough

/-- A message is a write exactly when it is binary and starts with tag 3 or 4. -/
theorem classifyMessage_eq_write_iff {msg : Message} :
    classifyMessage msg = .write ↔
      ∃ tag rest, msg = .binary (tag :: rest) ∧ isWriteTag tag = true := by
  unfold classifyMessage
  split
  · rename_i tag rest
    split
    · rename_i htag
      exact ⟨fun _ => ⟨tag, rest, rfl, htag⟩, fun _ => rfl⟩
    · rename_i htag
      refine ⟨fun h => (by cases h), ?_⟩
      rintro ⟨tag', rest', heq, htag'⟩
      cases heq
      exact absurd htag' htag
  · rename_i hno
    refine ⟨fun h => (by cases h), ?_⟩
    rintro ⟨tag, rest, rfl, _⟩
    exact absurd rfl (hno tag rest)

/-! ## Proposals -/

/-- Outcome of openraft's `client_write`. -/
inductive ClientWriteResult where
  | ok
  /-- this node is not the leader; it may know who is -/
  | forwardToLeader (leaderNode : Option BasicNode)
  | otherError
  deriving DecidableEq, Repr

/-- The request `propose_write` hands to `client_write`. -/
def proposeRequest (nodeId : NodeId) (data : Bytes) : ReducerCallRequest := ⟨data, nodeId⟩

/-- Where `propose_write` goes after `client_write`. -/
inductive ProposeStep where
  | done (ok : Bool)
  /-- POST the request to the leader and wait for the answer -/
  | post (leaderNode : BasicNode) (request : ReducerCallRequest)
  deriving DecidableEq, Repr

def afterClientWrite (nodeId : NodeId) (data : Bytes) : ClientWriteResult → ProposeStep
  | .ok => .done true
  | .forwardToLeader (some leaderNode) =>
      -- origin_node_id is preserved so that this node's forwarder skips the write
      .post leaderNode ⟨data, nodeId⟩
  | .forwardToLeader none => .done false
  | .otherError => .done false

/-- The HTTP answer; `none` if the request fails. -/
def afterPost : Option Nat → Bool
  | some status => decide (200 ≤ status ∧ status < 300)
  | none => false

/-- Status of `cluster_shard_write` after its `client_write`. -/
def clusterShardWrite : ClientWriteResult → Nat
  | .ok => 200
  | _ => 500

/-- Status of `cluster_shard_write` if the shard is unknown (`get_shard_raft`). -/
def shardNotFound : Nat := 404

theorem afterPost_clusterShardWrite (result : ClientWriteResult) :
    afterPost (some (clusterShardWrite result)) = true ↔ result = .ok := by
  cases result <;> simp [afterPost, clusterShardWrite]

/-- **The request keeps its origin** whichever way it goes to the log. -/
theorem afterClientWrite_post {nodeId : NodeId} {data : Bytes} {result : ClientWriteResult}
    {leaderNode : BasicNode} {request : ReducerCallRequest}
    (h : afterClientWrite nodeId data result = .post leaderNode request) :
    request = proposeRequest nodeId data ∧ result = .forwardToLeader (some leaderNode) := by
  unfold afterClientWrite at h
  split at h
  · cases h
  · cases h
    exact ⟨rfl, rfl⟩
  · cases h
  · cases h

end RaftTimeDB
