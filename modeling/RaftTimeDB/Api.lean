import RaftTimeDB.Axum
import RaftTimeDB.JsonFormats
import RaftTimeDB.ShardApi
import RaftTimeDB.ShardMembership

/-!
# The HTTP API of a node

`crates/proxy/src/api.rs`: the route table and the handlers up to the call they make (`dispatch`),
and the answers they make of its result.

* A request is the method, the path, whether the content type is JSON, and the body; axum routes it
  and runs the extractors of a handler in the order of its arguments (`Axum`).
* The types of openraft's RPCs are parameters (`RaftTypes`), and `serde_json` at the types of the
  bodies is a parameter that reads what it has written (`Wire`).
* `expect("shard 0 must exist")` is the action `panic`.

Principal result: `http_surface` — in every reachable state of a node no request panics, and exactly
the requests that name a running shard and carry a body of the right type, not above axum's limit,
reach a Raft group, that shard's.
-/

set_option autoImplicit false

namespace RaftTimeDB.Api

open Routing (Pattern Seg segments match? match?_nil match?_lit match?_param)
open ShardApi (ShardRequest)

/-! ## Bodies -/

/-- `serde_json` at one type; an error is the status axum answers with. -/
structure Wire (α : Type) where
  toVec : α → Bytes
  fromSlice : Bytes → Except Nat α
  roundtrip : ∀ a, fromSlice (toVec a) = .ok a

inductive RpcKind where
  | append
  | vote
  | snapshot
  deriving DecidableEq, Repr

/-- The last segment of an RPC's URL. -/
def RpcKind.name : RpcKind → String
  | .append => "append"
  | .vote => "vote"
  | .snapshot => "snapshot"

/-- openraft's requests, responses and errors of each RPC. -/
structure RaftTypes where
  Req : RpcKind → Type
  Resp : RpcKind → Type
  Err : RpcKind → Type

structure AddNodeRequest where
  nodeId : NodeId
  addr : String
  deriving DecidableEq

structure ApiJson (R : RaftTypes) where
  rpc : ∀ k, Wire (R.Req k)
  /-- the body of the answer to an RPC -/
  result : ∀ k, Wire (Except (R.Err k) (R.Resp k))
  write : Wire ReducerCallRequest
  members : Wire NodeMap
  addNode : Wire AddNodeRequest
  removeNode : Wire NodeId
  createShard : Wire ShardId
  addRoute : Wire (String × ShardId)
  removeRoute : Wire String

/-! ## Routes -/

inductive Endpoint where
  | raftShard (k : RpcKind)
  | raft (k : RpcKind)
  | clusterShardWrite
  | clusterWrite
  | clusterStatus
  | clusterInit
  | clusterAddNode
  | clusterRemoveNode
  | clusterLeader
  | clusterHealth
  | prometheusMetrics
  | shardCreate
  | shardAddRoute
  | shardRemoveRoute
  | shardList
  | shardStatus
  deriving DecidableEq, Repr

/-- `router`, by path; the methods of one path are together. -/
def routes : List (Pattern × List (Method × Endpoint)) :=
  [([.lit "raft", .param, .lit "append"], [(.post, .raftShard .append)]),
    ([.lit "raft", .param, .lit "vote"], [(.post, .raftShard .vote)]),
    ([.lit "raft", .param, .lit "snapshot"], [(.post, .raftShard .snapshot)]),
    ([.lit "raft", .lit "append"], [(.post, .raft .append)]),
    ([.lit "raft", .lit "vote"], [(.post, .raft .vote)]),
    ([.lit "raft", .lit "snapshot"], [(.post, .raft .snapshot)]),
    ([.lit "cluster", .param, .lit "write"], [(.post, .clusterShardWrite)]),
    ([.lit "cluster", .lit "write"], [(.post, .clusterWrite)]),
    ([.lit "cluster", .lit "status"], [(.get, .clusterStatus)]),
    ([.lit "cluster", .lit "init"], [(.post, .clusterInit)]),
    ([.lit "cluster", .lit "add-node"], [(.post, .clusterAddNode)]),
    ([.lit "cluster", .lit "remove-node"], [(.post, .clusterRemoveNode)]),
    ([.lit "cluster", .lit "leader"], [(.get, .clusterLeader)]),
    ([.lit "cluster", .lit "health"], [(.get, .clusterHealth)]),
    ([.lit "metrics"], [(.get, .prometheusMetrics)]),
    ([.lit "cluster", .lit "shards", .lit "create"], [(.post, .shardCreate)]),
    ([.lit "cluster", .lit "shards", .lit "route"],
      [(.post, .shardAddRoute), (.delete, .shardRemoveRoute)]),
    ([.lit "cluster", .lit "shards"], [(.get, .shardList)]),
    ([.lit "cluster", .lit "shards", .param, .lit "status"], [(.get, .shardStatus)])]

/-! ## Handlers -/

/-- What a handler only reads. -/
inductive View where
  | clusterStatus
  | clusterLeader
  | clusterHealth
  | prometheusMetrics
  | shardList
  | shardStatus (shardId : ShardId)
  deriving DecidableEq, Repr

/-- What a request leads to. -/
inductive Action (R : RaftTypes) where
  /-- axum answers by itself -/
  | reject (status : Nat)
  | reply (status : Nat) (text : String)
  | panic
  /-- an RPC for the group of a shard -/
  | rpc (shardId : ShardId) (k : RpcKind) (req : R.Req k)
  /-- `client_write` on the group of a shard -/
  | write (shardId : ShardId) (request : ReducerCallRequest)
  /-- `client_write` on shard 0 for a shard management request -/
  | propose (req : ShardRequest) (request : ReducerCallRequest)
  /-- `initialize` on shard 0 -/
  | init (members : NodeMap)
  | addNode (nodeId : NodeId) (addr : String)
  | removeNode (nodeId : NodeId)
  | view (v : View)

section Handlers

variable {R : RaftTypes} {α : Type} (X : Axum)

def withBody (w : Wire α) (r : Request) (handler : α → Action R) : Action R :=
  match X.json w.fromSlice r with
  | .ok a => handler a
  | .error status => .reject status

def withShardId (args : List (List Char)) (handler : ShardId → Action R) : Action R :=
  match X.pathU64 args with
  | .ok shardId => handler shardId
  | .error status => .reject status

/-- `get_shard_raft`. -/
def getShardRaft (pool : RaftPool) (shardId : ShardId) (handler : ShardId → Action R) : Action R :=
  match pool.getRaft shardId with
  | some raft => handler raft
  | none => .reply 404 ("shard " ++ toString shardId ++ " not found")

/-- `get_raft(0).expect("shard 0 must exist")`. -/
def expectShard0 (pool : RaftPool) (handler : ShardId → Action R) : Action R :=
  match pool.getRaft 0 with
  | some raft => handler raft
  | none => .panic

variable (A : ApiJson R) (J : CommandJson) (nodeId : NodeId) (pool : RaftPool)

/-- `raft_shard_append`, `raft_shard_vote` and `raft_shard_snapshot`. -/
def raftShardRpc (k : RpcKind) (args : List (List Char)) (r : Request) : Action R :=
  withShardId X args fun shardId => withBody X (A.rpc k) r fun req =>
    getShardRaft pool shardId fun raft => .rpc raft k req

/-- `raft_append`, `raft_vote` and `raft_snapshot`. -/
def raftRpc (k : RpcKind) (r : Request) : Action R :=
  withBody X (A.rpc k) r fun req => expectShard0 pool fun raft => .rpc raft k req

def clusterShardWrite (args : List (List Char)) (r : Request) : Action R :=
  withShardId X args fun shardId => withBody X A.write r fun req =>
    getShardRaft pool shardId fun raft => .write raft req

def clusterWrite (r : Request) : Action R :=
  withBody X A.write r fun req => expectShard0 pool fun raft => .write raft req

def clusterInit (r : Request) : Action R :=
  withBody X A.members r fun members => expectShard0 pool fun _ => .init members

/-- `shard_create`, `shard_add_route` and `shard_remove_route` once their body is read. -/
def shardRequest (req : ShardRequest) : Action R :=
  match req.rejection? with
  | some (status, text) => .reply status text
  | none => expectShard0 pool fun _ => .propose req ⟨encodeShardConfig J req.command, nodeId⟩

def handle (e : Endpoint) (args : List (List Char)) (r : Request) : Action R :=
  match e with
  | .raftShard k => raftShardRpc X A pool k args r
  | .raft k => raftRpc X A pool k r
  | .clusterShardWrite => clusterShardWrite X A pool args r
  | .clusterWrite => clusterWrite X A pool r
  | .clusterStatus => expectShard0 pool fun _ => .view .clusterStatus
  | .clusterInit => clusterInit X A pool r
  | .clusterAddNode => withBody X A.addNode r fun req => .addNode req.nodeId req.addr
  | .clusterRemoveNode => withBody X A.removeNode r fun nodeId => .removeNode nodeId
  | .clusterLeader => expectShard0 pool fun _ => .view .clusterLeader
  | .clusterHealth => expectShard0 pool fun _ => .view .clusterHealth
  | .prometheusMetrics => .view .prometheusMetrics
  | .shardCreate => withBody X A.createShard r fun s => shardRequest J nodeId pool (.create s)
  | .shardAddRoute => withBody X A.addRoute r fun p => shardRequest J nodeId pool (.addRoute p.1 p.2)
  | .shardRemoveRoute => withBody X A.removeRoute r fun name =>
      shardRequest J nodeId pool (.removeRoute name)
  | .shardList => .view .shardList
  | .shardStatus => withShardId X args fun s => getShardRaft pool s fun raft => .view (.shardStatus raft)

/-- What a request leads to. -/
def dispatch (r : Request) : Action R :=
  match X.route routes r.method r.path with
  | .error status => .reject status
  | .ok (args, e) => handle X A J nodeId pool e args r

end Handlers

/-! ## Which endpoint a path leads to -/

/-- The path of an endpoint. -/
def Endpoint.pattern : Endpoint → Pattern
  | .raftShard k => [.lit "raft", .param, .lit k.name]
  | .raft k => [.lit "raft", .lit k.name]
  | .clusterShardWrite => [.lit "cluster", .param, .lit "write"]
  | .clusterWrite => [.lit "cluster", .lit "write"]
  | .clusterStatus => [.lit "cluster", .lit "status"]
  | .clusterInit => [.lit "cluster", .lit "init"]
  | .clusterAddNode => [.lit "cluster", .lit "add-node"]
  | .clusterRemoveNode => [.lit "cluster", .lit "remove-node"]
  | .clusterLeader => [.lit "cluster", .lit "leader"]
  | .clusterHealth => [.lit "cluster", .lit "health"]
  | .prometheusMetrics => [.lit "metrics"]
  | .shardCreate => [.lit "cluster", .lit "shards", .lit "create"]
  | .shardAddRoute | .shardRemoveRoute => [.lit "cluster", .lit "shards", .lit "route"]
  | .shardList => [.lit "cluster", .lit "shards"]
  | .shardStatus => [.lit "cluster", .lit "shards", .param, .lit "status"]

def Endpoint.method : Endpoint → Method
  | .clusterStatus | .clusterLeader | .clusterHealth | .prometheusMetrics | .shardList | .shardStatus => .get
  | .shardRemoveRoute => .delete
  | _ => .post

/-- No path matches two patterns of the table. -/
theorem routes_pairwise :
    routes.Pairwise fun e e' => Routing.compatible e.1 e'.1 = false := by
  decide

/-- An endpoint is served at its own path and method only. -/
theorem endpoint_of_mem {pattern : Pattern} {methods : List (Method × Endpoint)} {method : Method}
    {e : Endpoint} (hmem : (pattern, methods) ∈ routes) (h : endpointFor methods method = some e) :
    pattern = e.pattern ∧ (method = e.method ∨ method = .head ∧ e.method = .get) := by
  have hall : ∀ entry ∈ routes, ∀ m ∈ [Method.get, .head, .post, .delete, .other],
      ∀ e ∈ endpointFor entry.2 m,
      entry.1 = e.pattern ∧ (m = e.method ∨ m = .head ∧ e.method = .get) := by
    decide
  exact hall _ hmem method (by cases method <;> decide) e h

theorem exists_route (e : Endpoint) :
    ∃ methods, (e.pattern, methods) ∈ routes ∧ methods.lookup e.method = some e := by
  have hany : (routes.any fun entry =>
      entry.1 = e.pattern ∧ entry.2.lookup e.method = some e) = true := by
    cases e with
    | raftShard k | raft k => cases k <;> decide
    | _ => decide
  obtain ⟨⟨pattern, methods⟩, hmem, hentry⟩ := List.any_eq_true.mp hany
  obtain ⟨rfl, hlookup⟩ := of_decide_eq_true hentry
  exact ⟨methods, hmem, hlookup⟩

section Dispatch

variable {X : Axum} {R : RaftTypes} {A : ApiJson R} {J : CommandJson} {nodeId : NodeId}
  {pool : RaftPool} {r : Request}

/-- A request at an endpoint's path with its method is handled there. -/
theorem dispatch_eq_handle {e : Endpoint} {segs args : List (List Char)}
    (hsegs : segments r.path = some segs) (hmatch : match? e.pattern segs = some args)
    (hargs : [] ∉ args) (hmethod : r.method = e.method) :
    dispatch X A J nodeId pool r = handle X A J nodeId pool e args r := by
  obtain ⟨methods, hmem, hlookup⟩ := exists_route e
  have honly := Routing.only_of_pairwise routes_pairwise hmem (by rw [hmatch]; rfl)
  have hroute := X.route_only hsegs hmem hmatch hargs honly hlookup
  simp only [dispatch, hmethod, hroute]

/-- **Inversion**: axum answers by itself, or the request is at the path of an endpoint that handles
it. -/
theorem dispatch_cases (X : Axum) (A : ApiJson R) (J : CommandJson) (nodeId : NodeId)
    (pool : RaftPool) (r : Request) :
    (∃ status, dispatch X A J nodeId pool r = .reject status) ∨
    ∃ e segs args, segments r.path = some segs ∧ match? e.pattern segs = some args ∧
      (r.method = e.method ∨ r.method = .head ∧ e.method = .get) ∧
      dispatch X A J nodeId pool r = handle X A J nodeId pool e args r := by
  cases hroute : X.route routes r.method r.path with
  | error status => exact Or.inl ⟨status, by simp only [dispatch, hroute]⟩
  | ok found =>
    obtain ⟨args, e⟩ := found
    obtain ⟨segs, pattern, methods, hsegs, hmem, hmatch, hfor⟩ := X.route_sound hroute
    obtain ⟨rfl, hmethod⟩ := endpoint_of_mem hmem hfor
    exact Or.inr ⟨e, segs, args, hsegs, hmatch, hmethod, by simp only [dispatch, hroute]⟩

/-! ## Rules for handlers -/

/-- A property of actions that the answers made without a call have. -/
structure OwnAnswers (P : Action R → Prop) : Prop where
  reject : ∀ status, P (.reject status)
  reply : ∀ status text, P (.reply status text)

section Rules

variable {P : Action R → Prop}

theorem withBody_rule (hP : OwnAnswers P) {α : Type} {w : Wire α} {handler : α → Action R}
    (h : ∀ body, X.json w.fromSlice r = .ok body → P (handler body)) :
    P (withBody X w r handler) := by
  unfold withBody
  split
  · rename_i body hbody
    exact h body hbody
  · exact hP.reject _

theorem withShardId_rule (hP : OwnAnswers P) {args : List (List Char)} {handler : ShardId → Action R}
    (h : ∀ s, X.pathU64 args = .ok s → P (handler s)) : P (withShardId X args handler) := by
  unfold withShardId
  split
  · rename_i s hs
    exact h s hs
  · exact hP.reject _

theorem getShardRaft_eq (s : ShardId) (handler : ShardId → Action R) :
    getShardRaft pool s handler =
      if s ∈ pool.shards then handler s else .reply 404 ("shard " ++ toString s ++ " not found") := by
  unfold getShardRaft RaftPool.getRaft
  by_cases h : s ∈ pool.shards <;> simp [h]

theorem getShardRaft_rule (hP : OwnAnswers P) {s : ShardId} {handler : ShardId → Action R}
    (h : s ∈ pool.shards → P (handler s)) : P (getShardRaft pool s handler) := by
  rw [getShardRaft_eq]
  split
  · rename_i hs
    exact h hs
  · exact hP.reply _ _

theorem expectShard0_eq (h0 : 0 ∈ pool.shards) (handler : ShardId → Action R) :
    expectShard0 pool handler = handler 0 := by
  simp [expectShard0, RaftPool.getRaft, h0]

theorem shardRequest_rule (hP : OwnAnswers P) (h0 : 0 ∈ pool.shards) {req : ShardRequest}
    (h : P (.propose req ⟨encodeShardConfig J req.command, nodeId⟩)) :
    P (shardRequest J nodeId pool req) := by
  unfold shardRequest
  split
  · exact hP.reply _ _
  · rwa [expectShard0_eq h0]

end Rules

/-- With shard 0 in the pool no handler panics. -/
theorem handle_ne_panic (h0 : 0 ∈ pool.shards) (e : Endpoint) (args : List (List Char)) :
    handle X A J nodeId pool e args r ≠ .panic := by
  have hP : OwnAnswers (R := R) (· ≠ .panic) := ⟨fun _ h => (nomatch h), fun _ _ h => nomatch h⟩
  cases e with
  | raftShard k | clusterShardWrite =>
    exact withShardId_rule hP fun s _ => withBody_rule hP fun req _ =>
      getShardRaft_rule hP fun _ h => nomatch h
  | raft k | clusterWrite | clusterInit =>
    refine withBody_rule hP fun body _ => ?_
    rw [expectShard0_eq h0]
    exact fun h => nomatch h
  | clusterStatus | clusterLeader | clusterHealth =>
    rw [handle, expectShard0_eq h0]
    exact fun h => nomatch h
  | clusterAddNode | clusterRemoveNode => exact withBody_rule hP fun body _ h => nomatch h
  | prometheusMetrics | shardList => exact fun h => nomatch h
  | shardCreate | shardAddRoute | shardRemoveRoute =>
    exact withBody_rule hP fun body _ => shardRequest_rule hP h0 fun h => nomatch h
  | shardStatus => exact withShardId_rule hP fun s _ => getShardRaft_rule hP fun _ h => nomatch h

/-- A call on a Raft group for another node. -/
inductive Call (R : RaftTypes) where
  | rpc (k : RpcKind) (req : R.Req k)
  | write (request : ReducerCallRequest)

def Call.action (s : ShardId) : Call R → Action R
  | .rpc k req => .rpc s k req
  | .write request => .write s request

/-- First and last segment of the path of a call. -/
def Call.names : Call R → String × String
  | .rpc k _ => ("raft", k.name)
  | .write _ => ("cluster", "write")

/-- The request carries a JSON body, not above the limit, that reads as this. -/
structure Carries (X : Axum) {α : Type} (w : Wire α) (r : Request) (a : α) : Prop where
  json : r.json = true
  length : r.body.length ≤ X.bodyLimit
  reads : w.fromSlice r.body = .ok a

theorem carries_iff {α : Type} {w : Wire α} {a : α} :
    Carries X w r a ↔ X.json w.fromSlice r = .ok a := by
  rw [X.json_ok]
  exact ⟨fun h => ⟨h.json, h.length, h.reads⟩, fun h => ⟨h.1, h.2.1, h.2.2⟩⟩

/-- The body of the request is the call's. -/
def Call.Carried (X : Axum) (A : ApiJson R) (r : Request) : Call R → Prop
  | .rpc k req => Carries X (A.rpc k) r req
  | .write request => Carries X A.write r request

def Call.endpoint : Call R → Endpoint
  | .rpc k _ => .raftShard k
  | .write _ => .clusterShardWrite

/-- The endpoint without a shard. -/
def Call.legacyEndpoint : Call R → Endpoint
  | .rpc k _ => .raft k
  | .write _ => .clusterWrite

/-- The actions that hand a call to a group for another node. -/
def Action.isCall : Action R → Bool
  | .rpc _ _ _ | .write _ _ => true
  | _ => false

theorem Call.ne_action {a : Action R} (h : a.isCall = false) (call : Call R) (s : ShardId) :
    a ≠ call.action s := by
  rintro rfl
  cases call <;> cases h

/-- Only the endpoints of a call hand it over, with the body of the request. -/
theorem call_of_handle (h0 : 0 ∈ pool.shards) {e : Endpoint} {args : List (List Char)} {s : ShardId}
    {call : Call R} :
    handle X A J nodeId pool e args r = call.action s →
      call.Carried X A r ∧ s ∈ pool.shards ∧
        (e = call.endpoint ∧ X.pathU64 args = .ok s ∨ e = call.legacyEndpoint ∧ s = 0) := by
  have hother : ∀ {a : Action R} {Q : Prop}, a.isCall = false → a = call.action s → Q :=
    fun hcall h => absurd h (call.ne_action hcall s)
  have hP : ∀ {Q : Prop}, OwnAnswers (R := R) (fun a => a = call.action s → Q) :=
    ⟨fun _ => hother rfl, fun _ _ => hother rfl⟩
  cases e with
  | raftShard k =>
    refine withShardId_rule hP fun s' hid => withBody_rule hP fun req hbody =>
      getShardRaft_rule hP fun hs hcall => ?_
    cases call with
    | rpc k' req' =>
      cases hcall
      exact ⟨carries_iff.mpr hbody, hs, Or.inl ⟨rfl, hid⟩⟩
    | write request => cases hcall
  | clusterShardWrite =>
    refine withShardId_rule hP fun s' hid => withBody_rule hP fun req hbody =>
      getShardRaft_rule hP fun hs hcall => ?_
    cases call with
    | rpc k req' => cases hcall
    | write request =>
      cases hcall
      exact ⟨carries_iff.mpr hbody, hs, Or.inl ⟨rfl, hid⟩⟩
  | raft k =>
    refine withBody_rule hP fun req hbody => ?_
    rw [expectShard0_eq h0]
    intro hcall
    cases call with
    | rpc k' req' =>
      cases hcall
      exact ⟨carries_iff.mpr hbody, h0, Or.inr ⟨rfl, rfl⟩⟩
    | write request => cases hcall
  | clusterWrite =>
    refine withBody_rule hP fun req hbody => ?_
    rw [expectShard0_eq h0]
    intro hcall
    cases call with
    | rpc k req' => cases hcall
    | write request =>
      cases hcall
      exact ⟨carries_iff.mpr hbody, h0, Or.inr ⟨rfl, rfl⟩⟩
  | clusterInit =>
    refine withBody_rule hP fun members _ => ?_
    rw [expectShard0_eq h0]
    exact hother rfl
  | clusterAddNode | clusterRemoveNode => exact withBody_rule hP fun body _ => hother rfl
  | clusterStatus | clusterLeader | clusterHealth =>
    rw [handle, expectShard0_eq h0]
    exact hother rfl
  | prometheusMetrics | shardList => exact hother rfl
  | shardCreate | shardAddRoute | shardRemoveRoute =>
    exact withBody_rule hP fun body _ => shardRequest_rule hP h0 (hother rfl)
  | shardStatus => exact withShardId_rule hP fun s' _ => getShardRaft_rule hP fun _ => hother rfl

section Carried

variable {call : Call R} (hbody : call.Carried X A r)

include hbody

theorem handle_endpoint {args : List (List Char)} {s : ShardId} (hid : X.pathU64 args = .ok s) :
    handle X A J nodeId pool call.endpoint args r =
      if s ∈ pool.shards then call.action s
      else .reply 404 ("shard " ++ toString s ++ " not found") := by
  cases call with
  | rpc k req =>
    have hbody : X.json (A.rpc k).fromSlice r = .ok req := carries_iff.mp hbody
    simp only [Call.endpoint, handle, raftShardRpc, withShardId, hid, withBody, hbody,
      getShardRaft_eq]
    rfl
  | write request =>
    have hbody : X.json A.write.fromSlice r = .ok request := carries_iff.mp hbody
    simp only [Call.endpoint, handle, clusterShardWrite, withShardId, hid, withBody, hbody,
      getShardRaft_eq]
    rfl

theorem handle_legacyEndpoint (h0 : 0 ∈ pool.shards) (args : List (List Char)) :
    handle X A J nodeId pool call.legacyEndpoint args r = call.action 0 := by
  cases call with
  | rpc k req =>
    have hbody : X.json (A.rpc k).fromSlice r = .ok req := carries_iff.mp hbody
    simp only [Call.legacyEndpoint, handle, raftRpc, withBody, hbody, expectShard0_eq h0]
    rfl
  | write request =>
    have hbody : X.json A.write.fromSlice r = .ok request := carries_iff.mp hbody
    simp only [Call.legacyEndpoint, handle, clusterWrite, withBody, hbody, expectShard0_eq h0]
    rfl

end Carried

section TooLarge

variable (hjson : r.json = true) (hlarge : X.bodyLimit < r.body.length)

include hjson hlarge

/-- A handler that reads a body is not reached by one above the limit. -/
theorem withBody_tooLarge {α : Type} (w : Wire α) (handler : α → Action R) :
    withBody X w r handler = .reject 413 := by
  simp only [withBody, X.json_tooLarge hjson hlarge]

theorem handle_endpoint_tooLarge (call : Call R) {args : List (List Char)} {s : ShardId}
    (hid : X.pathU64 args = .ok s) :
    handle X A J nodeId pool call.endpoint args r = .reject 413 := by
  cases call with
  | rpc k req =>
    simp only [Call.endpoint, handle, raftShardRpc, withShardId, hid, withBody_tooLarge hjson hlarge]
  | write request =>
    simp only [Call.endpoint, handle, clusterShardWrite, withShardId, hid,
      withBody_tooLarge hjson hlarge]

theorem handle_legacyEndpoint_tooLarge (call : Call R) (args : List (List Char)) :
    handle X A J nodeId pool call.legacyEndpoint args r = .reject 413 := by
  cases call with
  | rpc k req => simp only [Call.legacyEndpoint, handle, raftRpc, withBody_tooLarge hjson hlarge]
  | write request =>
    simp only [Call.legacyEndpoint, handle, clusterWrite, withBody_tooLarge hjson hlarge]

end TooLarge

/-! ## Main results -/

/-- The path of a call on a shard: with the shard's number between its names, or without it for
shard 0. -/
def Call.Addressed (X : Axum) (call : Call R) (path : List Char) (s : ShardId) : Prop :=
  (∃ text, segments path = some [call.names.1.toList, text, call.names.2.toList] ∧
    (X.decode text).bind parseU64 = some s) ∨
  segments path = some [call.names.1.toList, call.names.2.toList] ∧ s = 0

theorem match?_endpoint {call : Call R} {segs args : List (List Char)} :
    match? call.endpoint.pattern segs = some args ↔
      ∃ text, segs = [call.names.1.toList, text, call.names.2.toList] ∧ args = [text] := by
  have hpattern : call.endpoint.pattern = [.lit call.names.1, .param, .lit call.names.2] := by
    cases call <;> rfl
  rw [hpattern]
  constructor
  · intro h
    obtain ⟨_, rfl, hrest⟩ := match?_lit.mp h
    obtain ⟨text, _, _, rfl, rfl, hlast⟩ := match?_param.mp hrest
    obtain ⟨_, rfl, hend⟩ := match?_lit.mp hlast
    obtain ⟨rfl, rfl⟩ := match?_nil.mp hend
    exact ⟨text, rfl, rfl⟩
  · rintro ⟨text, rfl, rfl⟩
    simp [match?]

theorem match?_legacyEndpoint {call : Call R} {segs args : List (List Char)} :
    match? call.legacyEndpoint.pattern segs = some args ↔
      segs = [call.names.1.toList, call.names.2.toList] ∧ args = [] := by
  have hpattern : call.legacyEndpoint.pattern = [.lit call.names.1, .lit call.names.2] := by
    cases call <;> rfl
  rw [hpattern]
  constructor
  · intro h
    obtain ⟨_, rfl, hlast⟩ := match?_lit.mp h
    obtain ⟨_, rfl, hend⟩ := match?_lit.mp hlast
    obtain ⟨rfl, rfl⟩ := match?_nil.mp hend
    exact ⟨rfl, rfl⟩
  · rintro ⟨rfl, rfl⟩
    simp [match?]

/-- The text of a number is not empty. -/
theorem ne_nil_of_decode {text : List Char} {s : ShardId}
    (h : (X.decode text).bind parseU64 = some s) : text ≠ [] := by
  rintro rfl
  rw [X.decode_plain List.not_mem_nil] at h
  cases h

/-- A POST to the path of a call with its shard. -/
theorem dispatch_endpoint {s : ShardId} {call : Call R} {text : List Char} (hmethod : r.method = .post)
    (hsegs : segments r.path = some [call.names.1.toList, text, call.names.2.toList])
    (htext : (X.decode text).bind parseU64 = some s) :
    X.pathU64 [text] = .ok s ∧
      dispatch X A J nodeId pool r = handle X A J nodeId pool call.endpoint [text] r := by
  have hargs : [] ∉ [text] := by simpa using (ne_nil_of_decode htext).symm
  exact ⟨X.pathU64_ok.mpr htext, dispatch_eq_handle hsegs (match?_endpoint.mpr ⟨text, rfl, rfl⟩) hargs
    (by rw [hmethod]; cases call <;> rfl)⟩

/-- **A POST to the path of a call** is handled by one of its endpoints. -/
theorem dispatch_addressed {s : ShardId} {call : Call R} (hmethod : r.method = .post)
    (hpath : call.Addressed X r.path s) :
    (∃ args, X.pathU64 args = .ok s ∧
      dispatch X A J nodeId pool r = handle X A J nodeId pool call.endpoint args r) ∨
    s = 0 ∧ dispatch X A J nodeId pool r = handle X A J nodeId pool call.legacyEndpoint [] r := by
  rcases hpath with ⟨text, hsegs, htext⟩ | ⟨hsegs, rfl⟩
  · exact Or.inl ⟨[text], dispatch_endpoint hmethod hsegs htext⟩
  · exact Or.inr ⟨rfl, dispatch_eq_handle hsegs (match?_legacyEndpoint.mpr ⟨rfl, rfl⟩)
      List.not_mem_nil (by rw [hmethod]; cases call <;> rfl)⟩

theorem dispatch_call_iff (h0 : 0 ∈ pool.shards) {s : ShardId} {call : Call R} :
    dispatch X A J nodeId pool r = call.action s ↔
      r.method = .post ∧ call.Addressed X r.path s ∧ call.Carried X A r ∧ s ∈ pool.shards := by
  constructor
  · intro h
    rcases dispatch_cases X A J nodeId pool r with
      ⟨status, hreject⟩ | ⟨e, segs, args, hsegs, hmatch, hmethod, hhandle⟩
    · rw [hreject] at h
      cases call <;> cases h
    · obtain ⟨hbody, hs, hwhere⟩ := call_of_handle h0 (hhandle.symm.trans h)
      have hpost : e.method = .post := by
        rcases hwhere with ⟨rfl, -⟩ | ⟨rfl, -⟩ <;> cases call <;> rfl
      have hmethod : r.method = .post := by
        rcases hmethod with hmethod | ⟨-, hget⟩
        · rw [hmethod, hpost]
        · rw [hpost] at hget
          cases hget
      refine ⟨hmethod, ?_, hbody, hs⟩
      rcases hwhere with ⟨rfl, hid⟩ | ⟨rfl, hzero⟩
      · obtain ⟨text, rfl, rfl⟩ := match?_endpoint.mp hmatch
        exact Or.inl ⟨text, hsegs, X.pathU64_ok.mp hid⟩
      · obtain ⟨rfl, -⟩ := match?_legacyEndpoint.mp hmatch
        exact Or.inr ⟨hsegs, hzero⟩
  · rintro ⟨hmethod, hpath, hbody, hs⟩
    rcases dispatch_addressed hmethod hpath with ⟨args, hid, hhandle⟩ | ⟨rfl, hhandle⟩
    · rw [hhandle, handle_endpoint hbody hid, if_pos hs]
    · rw [hhandle, handle_legacyEndpoint hbody h0]

/-- A call with a body above the limit is answered by axum, whether its shard runs or not. -/
theorem dispatch_tooLarge {s : ShardId} {call : Call R} (hmethod : r.method = .post)
    (hpath : call.Addressed X r.path s) (hjson : r.json = true)
    (hlarge : X.bodyLimit < r.body.length) : dispatch X A J nodeId pool r = .reject 413 := by
  rcases dispatch_addressed hmethod hpath with ⟨args, hid, hhandle⟩ | ⟨rfl, hhandle⟩
  · rw [hhandle, handle_endpoint_tooLarge hjson hlarge call hid]
  · rw [hhandle, handle_legacyEndpoint_tooLarge hjson hlarge call]

/-- **The HTTP surface of a node.**  In every reachable state and for every request: no handler
panics; a call reaches the Raft group of a shard exactly when the request is a POST to the path of
that call and shard, its body is the call's and not above axum's limit, and the shard is running; so
none reaches the group of another shard; and a POST to such a path with a JSON body above the limit is
answered 413. -/
theorem http_surface {K : SnapshotCodec} {ls : List Node.Label} {w : Node.World}
    (hexec : Runs.exec (Node.step nodeId J K) Node.World.start ls = some w) (X : Axum)
    (A : ApiJson R) (r : Request) :
    dispatch X A J nodeId w.pool r ≠ .panic ∧
    (∀ (s : ShardId) (call : Call R), dispatch X A J nodeId w.pool r = call.action s ↔
      r.method = .post ∧ call.Addressed X r.path s ∧ call.Carried X A r ∧ s ∈ w.pool.shards) ∧
    ∀ (s : ShardId) (call : Call R), r.method = .post → call.Addressed X r.path s →
      r.json = true → X.bodyLimit < r.body.length → dispatch X A J nodeId w.pool r = .reject 413 := by
  have hpool : Node.PoolInv w :=
    Runs.exec_inv (fun _ _ _ hinv h => Node.pool_step hinv h) Node.PoolInv.start hexec
  refine ⟨?_, fun s call => dispatch_call_iff hpool.zero, fun s call => dispatch_tooLarge⟩
  rcases dispatch_cases X A J nodeId w.pool r with
    ⟨status, hreject⟩ | ⟨e, segs, args, -, -, -, hhandle⟩
  · rw [hreject]
    exact fun h => nomatch h
  · rw [hhandle]
    exact handle_ne_panic hpool.zero e args

end Dispatch

/-! ## The formats -/

def Wire.ofCodec {α : Type} (c : Codec α) : Wire α where
  toVec := c.toVec
  fromSlice bytes :=
    match c.fromSlice bytes with
    | some a => .ok a
    | none => .error 422
  roundtrip a := by rw [c.fromSlice_toVec]

/-- openraft's types, without the storage errors. -/
def raftTypes : RaftTypes where
  Req
    | .append => JsonFormats.AppendEntriesRequest
    | .vote => JsonFormats.VoteRequest
    | .snapshot => JsonFormats.InstallSnapshotRequest
  Resp
    | .append => JsonFormats.AppendEntriesResponse
    | .vote => JsonFormats.VoteResponse
    | .snapshot => JsonFormats.InstallSnapshotResponse
  Err _ := JsonFormats.FatalError

/-- What `serde_json` writes for the bodies of the API. -/
def apiJson : ApiJson raftTypes where
  rpc
    | .append => .ofCodec JsonFormats.appendEntriesRequest
    | .vote => .ofCodec JsonFormats.voteRequest
    | .snapshot => .ofCodec JsonFormats.installSnapshotRequest
  result
    | .append => .ofCodec (JsonFormats.result JsonFormats.appendEntriesResponse JsonFormats.fatalError)
    | .vote => .ofCodec (JsonFormats.result JsonFormats.voteResponse JsonFormats.fatalError)
    | .snapshot => .ofCodec (JsonFormats.result JsonFormats.installSnapshotResponse JsonFormats.fatalError)
  write := .ofCodec JsonFormats.request
  members := .ofCodec JsonFormats.nodes
  -- `json!` writes the keys in their order
  addNode := .ofCodec ((JsonFormats.object (JsonFormats.members (JsonFormats.field "addr" Codec.str)
    (JsonFormats.field "node_id" Codec.nat))).map (fun p => ⟨p.2, p.1⟩)
      (fun r => (r.addr, r.nodeId)) fun _ => rfl)
  removeNode := .ofCodec (JsonFormats.object (JsonFormats.field "node_id" Codec.nat))
  createShard := .ofCodec (JsonFormats.object (JsonFormats.field "shard_id" Codec.nat))
  addRoute := .ofCodec (JsonFormats.object (JsonFormats.members (JsonFormats.field "module_name" Codec.str)
    (JsonFormats.field "shard_id" Codec.nat)))
  removeRoute := .ofCodec (JsonFormats.object (JsonFormats.field "module_name" Codec.str))

/-- A forwarded write for shard 0, the number written with a leading zero. -/
def sampleWrite : Request :=
  ⟨.post, "/cluster/00/write".toList, true, JsonFormats.request.toVec ⟨[3, 7], 2⟩⟩

theorem sampleWrite_addressed :
    (.write ⟨[3, 7], 2⟩ : Call raftTypes).Addressed axum sampleWrite.path 0 := by
  refine Or.inl ⟨"00".toList, by decide, ?_⟩
  rw [axum.decode_plain (by decide)]
  decide

theorem sample_write_reaches_shard_zero :
    dispatch axum apiJson JsonFormats.commandJson 1 Node.World.start.pool sampleWrite ≠ .panic ∧
      dispatch axum apiJson JsonFormats.commandJson 1 Node.World.start.pool sampleWrite =
        .write 0 ⟨[3, 7], 2⟩ ∧
      dispatch axum apiJson JsonFormats.commandJson 1 Node.World.start.pool
        { sampleWrite with body := List.replicate 2097153 32 } = .reject 413 := by
  have hexec : Runs.exec (Node.step 1 JsonFormats.commandJson JsonFormats.snapshotJson)
      Node.World.start [] = some Node.World.start := rfl
  have hsurface := http_surface hexec axum apiJson
  refine ⟨(hsurface sampleWrite).1, ((hsurface sampleWrite).2.1 0 (.write ⟨[3, 7], 2⟩)).mpr
    ⟨rfl, sampleWrite_addressed, ⟨rfl, ?_, ?_⟩, ?_⟩, ?_⟩
  · decide +kernel
  · exact (Wire.ofCodec JsonFormats.request).roundtrip ⟨[3, 7], 2⟩
  · decide
  · refine (hsurface { sampleWrite with body := List.replicate 2097153 32 }).2.2 0
      (.write ⟨[3, 7], 2⟩) rfl sampleWrite_addressed rfl ?_
    rw [List.length_replicate]
    decide

end RaftTimeDB.Api
