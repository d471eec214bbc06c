import RaftTimeDB.Transport

/-!
# The command line client

`crates/cli/src/main.rs`: the request that a command of `rtdb` sends to a node, and what the API of
the node makes of it; and `deploy`, which runs `spacetime` and sends nothing to a node. The printing
of the answers is left out.

* A command goes to a base URL: its `--cluster` or `--addr`, or for `init` the address of the first
  node named.
* `init` reads the same `id=host:port` strings as `parse_peers`; it refuses what `parse_peers`
  skips.
* `json!` writes the keys of an object in their order, and the handlers read them in any: both are
  one `Wire`.

Principal results: `command_reaches_api` — in every reachable state of a node, a command with a base
URL `http(s)://host:port` leads to the action it is for; with a slash at the end of the base URL it
is answered 404, and with another scheme nothing is sent; `deploy_ok_iff` — `deploy` succeeds exactly
when every server was published to.
-/

set_option autoImplicit false

namespace RaftTimeDB.Cli

open Api Transport
open Routing (segments joinPath match? schemeOf PlainAuthority isPlainSegmentChar)
open ShardApi (ShardRequest)

variable {R : RaftTypes}

/-! ## Commands -/

/-- The commands that go to a node; `Deploy` is `deploy` below. -/
inductive Commands where
  | status (addr : String)
  | addNode (nodeId : NodeId) (addr : String) (cluster : String)
  | removeNode (nodeId : NodeId) (cluster : String)
  | init (nodes : List String)
  | createShard (shardId : ShardId) (cluster : String)
  | addRoute (moduleName : String) (shardId : ShardId) (cluster : String)
  | removeRoute (moduleName : String) (cluster : String)
  | listShards (addr : String)
  | shardStatus (shardId : ShardId) (addr : String)
  deriving DecidableEq, Repr

/-- A request as `reqwest` sends it; a body is JSON. -/
structure Sent where
  method : Method
  url : String
  body : Option Bytes
  deriving DecidableEq

/-- What arrives at the server, under the path of the URL. -/
def Sent.request (sent : Sent) (path : List Char) : Request :=
  ⟨sent.method, path, sent.body.isSome, sent.body.getD []⟩

/-- Which node the request arrives at. -/
def Sent.arrives (net : Net) (sent : Sent) : Option (NodeId × Request) :=
  (net.locate sent.url.toList).map fun target => (target.1, sent.request target.2)

/-- The loop of `init`: the members and the URL of the first node. -/
def parseNodes : List String → NodeMap → Option String → Except String (NodeMap × Option String)
  | [], members, firstAddr => .ok (members, firstAddr)
  | nodeSpec :: nodes, members, firstAddr =>
      match splitOnce '=' nodeSpec.toList with
      | none => .error ("Invalid node format '" ++ nodeSpec ++ "', expected 'id=host:port'")
      | some (idStr, addr) =>
          match parseU64 idStr with
          | none => .error ("Invalid node ID '" ++ String.ofList idStr ++ "'")
          | some id =>
              parseNodes nodes (members.insert id ⟨String.ofList addr⟩)
                (firstAddr.or (some ("http://" ++ String.ofList addr)))

/-- The request of a command, or the error before it. -/
def Commands.send (A : ApiJson R) : Commands → Except String Sent
  | .status addr => .ok ⟨.get, addr ++ "/cluster/status", none⟩
  | .addNode nodeId addr cluster =>
      .ok ⟨.post, cluster ++ "/cluster/add-node", some (A.addNode.toVec ⟨nodeId, addr⟩)⟩
  | .removeNode nodeId cluster =>
      .ok ⟨.post, cluster ++ "/cluster/remove-node", some (A.removeNode.toVec nodeId)⟩
  | .init nodes =>
      match parseNodes nodes ∅ none with
      | .error e => .error e
      | .ok (_, none) => .error "No nodes specified"
      | .ok (members, some target) =>
          .ok ⟨.post, target ++ "/cluster/init", some (A.members.toVec members)⟩
  | .createShard shardId cluster =>
      .ok ⟨.post, cluster ++ "/cluster/shards/create", some (A.createShard.toVec shardId)⟩
  | .addRoute moduleName shardId cluster =>
      .ok ⟨.post, cluster ++ "/cluster/shards/route", some (A.addRoute.toVec (moduleName, shardId))⟩
  | .removeRoute moduleName cluster =>
      .ok ⟨.delete, cluster ++ "/cluster/shards/route", some (A.removeRoute.toVec moduleName)⟩
  | .listShards addr => .ok ⟨.get, addr ++ "/cluster/shards", none⟩
  | .shardStatus shardId addr =>
      .ok ⟨.get, addr ++ "/cluster/shards/" ++ toString shardId ++ "/status", none⟩

/-! ## What a command is for -/

/-- The base URL of a command. -/
def Commands.base : Commands → String
  | .status addr => addr
  | .addNode _ _ cluster => cluster
  | .removeNode _ cluster => cluster
  | .init nodes => "http://" ++ ((nodes.head?.bind parsePeer).map fun peer => peer.2.addr).getD ""
  | .createShard _ cluster => cluster
  | .addRoute _ _ cluster => cluster
  | .removeRoute _ cluster => cluster
  | .listShards addr => addr
  | .shardStatus _ addr => addr

/-- `init` needs a node, and every node it is given has to be of the form `id=host:port`. -/
def Commands.Accepted : Commands → Prop
  | .init nodes => nodes ≠ [] ∧ ∀ nodeSpec ∈ nodes, (parsePeer nodeSpec).isSome = true
  | _ => True

/-- The numbers of a command are `u64`. -/
def Commands.InRange : Commands → Prop
  | .shardStatus shardId _ => shardId < 2 ^ 64
  | _ => True

/-- The action a command is for, on a node with this pool. -/
def Commands.action (J : CommandJson) (nodeId : NodeId) (pool : RaftPool) : Commands → Action R
  | .status _ => .view .clusterStatus
  | .addNode id addr _ => .addNode id addr
  | .removeNode id _ => .removeNode id
  | .init nodes => .init (parsePeers nodes)
  | .createShard shardId _ =>
      if shardId = 0 then .reply 400 "shard 0 always exists"
      else .propose (.create shardId) ⟨encodeShardConfig J (.createShard shardId), nodeId⟩
  | .addRoute moduleName shardId _ =>
      .propose (.addRoute moduleName shardId)
        ⟨encodeShardConfig J (.addRoute moduleName shardId), nodeId⟩
  | .removeRoute moduleName _ =>
      .propose (.removeRoute moduleName) ⟨encodeShardConfig J (.removeRoute moduleName), nodeId⟩
  | .listShards _ => .view .shardList
  | .shardStatus shardId _ =>
      if shardId ∈ pool.shards then .view (.shardStatus shardId) else .reply 404 (notFoundText shardId)

/-! ## Nodes of `init` -/

/-- `init` accepts exactly the strings of `parse_peers`, and what it makes of them is the same
map. -/
theorem parseNodes_eq (nodes : List String) (members : NodeMap) (firstAddr : Option String) :
    (∀ nodeSpec ∈ nodes, (parsePeer nodeSpec).isSome = true) ∧
      parseNodes nodes members firstAddr =
        .ok (nodes.foldl (fun map peer =>
            match parsePeer peer with
            | some (id, node) => map.insert id node
            | none => map) members,
          firstAddr.or ((nodes.head?.bind parsePeer).map fun peer => "http://" ++ peer.2.addr)) ∨
    (∃ nodeSpec ∈ nodes, parsePeer nodeSpec = none) ∧
      ∃ e, parseNodes nodes members firstAddr = .error e := by
  induction nodes generalizing members firstAddr with
  | nil => exact .inl ⟨fun _ h => (by cases h), by simp [parseNodes]⟩
  | cons nodeSpec nodes ih =>
    cases hsplit : splitOnce '=' nodeSpec.toList with
    | none =>
      have hpeer : parsePeer nodeSpec = none := by simp only [parsePeer, hsplit]
      exact .inr ⟨⟨nodeSpec, List.mem_cons_self, hpeer⟩, _, by simp only [parseNodes, hsplit]; rfl⟩
    | some parts =>
      obtain ⟨idStr, addr⟩ := parts
      cases hid : parseU64 idStr with
      | none =>
        have hpeer : parsePeer nodeSpec = none := by
          simp only [parsePeer, hsplit, hid, Option.map_none]
        exact .inr ⟨⟨nodeSpec, List.mem_cons_self, hpeer⟩, _,
          by simp only [parseNodes, hsplit, hid]; rfl⟩
      | some id =>
        have hpeer : parsePeer nodeSpec = some (id, ⟨String.ofList addr⟩) := by
          simp only [parsePeer, hsplit, hid, Option.map_some]
        rcases ih (members.insert id ⟨String.ofList addr⟩)
          (firstAddr.or (some ("http://" ++ String.ofList addr))) with
          ⟨hall, hok⟩ | ⟨⟨bad, hbad, hnone⟩, e, he⟩
        · refine .inl ⟨?_, ?_⟩
          · intro spec hspec
            rcases List.mem_cons.mp hspec with rfl | hrest
            · rw [hpeer]; rfl
            · exact hall spec hrest
          · simp only [parseNodes, hsplit, hid, hok, List.foldl_cons, hpeer, List.head?_cons,
              Option.bind_some, Option.map_some]
            cases firstAddr <;> simp
        · refine .inr ⟨⟨bad, List.mem_cons_of_mem _ hbad, hnone⟩, e, ?_⟩
          simp only [parseNodes, hsplit, hid, he]

/-- What `init` sends, and when it sends anything. -/
theorem init_send (A : ApiJson R) (nodes : List String) :
    (Commands.init nodes).Accepted ∧
      (Commands.init nodes).send A = .ok ⟨.post, (Commands.init nodes).base ++ "/cluster/init",
        some (A.members.toVec (parsePeers nodes))⟩ ∨
    ¬ (Commands.init nodes).Accepted ∧ ∃ e, (Commands.init nodes).send A = .error e := by
  rcases parseNodes_eq nodes ∅ none with ⟨hall, hok⟩ | ⟨⟨bad, hbad, hnone⟩, e, he⟩
  · cases nodes with
    | nil => exact .inr ⟨fun h => h.1 rfl, _, by simp [Commands.send, hok]; rfl⟩
    | cons nodeSpec nodes =>
      obtain ⟨⟨id, node⟩, hpeer⟩ := Option.isSome_iff_exists.mp (hall nodeSpec List.mem_cons_self)
      refine .inl ⟨⟨List.cons_ne_nil _ _, hall⟩, ?_⟩
      simp only [Commands.send, hok, Commands.base, List.head?_cons, Option.bind_some, hpeer,
        Option.map_some, Option.none_or, Option.getD_some]
      rfl
  · refine .inr ⟨fun h => ?_, e, by simp only [Commands.send, he]⟩
    have hsome := h.2 bad hbad
    rw [hnone] at hsome
    cases hsome

/-! ## Requests -/

def Commands.endpoint : Commands → Endpoint
  | .status _ => .clusterStatus
  | .addNode _ _ _ => .clusterAddNode
  | .removeNode _ _ => .clusterRemoveNode
  | .init _ => .clusterInit
  | .createShard _ _ => .shardCreate
  | .addRoute _ _ _ => .shardAddRoute
  | .removeRoute _ _ => .shardRemoveRoute
  | .listShards _ => .shardList
  | .shardStatus _ _ => .shardStatus

/-- The segments of the path. -/
def Commands.segs : Commands → List (List Char)
  | .status _ => ["cluster".toList, "status".toList]
  | .addNode _ _ _ => ["cluster".toList, "add-node".toList]
  | .removeNode _ _ => ["cluster".toList, "remove-node".toList]
  | .init _ => ["cluster".toList, "init".toList]
  | .createShard _ _ => ["cluster".toList, "shards".toList, "create".toList]
  | .addRoute _ _ _ => ["cluster".toList, "shards".toList, "route".toList]
  | .removeRoute _ _ => ["cluster".toList, "shards".toList, "route".toList]
  | .listShards _ => ["cluster".toList, "shards".toList]
  | .shardStatus shardId _ =>
      ["cluster".toList, "shards".toList, Nat.toDigits 10 shardId, "status".toList]

def Commands.args : Commands → List (List Char)
  | .shardStatus shardId _ => [Nat.toDigits 10 shardId]
  | _ => []

section

variable {X : Axum} {A : ApiJson R} {J : CommandJson} {nodeId : NodeId} {pool : RaftPool}
  {cmd : Commands} {sent : Sent}

theorem segs_plain (cmd : Commands) : ∀ seg ∈ cmd.segs, seg.all isPlainSegmentChar = true := by
  cases cmd with
  | shardStatus shardId addr =>
    have hlits : ∀ seg ∈ ["cluster".toList, "shards".toList, "status".toList],
        seg.all isPlainSegmentChar = true := by
      decide
    intro seg hseg
    simp only [Commands.segs, List.mem_cons, List.not_mem_nil, or_false] at hseg
    rcases hseg with rfl | rfl | rfl | rfl
    · exact hlits _ (by simp)
    · exact hlits _ (by simp)
    · exact plain_toDigits shardId
    · exact hlits _ (by simp)
  | _ =>
    simp only [Commands.segs]
    decide

theorem segments_segs (cmd : Commands) : segments (joinPath cmd.segs) = some cmd.segs := by
  have hne : cmd.segs ≠ [] := by cases cmd <;> exact List.cons_ne_nil _ _
  exact Routing.segments_join hne fun seg hseg =>
    Routing.slash_notMem_of_plain (segs_plain cmd seg hseg)

theorem match?_segs (cmd : Commands) : match? cmd.endpoint.pattern cmd.segs = some cmd.args := by
  cases cmd <;> simp [Commands.endpoint, Endpoint.pattern, Commands.segs, Commands.args, match?]

theorem nil_notMem_args (cmd : Commands) : [] ∉ cmd.args := by
  cases cmd with
  | shardStatus shardId addr =>
    simp [Commands.args]
  | _ => exact List.not_mem_nil

/-- The URL of a command is its base followed by its path. -/
theorem send_url (h : cmd.send A = .ok sent) :
    sent.method = cmd.endpoint.method ∧ sent.url.toList = cmd.base.toList ++ joinPath cmd.segs := by
  cases cmd with
  | init nodes =>
    rcases init_send A nodes with ⟨-, hsend⟩ | ⟨-, e, hsend⟩
    · rw [hsend] at h
      cases h
      exact ⟨rfl, by simp [Commands.segs, joinPath, List.intercalate, List.intersperse]⟩
    · rw [hsend] at h
      cases h
  | _ =>
    cases h
    exact ⟨rfl, by simp [Commands.base, Commands.segs, joinPath, List.intercalate, List.intersperse]⟩

/-- **The handler reads the command back**, unless its body is too large for axum. -/
theorem handle_command (h0 : 0 ∈ pool.shards) (hrange : cmd.InRange) (h : cmd.send A = .ok sent)
    (path : List Char) :
    handle X A J nodeId pool cmd.endpoint cmd.args (sent.request path) =
      if (sent.body.getD []).length ≤ X.bodyLimit then cmd.action J nodeId pool
      else .reject 413 := by
  have hread : ∀ {α : Type} (v : Wire α) (method : Method) (url : String) (a : α)
      (handler : α → Action R), withBody X v ((Sent.mk method url (some (v.toVec a))).request path)
        handler = if (v.toVec a).length ≤ X.bodyLimit then handler a else .reject 413 := by
    intro α v method url a handler
    by_cases hlength : (v.toVec a).length ≤ X.bodyLimit
    · have hjson : X.json v.fromSlice ((Sent.mk method url (some (v.toVec a))).request path) = .ok a :=
        X.json_ok.mpr ⟨rfl, hlength, v.roundtrip a⟩
      simp only [withBody, hjson, if_pos hlength]
    · rw [if_neg hlength]
      exact withBody_tooLarge rfl (Nat.lt_of_not_le hlength) v handler
  have hempty : ([] : Bytes).length ≤ X.bodyLimit := Nat.zero_le _
  cases cmd with
  | status addr | listShards addr =>
    cases h
    simp [Commands.endpoint, handle, expectShard0_eq h0, Commands.action]
  | addNode id addr cluster | removeNode id cluster =>
    cases h
    simp only [Commands.endpoint, handle, hread, Commands.action, Option.getD_some]
  | init nodes =>
    rcases init_send A nodes with ⟨-, hsend⟩ | ⟨-, e, hsend⟩
    · rw [hsend] at h
      cases h
      simp only [Commands.endpoint, handle, clusterInit, hread, expectShard0_eq h0, Commands.action,
        Option.getD_some]
    · rw [hsend] at h
      cases h
  | createShard shardId cluster =>
    cases h
    simp only [Commands.endpoint, handle, hread, shardRequest, ShardRequest.rejection?,
      Commands.action, Option.getD_some]
    by_cases hzero : shardId = 0
    · simp [hzero]
    · simp [hzero, expectShard0_eq h0, ShardRequest.command]
  | addRoute moduleName shardId cluster | removeRoute moduleName cluster =>
    cases h
    simp only [Commands.endpoint, handle, hread, shardRequest, ShardRequest.rejection?,
      expectShard0_eq h0, ShardRequest.command, Commands.action, Option.getD_some]
  | shardStatus shardId addr =>
    cases h
    have hid : X.pathU64 [Nat.toDigits 10 shardId] = .ok shardId :=
      X.pathU64_ok.mpr (decode_toDigits X hrange)
    simp only [Commands.endpoint, Commands.args, handle, withShardId, hid, getShardRaft_eq,
      Commands.action, Option.getD_none, if_pos hempty]
    rfl

/-- No route starts with an empty segment. -/
theorem match?_empty_segment (segs : List (List Char)) :
    ∀ entry ∈ routes, match? entry.1 ([] :: segs) = none := by
  have hnamed : (routes.all fun entry => Routing.startsNamed entry.1) = true := by decide
  intro entry hentry
  exact Routing.match?_of_startsNamed (List.all_eq_true.mp hnamed entry hentry) segs

theorem slash_joinPath (cmd : Commands) :
    ['/'] ++ joinPath cmd.segs = joinPath ([] :: cmd.segs) := by
  cases cmd <;> rfl

theorem slash_segs_plain (cmd : Commands) :
    ∀ seg ∈ [] :: cmd.segs, seg.all isPlainSegmentChar = true := by
  intro seg hseg
  rcases List.mem_cons.mp hseg with rfl | hrest
  · rfl
  · exact segs_plain cmd seg hrest

/-- **With one more slash** at the end of its base URL, a command is not found. -/
theorem dispatch_slash (sent : Sent) (cmd : Commands) :
    dispatch X A J nodeId pool (sent.request (joinPath ([] :: cmd.segs))) = .reject 404 := by
  have hsegs : segments (joinPath ([] :: cmd.segs)) = some ([] :: cmd.segs) :=
    Routing.segments_join (List.cons_ne_nil _ _) fun seg hseg =>
      Routing.slash_notMem_of_plain (slash_segs_plain cmd seg hseg)
  have hroute : X.route routes sent.method (joinPath ([] :: cmd.segs)) = .error 404 := by
    refine X.route_missing sent.method fun segs hsome entry hentry => ?_
    rw [hsegs] at hsome
    cases hsome
    exact match?_empty_segment cmd.segs entry hentry
  simp only [dispatch, Sent.request, hroute]

/-- What a plain URL with these segments leads to. -/
theorem arrives_of_url (net : Net) {useTls : Bool} {authority : List Char} {segs : List (List Char)}
    (hauthority : PlainAuthority authority)
    (hplain : ∀ seg ∈ segs, seg.all isPlainSegmentChar = true)
    (hurl : sent.url.toList =
      (httpScheme useTls).toList ++ "://".toList ++ authority ++ joinPath segs) :
    sent.arrives net =
      (net.host useTls authority).map fun n => (n, sent.request (joinPath segs)) := by
  rw [Sent.arrives, hurl, joinPath,
    net.locate_plain useTls hauthority (Routing.isPlainPathChar_joinPath hplain), Option.map_map]
  rfl

/-- **A command reaches the API.**  On a node in any reachable state: a request is made exactly when
the command is accepted.  With a base URL `http(s)://host:port` it arrives there, and the server does
what the command is for, unless the body is above axum's limit; with one more slash at the end of the
base URL, it is answered 404; and with another scheme, nothing is sent. -/
theorem command_reaches_api {K : SnapshotCodec} {ls : List Node.Label} {w : Node.World}
    (hexec : Runs.exec (Node.step nodeId J K) Node.World.start ls = some w) (X : Axum)
    (A : ApiJson R) (net : Net) {cmd : Commands} (hrange : cmd.InRange) :
    (cmd.Accepted ↔ ∃ sent, cmd.send A = .ok sent) ∧
    ∀ sent, cmd.send A = .ok sent →
      (∀ (useTls : Bool) (authority : List Char), PlainAuthority authority →
        (cmd.base.toList = (httpScheme useTls).toList ++ "://".toList ++ authority →
          sent.arrives net =
            (net.host useTls authority).map (fun n => (n, sent.request (joinPath cmd.segs))) ∧
          dispatch X A J nodeId w.pool (sent.request (joinPath cmd.segs)) =
            if (sent.body.getD []).length ≤ X.bodyLimit then cmd.action J nodeId w.pool
            else .reject 413) ∧
        (cmd.base.toList = (httpScheme useTls).toList ++ "://".toList ++ authority ++ ['/'] →
          sent.arrives net =
            (net.host useTls authority).map (fun n => (n, sent.request (joinPath ([] :: cmd.segs)))) ∧
          dispatch X A J nodeId w.pool (sent.request (joinPath ([] :: cmd.segs))) = .reject 404)) ∧
      ((∀ useTls, schemeOf cmd.base.toList ≠ some (httpScheme useTls).toList) →
        sent.arrives net = none) := by
  have h0 : 0 ∈ w.pool.shards :=
    (Runs.exec_inv (fun _ _ _ hinv h => Node.pool_step hinv h) Node.PoolInv.start hexec :
      Node.PoolInv w).zero
  refine ⟨?_, fun sent hsend => ?_⟩
  · cases cmd with
    | init nodes =>
      rcases init_send A nodes with ⟨haccepted, hsend⟩ | ⟨hrefused, e, hsend⟩
      · exact ⟨fun _ => ⟨_, hsend⟩, fun _ => haccepted⟩
      · refine ⟨fun h => absurd h hrefused, fun ⟨sent, h⟩ => ?_⟩
        rw [hsend] at h
        cases h
    | _ => exact ⟨fun _ => ⟨_, rfl⟩, fun _ => trivial⟩
  · obtain ⟨hmethod, hurl⟩ := send_url hsend
    refine ⟨fun useTls authority hauthority => ⟨fun hbase => ⟨?_, ?_⟩, fun hbase => ⟨?_, ?_⟩⟩,
      fun hscheme => ?_⟩
    · exact arrives_of_url net hauthority (segs_plain cmd) (by rw [hurl, hbase])
    · rw [dispatch_eq_handle (segments_segs cmd) (match?_segs cmd) (nil_notMem_args cmd) hmethod]
      exact handle_command h0 hrange hsend _
    · exact arrives_of_url net hauthority (slash_segs_plain cmd)
        (by rw [hurl, hbase, List.append_assoc, slash_joinPath])
    · exact dispatch_slash sent cmd
    · have hcolon : ':' ∉ joinPath cmd.segs := by
        intro hmem
        rcases List.mem_cons.mp hmem with hslash | hmem
        · cases hslash
        · exact Routing.colon_notMem_of_plain (Routing.isPlainPathChar_joinPath (segs_plain cmd)) hmem
      rw [Sent.arrives, Option.map_eq_none_iff]
      by_contra hsome
      obtain ⟨useTls, hurlScheme⟩ := net.locate_http (Option.ne_none_iff_isSome.mp hsome)
      rw [hurl, Routing.schemeOf_append _ hcolon] at hurlScheme
      exact hscheme useTls hurlScheme

end

/-- `rtdb add-route --module game --shard-id 1` for a node. -/
def routeGame (cluster : String) : Commands := .addRoute "game" 1 cluster

/-- Node 1 listens at its address without TLS. -/
def nodeOne : Net :=
  .reading fun tls addr => if tls = false ∧ addr = "node-1:4001".toList then some 1 else none

theorem add_route_arrives :
    (∃ sent, (routeGame "http://node-1:4001").send apiJson = .ok sent ∧
      sent.arrives nodeOne = some (1, sent.request "/cluster/shards/route".toList) ∧
      dispatch axum apiJson JsonFormats.commandJson 1 Node.World.start.pool
          (sent.request "/cluster/shards/route".toList) =
        .propose (.addRoute "game" 1)
          ⟨encodeShardConfig JsonFormats.commandJson (.addRoute "game" 1), 1⟩) ∧
    ∃ sent, (routeGame "node-1:4001").send apiJson = .ok sent ∧ sent.arrives nodeOne = none := by
  have hexec : Runs.exec (Node.step 1 JsonFormats.commandJson JsonFormats.snapshotJson) Node.World.start [] =
      some Node.World.start := rfl
  have hreach (cluster : String) := command_reaches_api hexec axum apiJson nodeOne
    (show (routeGame cluster).InRange from trivial)
  constructor
  · obtain ⟨sent, hsent⟩ := (hreach "http://node-1:4001").1.mp trivial
    obtain ⟨harrives, hdispatch⟩ :=
      (((hreach "http://node-1:4001").2 sent hsent).1 false "node-1:4001".toList (by decide)).1 (by decide)
    have hhost : nodeOne.host false "node-1:4001".toList = some 1 := by decide
    have hpath : joinPath (routeGame "http://node-1:4001").segs = "/cluster/shards/route".toList := by
      decide
    have hlength : (sent.body.getD []).length ≤ axum.bodyLimit := by
      cases hsent
      decide +kernel
    rw [hpath, hhost] at harrives
    rw [hpath, if_pos hlength] at hdispatch
    exact ⟨sent, hsent, harrives, hdispatch⟩
  · obtain ⟨sent, hsent⟩ := (hreach "node-1:4001").1.mp trivial
    exact ⟨sent, hsent, ((hreach "node-1:4001").2 sent hsent).2 (by decide)⟩

/-! ## Deploy -/

/-- How one run of `spacetime` ends; `notFound` if there is no such program. -/
inductive Publish where
  | success
  | failure
  | notFound
  deriving DecidableEq, Repr

/-- `Path::file_name`: the last component, unless that is `..`. -/
def fileName (path : List Char) : Option (List Char) :=
  match ((path.splitOn '/').filter fun part => part ≠ [] ∧ part ≠ ['.']).getLast? with
  | some part => if part = "..".toList then none else some part
  | none => none

/-- The database's name: the one given, or the name of the module's directory. -/
def dbName (module : String) (name : Option String) : String :=
  name.getD (((fileName module.toList).map String.ofList).getD "my_module")

def publishArgs (module db server : String) : List String :=
  ["publish", "--server", server, module, db]

section Deploy

variable (spacetime : Nat → List String → Publish) (args : String → List String)

/-- The loop of `deploy`: the runs made, and how many of them failed. -/
def publishAll : List String → Nat → Nat → List (List String) × Except String Nat
  | [], _, failed => ([], .ok failed)
  | server :: servers, i, failed =>
      match spacetime i (args server) with
      | .success =>
          let r := publishAll servers (i + 1) failed
          (args server :: r.1, r.2)
      | .failure =>
          let r := publishAll servers (i + 1) (failed + 1)
          (args server :: r.1, r.2)
      | .notFound =>
          ([args server],
            .error "spacetime CLI not found. Install it: https://spacetimedb.com/install")

/-- `deploy`: the runs made, and how it ends. -/
def deploy (module : String) (name : Option String) (servers : List String) :
    List (List String) × Except String Unit :=
  match publishAll spacetime (publishArgs module (dbName module name)) servers 0 0 with
  | (runs, .error e) => (runs, .error e)
  | (runs, .ok failed) =>
      (runs, if failed > 0 then
        .error (toString failed ++ " node(s) failed. All nodes must have the same module.")
      else .ok ())

/-- A run with no failures goes through all servers. -/
theorem publishAll_of_success {servers : List String} {i : Nat} (failed : Nat)
    (h : ∀ k server, servers[k]? = some server → spacetime (i + k) (args server) = .success) :
    publishAll spacetime args servers i failed = (servers.map args, .ok failed) := by
  induction servers generalizing i with
  | nil => rfl
  | cons server servers ih =>
    have hfirst : spacetime i (args server) = .success := h 0 server rfl
    have hrest : publishAll spacetime args servers (i + 1) failed = (servers.map args, .ok failed) := by
      refine ih fun k server' hserver => ?_
      rw [Nat.add_assoc, Nat.add_comm 1 k]
      exact h (k + 1) server' hserver
    simp only [publishAll, hfirst, hrest, List.map_cons]

/-- If the program is there, each server is tried once; the failures are counted. -/
theorem publishAll_ok {servers : List String} {i failed n : Nat}
    (h : (publishAll spacetime args servers i failed).2 = .ok n) :
    (publishAll spacetime args servers i failed).1 = servers.map args ∧ failed ≤ n ∧
      (n = failed → ∀ k server, servers[k]? = some server →
        spacetime (i + k) (args server) = .success) := by
  induction servers generalizing i failed with
  | nil =>
    cases h
    exact ⟨rfl, le_rfl, fun _ k server hserver => by cases hserver⟩
  | cons server servers ih =>
    cases hrun : spacetime i (args server) with
    | notFound =>
      simp only [publishAll, hrun] at h
      cases h
    | failure =>
      simp only [publishAll, hrun] at h ⊢
      obtain ⟨hruns, hle, -⟩ := ih h
      refine ⟨by rw [hruns, List.map_cons], by omega, fun hn => ?_⟩
      omega
    | success =>
      simp only [publishAll, hrun] at h ⊢
      obtain ⟨hruns, hle, hall⟩ := ih h
      refine ⟨by rw [hruns, List.map_cons], hle, fun hn k server' hserver => ?_⟩
      cases k with
      | zero =>
        cases hserver
        exact hrun
      | succ k =>
        rw [Nat.add_comm k 1, ← Nat.add_assoc]
        exact hall hn k server' hserver

/-- **`deploy` succeeds exactly when every server was published to**, each once and in order. -/
theorem deploy_ok_iff (module : String) (name : Option String) (servers : List String) :
    (deploy spacetime module name servers).2 = .ok () ↔
      (deploy spacetime module name servers).1 =
        servers.map (publishArgs module (dbName module name)) ∧
      ∀ k server, servers[k]? = some server →
        spacetime k (publishArgs module (dbName module name) server) = .success := by
  constructor
  · intro h
    cases hrun : publishAll spacetime (publishArgs module (dbName module name)) servers 0 0 with
    | mk runs result =>
      cases result with
      | error e =>
        simp only [deploy, hrun] at h
        cases h
      | ok failed =>
        obtain ⟨hruns, -, hall⟩ := publishAll_ok spacetime _ (n := failed) (by rw [hrun])
        rw [hrun] at hruns
        simp only [deploy, hrun] at h ⊢
        have hzero : failed = 0 := by
          by_contra hpos
          rw [if_pos (Nat.pos_of_ne_zero hpos)] at h
          cases h
        refine ⟨hruns, fun k server hserver => ?_⟩
        rw [← Nat.zero_add k]
        exact hall hzero k server hserver
  · rintro ⟨-, h⟩
    have hrun := publishAll_of_success spacetime (publishArgs module (dbName module name)) (i := 0) 0
      fun k server hserver => by
        rw [Nat.zero_add]
        exact h k server hserver
    simp only [deploy, hrun]
    rfl

end Deploy

end RaftTimeDB.Cli
