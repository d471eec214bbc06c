import RaftTimeDB.Api

/-!
# Calls between nodes over HTTP

How a Raft group reaches the groups of its shard on other nodes
(`crates/proxy/src/raft/network.rs`), how `propose_write` forwards a write to the leader
(`crates/proxy/src/raft/mod.rs`), and the handlers that serve them (`crates/proxy/src/api.rs`), over
a network that delays and loses requests and answers in any order.

* A client call puts its shard into the URL and its request into the body; the server reads both
  back from the request (`dispatch`) and calls the group; the client reads the result from the body
  of the answer, whatever its status, and a forwarded write looks at the status only.
* Which node listens at an address with or without TLS, and where `reqwest` sends the request for a
  URL, is a parameter (`Net`), and so are axum (`Axum`) and the Raft groups (`RaftGroups`), which
  openraft may also change by itself at any time.
* `Direct` is the system this implements: a call goes to the group of its shard on the node at its
  address, and the caller gets the group's answer, or no answer; a call with a body above axum's
  limit is refused before it reaches the group.

Principal result: `http_refines_direct` — every run over HTTP is, move by move, a run of direct
calls with the same groups, the same calls in progress and the same results.
-/

set_option autoImplicit false

namespace RaftTimeDB.Transport

open Api
open Routing (segments joinPath parseUrl schemeOf PlainAuthority isPlainSegmentChar
  isPlainPathChar)

variable {R : RaftTypes}

/-! ## The client -/

/-- `NetworkConnection`; for a forwarded write, the shard, the leader's address and the node's TLS
setting. -/
structure NetworkConnection where
  target : NodeId
  addr : String
  useTls : Bool
  shardId : ShardId
  deriving DecidableEq

/-- The scheme of a URL; `NodeConfig::http_scheme` for a forwarded write. -/
def httpScheme (useTls : Bool) : String := if useTls then "https" else "http"

/-- `raft_url`. -/
def raftUrl (conn : NetworkConnection) (rpc : String) : String :=
  httpScheme conn.useTls ++ "://" ++ conn.addr ++ "/raft/" ++ toString conn.shardId ++ "/" ++ rpc

/-- The URL of `propose_write`'s forwarded request. -/
def writeUrl (conn : NetworkConnection) : String :=
  httpScheme conn.useTls ++ "://" ++ conn.addr ++ "/cluster/" ++ toString conn.shardId ++ "/write"

def callUrl (conn : NetworkConnection) : Call R → String
  | .rpc k _ => raftUrl conn k.name
  | .write _ => writeUrl conn

/-- The body `reqwest`'s `json` sends. -/
def callBody (A : ApiJson R) : Call R → Bytes
  | .rpc k req => (A.rpc k).toVec req
  | .write request => A.write.toVec request

/-- `RPCError`. -/
inductive RpcError (R : RaftTypes) (k : RpcKind) where
  | unreachable
  | remote (target : NodeId) (error : R.Err k)

/-- What a client call returns. -/
inductive CallResult (R : RaftTypes) where
  | rpc (k : RpcKind) (result : Except (RpcError R k) (R.Resp k))
  | write (ok : Bool)

/-- `send` fails, or the answer is lost. -/
def lost : Call R → CallResult R
  | .rpc k _ => .rpc k (.error .unreachable)
  | .write _ => .write (afterPost none)

structure Response where
  status : Nat
  body : Bytes
  deriving DecidableEq

/-- `resp.map_err(..)`. -/
def ofResult (target : NodeId) {k : RpcKind} : Except (R.Err k) (R.Resp k) → Except (RpcError R k)
    (R.Resp k)
  | .ok resp => .ok resp
  | .error e => .error (.remote target e)

/-- What the client makes of an answer. -/
def receive (A : ApiJson R) (target : NodeId) (call : Call R) (response : Response) : CallResult R :=
  match call with
  | .rpc k _ =>
      match (A.result k).fromSlice response.body with
      | .ok result => .rpc k (ofResult target result)
      | .error _ => .rpc k (.error .unreachable)
  | .write _ => .write (afterPost (some response.status))

/-! ## The server -/

/-- openraft's Raft instances. -/
structure RaftGroups (R : RaftTypes) where
  Group : Type
  rpc : ∀ k, Group → R.Req k → Group × Except (R.Err k) (R.Resp k)
  clientWrite : Group → ReducerCallRequest → Group × ClientWriteResult
  /-- the text of a failed `client_write` -/
  errorText : ClientWriteResult → String

/-- What a group answers; `notFound` if it is not running, `tooLarge` if the body of the call is
above the limit. -/
inductive Answer (R : RaftTypes) where
  | rpc (k : RpcKind) (result : Except (R.Err k) (R.Resp k))
  | write (result : ClientWriteResult)
  | notFound
  | tooLarge

def RaftGroups.call (Γ : RaftGroups R) (g : Γ.Group) : Call R → Γ.Group × Answer R
  | .rpc k req => ((Γ.rpc k g req).1, .rpc k (Γ.rpc k g req).2)
  | .write request => ((Γ.clientWrite g request).1, .write (Γ.clientWrite g request).2)

def utf8 (text : String) : Bytes := Codec.toUtf8 text.toList

/-- The text of `get_shard_raft`'s 404. -/
def notFoundText (s : ShardId) : String := "shard " ++ toString s ++ " not found"

/-- The HTTP answer of a handler. -/
def respond (X : Axum) (A : ApiJson R) (Γ : RaftGroups R) (s : ShardId) : Answer R → Response
  | .rpc k result => ⟨200, (A.result k).toVec result⟩
  | .write .ok => ⟨clusterShardWrite .ok, utf8 "Write committed"⟩
  | .write result => ⟨clusterShardWrite result, utf8 (Γ.errorText result)⟩
  | .notFound => ⟨404, utf8 (notFoundText s)⟩
  | .tooLarge => ⟨413, X.rejection 413⟩

/-- The pools and the groups of all nodes. -/
structure Nodes (Γ : RaftGroups R) where
  pool : NodeId → RaftPool
  group : NodeId → ShardId → Γ.Group

def Nodes.setGroup {Γ : RaftGroups R} (ns : Nodes Γ) (n : NodeId) (s : ShardId) (g : Γ.Group) :
    Nodes Γ :=
  { ns with group := Function.update ns.group n (Function.update (ns.group n) s g) }

/-- A call on the group of a shard. -/
def Nodes.call {Γ : RaftGroups R} (ns : Nodes Γ) (n : NodeId) (s : ShardId) (call : Call R) :
    Nodes Γ × Answer R :=
  let r := Γ.call (ns.group n s) call
  (ns.setGroup n s r.1, r.2)

/-- The network as `reqwest` uses it. -/
structure Net where
  /-- who listens at an address, with or without TLS -/
  host : Bool → List Char → Option NodeId
  /-- the node a URL leads to, and the path in the request -/
  locate : List Char → Option (NodeId × List Char)
  /-- the parts of a plain URL are taken as they are written -/
  locate_plain (useTls : Bool) {authority path : List Char} :
    PlainAuthority authority → path.all isPlainPathChar = true →
      locate ((httpScheme useTls).toList ++ "://".toList ++ authority ++ '/' :: path) =
        (host useTls authority).map fun n => (n, '/' :: path)
  /-- a URL without one of the two schemes is refused -/
  locate_http {url : List Char} : (locate url).isSome →
    ∃ useTls, schemeOf url = some (httpScheme useTls).toList

/-! ## Over HTTP -/

/-- Where a call is: its request or its answer is on the way, or it has returned. -/
inductive Stage (R : RaftTypes) where
  | requested (url : String) (request : Request)
  | answered (response : Response)
  | returned (result : CallResult R)

structure Flight (R : RaftTypes) where
  conn : NetworkConnection
  call : Call R
  stage : Stage R

structure World (Γ : RaftGroups R) where
  nodes : Nodes Γ
  flights : List (Flight R)

inductive Label (Γ : RaftGroups R) where
  /-- a node makes a call -/
  | call (conn : NetworkConnection) (call : Call R)
  /-- the request of a call arrives and is served -/
  | serve (i : Nat)
  /-- the request or the answer is lost -/
  | lose (i : Nat)
  /-- the answer arrives -/
  | answer (i : Nat)
  /-- a request from anywhere else -/
  | external (n : NodeId) (request : Request)
  /-- a shard config command -/
  | config (n : NodeId) (created : Bool) (cmd : ShardConfigCommand)
  /-- openraft changes a group by itself -/
  | tick (n : NodeId) (s : ShardId) (g : Γ.Group)

/-- A handler's action on the groups and its answer; nothing for the actions that are no call on a
group. -/
def perform (X : Axum) (A : ApiJson R) (Γ : RaftGroups R) (ns : Nodes Γ) (n : NodeId) :
    Action R → Option (Nodes Γ × Response)
  | .rpc s k req =>
      let r := ns.call n s (.rpc k req)
      some (r.1, respond X A Γ s r.2)
  | .write s request =>
      let r := ns.call n s (.write request)
      some (r.1, respond X A Γ s r.2)
  | .reply status text => some (ns, ⟨status, utf8 text⟩)
  | .reject status => some (ns, ⟨status, X.rejection status⟩)
  | _ => none

section Steps

variable (X : Axum) (A : ApiJson R) (J : CommandJson) (net : Net) {Γ : RaftGroups R}

def step (w : World Γ) : Label Γ → Option (World Γ)
  | .call conn call =>
      some { w with
        flights := w.flights ++ [⟨conn, call, .requested (callUrl conn call) ⟨.post, [], true, callBody A call⟩⟩] }
  | .serve i =>
      match w.flights[i]? with
      | some ⟨conn, call, .requested url request⟩ =>
          match net.locate url.toList with
          | none => some { w with flights := w.flights.set i ⟨conn, call, .returned (lost call)⟩ }
          | some (n, path) =>
              (perform X A Γ w.nodes n
                (dispatch X A J n (w.nodes.pool n) { request with path := path })).map
                fun r => ⟨r.1, w.flights.set i ⟨conn, call, .answered r.2⟩⟩
      | _ => none
  | .lose i =>
      match w.flights[i]? with
      | some ⟨conn, call, .requested _ _⟩ | some ⟨conn, call, .answered _⟩ =>
          some { w with flights := w.flights.set i ⟨conn, call, .returned (lost call)⟩ }
      | _ => none
  | .answer i =>
      match w.flights[i]? with
      | some ⟨conn, call, .answered response⟩ =>
          some { w with flights :=
            w.flights.set i ⟨conn, call, .returned (receive A conn.target call response)⟩ }
      | _ => none
  | .external n request =>
      match perform X A Γ w.nodes n (dispatch X A J n (w.nodes.pool n) request) with
      | some r => some { w with nodes := r.1 }
      | none => some w
  | .config n created cmd =>
      some { w with
        nodes := { w.nodes with
          pool := Function.update w.nodes.pool n ((w.nodes.pool n).handleShardConfig created cmd) } }
  | .tick n s g => some { w with nodes := w.nodes.setGroup n s g }

end Steps

/-! ## Direct calls -/

namespace Direct

inductive Stage (R : RaftTypes) where
  | requested
  | answered (answer : Answer R)
  | returned (result : CallResult R)

structure Flight (R : RaftTypes) where
  conn : NetworkConnection
  call : Call R
  stage : Stage R

structure World (Γ : RaftGroups R) where
  nodes : Nodes Γ
  flights : List (Flight R)

inductive Label (Γ : RaftGroups R) where
  | call (conn : NetworkConnection) (call : Call R)
  | serve (i : Nat)
  /-- a call with too large a body -/
  | refuse (i : Nat)
  | lose (i : Nat)
  | answer (i : Nat)
  /-- a call from anywhere else -/
  | external (n : NodeId) (s : ShardId) (call : Call R)
  /-- a request that is no call on a group -/
  | skip
  | config (n : NodeId) (created : Bool) (cmd : ShardConfigCommand)
  | tick (n : NodeId) (s : ShardId) (g : Γ.Group)

/-- What the caller gets for an answer. -/
def receive (target : NodeId) (call : Call R) : Answer R → CallResult R
  | .rpc k result => .rpc k (ofResult target result)
  | .write result => .write (result = .ok)
  | .notFound | .tooLarge => lost call

def step (net : Net) (oversize : Call R → Bool) {Γ : RaftGroups R} (w : World Γ) :
    Label Γ → Option (World Γ)
  | .call conn call => some { w with flights := w.flights ++ [⟨conn, call, .requested⟩] }
  | .serve i =>
      match w.flights[i]? with
      | some ⟨conn, call, .requested⟩ =>
          match net.host conn.useTls conn.addr.toList with
          | none => some { w with flights := w.flights.set i ⟨conn, call, .returned (lost call)⟩ }
          | some n =>
              if oversize call then none
              else if conn.shardId ∈ (w.nodes.pool n).shards then
                let r := w.nodes.call n conn.shardId call
                some ⟨r.1, w.flights.set i ⟨conn, call, .answered r.2⟩⟩
              else some { w with flights := w.flights.set i ⟨conn, call, .answered .notFound⟩ }
      | _ => none
  | .refuse i =>
      match w.flights[i]? with
      | some ⟨conn, call, .requested⟩ =>
          match net.host conn.useTls conn.addr.toList with
          | none => none
          | some _ =>
              if oversize call then
                some { w with flights := w.flights.set i ⟨conn, call, .answered .tooLarge⟩ }
              else none
      | _ => none
  | .lose i =>
      match w.flights[i]? with
      | some ⟨conn, call, .requested⟩ | some ⟨conn, call, .answered _⟩ =>
          some { w with flights := w.flights.set i ⟨conn, call, .returned (lost call)⟩ }
      | _ => none
  | .answer i =>
      match w.flights[i]? with
      | some ⟨conn, call, .answered answer⟩ =>
          some { w with flights :=
            w.flights.set i ⟨conn, call, .returned (receive conn.target call answer)⟩ }
      | _ => none
  | .external n s call =>
      if s ∈ (w.nodes.pool n).shards then some { w with nodes := (w.nodes.call n s call).1 } else none
  | .skip => some w
  | .config n created cmd =>
      some { w with
        nodes := { w.nodes with
          pool := Function.update w.nodes.pool n ((w.nodes.pool n).handleShardConfig created cmd) } }
  | .tick n s g => some { w with nodes := w.nodes.setGroup n s g }

end Direct

/-! ## URLs and requests read back -/

/-- `str::parse::<u64>` reads a number that `format!` has written. -/
theorem parseU64_toDigits {n : Nat} (h : n < 2 ^ 64) : parseU64 (Nat.toDigits 10 n) = some n := by
  have hdigit : ∀ c ∈ Nat.toDigits 10 n, c.isDigit = true := fun c hc =>
    Nat.isDigit_of_mem_toDigits (by decide) (by decide) hc
  have hplus : ∀ rest, Nat.toDigits 10 n ≠ '+' :: rest := by
    intro rest heq
    have := hdigit '+' (by rw [heq]; exact List.mem_cons_self)
    exact absurd this (by decide)
  have hread : (Nat.toDigits 10 n).foldl (fun n c => 10 * n + (c.toNat - '0'.toNat)) 0 = n :=
    Nat.ofDigitChars_toDigits (by decide) (by decide)
  have hbad : ¬ (Nat.toDigits 10 n = [] ∨ (Nat.toDigits 10 n).any (fun c => !c.isDigit) = true) := by
    rintro (hnil | hany)
    · exact Nat.toDigits_ne_nil hnil
    · obtain ⟨c, hc, hno⟩ := List.any_eq_true.mp hany
      rw [hdigit c hc] at hno
      cases hno
  unfold parseU64
  split
  · rename_i rest heq
    exact absurd heq (hplus rest)
  · rw [if_neg hbad]
    simp only [hread]
    exact if_pos h

theorem notMem_toDigits {c : Char} (hc : c.isDigit = false) (n : Nat) : c ∉ Nat.toDigits 10 n := by
  intro hmem
  have hdigit := Nat.isDigit_of_mem_toDigits (by decide) (by decide) hmem
  rw [hc] at hdigit
  cases hdigit

theorem plain_toDigits (n : Nat) : (Nat.toDigits 10 n).all isPlainSegmentChar = true := by
  rw [List.all_eq_true]
  intro c hc
  simp [isPlainSegmentChar, Char.isAlphanum, Nat.isDigit_of_mem_toDigits (by decide) (by decide) hc]

/-- The segments of a call's path. -/
def callSegs (s : ShardId) (call : Call R) : List (List Char) :=
  [call.names.1.toList, Nat.toDigits 10 s, call.names.2.toList]

/-- The path of a call. -/
def callPath (s : ShardId) (call : Call R) : List Char := joinPath (callSegs s call)

theorem callSegs_plain (s : ShardId) (call : Call R) :
    ∀ seg ∈ callSegs s call, seg.all isPlainSegmentChar = true := by
  have hrpc : ∀ k : RpcKind, k.name.toList.all isPlainSegmentChar = true := by
    intro k
    cases k <;> decide
  have hnames : call.names.1.toList.all isPlainSegmentChar = true ∧
      call.names.2.toList.all isPlainSegmentChar = true := by
    cases call with
    | rpc k req =>
      exact ⟨show "raft".toList.all isPlainSegmentChar = true by decide, hrpc k⟩
    | write request =>
      exact ⟨show "cluster".toList.all isPlainSegmentChar = true by decide,
        show "write".toList.all isPlainSegmentChar = true by decide⟩
  intro seg hseg
  simp only [callSegs, List.mem_cons, List.not_mem_nil, or_false] at hseg
  rcases hseg with rfl | rfl | rfl
  · exact hnames.1
  · exact plain_toDigits s
  · exact hnames.2

theorem callUrl_toList (conn : NetworkConnection) (call : Call R) :
    (callUrl conn call).toList =
      (httpScheme conn.useTls).toList ++ "://".toList ++ conn.addr.toList ++
        callPath conn.shardId call := by
  cases call with
  | rpc k req =>
    simp [callUrl, raftUrl, callPath, callSegs, joinPath, Call.names, List.intercalate,
      List.intersperse]
  | write request =>
    simp [callUrl, writeUrl, callPath, callSegs, joinPath, Call.names, List.intercalate,
      List.intersperse]

/-- The URL of a call leads to the node at its address, with the path of the call. -/
theorem locate_callUrl (net : Net) {conn : NetworkConnection}
    (haddr : PlainAuthority conn.addr.toList) (call : Call R) :
    net.locate (callUrl conn call).toList =
      (net.host conn.useTls conn.addr.toList).map fun n => (n, callPath conn.shardId call) := by
  rw [callUrl_toList]
  exact net.locate_plain conn.useTls haddr
    (Routing.isPlainPathChar_joinPath (callSegs_plain conn.shardId call))

/-- The body of the call is above the limit. -/
def oversize (X : Axum) (A : ApiJson R) (call : Call R) : Bool :=
  X.bodyLimit < (callBody A call).length

theorem segments_callPath (s : ShardId) (call : Call R) :
    segments (callPath s call) = some (callSegs s call) := by
  exact Routing.segments_join (List.cons_ne_nil _ _) fun seg hseg =>
    Routing.slash_notMem_of_plain (callSegs_plain s call seg hseg)

/-- The parameter of the path is read as the shard. -/
theorem decode_toDigits (X : Axum) {s : ShardId} (hs : s < 2 ^ 64) :
    (X.decode (Nat.toDigits 10 s)).bind parseU64 = some s := by
  rw [X.decode_plain (notMem_toDigits (by decide) s)]
  exact parseU64_toDigits hs

/-- **The server reads the call back**: axum refuses it if its body is too large, and otherwise the
handler hands it to the group of its shard, or answers that there is none. -/
theorem dispatch_callPath (X : Axum) (A : ApiJson R) (J : CommandJson) (n : NodeId) (pool : RaftPool)
    {s : ShardId} (hs : s < 2 ^ 64) (call : Call R) :
    dispatch X A J n pool ⟨.post, callPath s call, true, callBody A call⟩ =
      if oversize X A call then .reject 413
      else if s ∈ pool.shards then call.action s else .reply 404 (notFoundText s) := by
  by_cases hlarge : oversize X A call = true
  · rw [if_pos hlarge]
    exact dispatch_tooLarge rfl (Or.inl ⟨_, segments_callPath s call, decode_toDigits X hs⟩) rfl
      (of_decide_eq_true hlarge)
  · rw [if_neg hlarge]
    have hbody : call.Carried X A ⟨.post, callPath s call, true, callBody A call⟩ := by
      have hlength : (callBody A call).length ≤ X.bodyLimit := by
        simpa [oversize] using hlarge
      cases call with
      | rpc k req => exact ⟨rfl, hlength, (A.rpc k).roundtrip req⟩
      | write request => exact ⟨rfl, hlength, A.write.roundtrip request⟩
    have hhandle : dispatch X A J n pool ⟨.post, callPath s call, true, callBody A call⟩ =
        handle X A J n pool call.endpoint [Nat.toDigits 10 s]
          ⟨.post, callPath s call, true, callBody A call⟩ :=
      (dispatch_endpoint rfl (segments_callPath s call) (decode_toDigits X hs)).2
    rw [hhandle, handle_endpoint hbody (X.pathU64_ok.mpr (decode_toDigits X hs))]
    rfl

/-! ## Refinement -/

/-- An answer of the kind of the call. -/
inductive AnswerTo : Call R → Answer R → Prop where
  | rpc {k : RpcKind} (req : R.Req k) (result : Except (R.Err k) (R.Resp k)) :
      AnswerTo (.rpc k req) (.rpc k result)
  | write (request : ReducerCallRequest) (result : ClientWriteResult) :
      AnswerTo (.write request) (.write result)
  | notFound (call : Call R) : AnswerTo call .notFound
  | tooLarge (call : Call R) : AnswerTo call .tooLarge

/-- `serde_json` does not read the texts of the 404 and of axum's 413 as the result of an RPC. -/
structure PlainTextRefused (X : Axum) (A : ApiJson R) : Prop where
  notFound : ∀ k s, ∃ status, (A.result k).fromSlice (utf8 (notFoundText s)) = .error status
  tooLarge : ∀ k, ∃ status, (A.result k).fromSlice (X.rejection 413) = .error status

/-- A request or an answer on the way is the text of the call or of its answer. -/
inductive SameStage (X : Axum) (A : ApiJson R) (Γ : RaftGroups R) (conn : NetworkConnection) (call : Call R) :
    Stage R → Direct.Stage R → Prop where
  | requested (hs : conn.shardId < 2 ^ 64) (haddr : PlainAuthority conn.addr.toList) :
      SameStage X A Γ conn call (.requested (callUrl conn call) ⟨.post, [], true, callBody A call⟩)
        .requested
  | answered {answer : Answer R} (h : AnswerTo call answer) :
      SameStage X A Γ conn call (.answered (respond X A Γ conn.shardId answer)) (.answered answer)
  | returned (result : CallResult R) : SameStage X A Γ conn call (.returned result) (.returned result)

/-- The same call in the same stage. -/
structure SameFlight (X : Axum) (A : ApiJson R) (Γ : RaftGroups R) (f : Flight R)
    (d : Direct.Flight R) : Prop where
  conn : d.conn = f.conn
  call : d.call = f.call
  stage : SameStage X A Γ f.conn f.call f.stage d.stage

/-- The two systems agree on the nodes and, call by call, on the calls made so far. -/
structure Same (X : Axum) (A : ApiJson R) {Γ : RaftGroups R} (w : World Γ) (d : Direct.World Γ) :
    Prop where
  nodes : d.nodes = w.nodes
  flights : List.Forall₂ (SameFlight X A Γ) w.flights d.flights
  zero : ∀ n, 0 ∈ (w.nodes.pool n).shards

/-- Shard ids are `u64`, and addresses are of the form host:port: nothing in them ends the authority
of a URL. -/
def Label.WellFormed {Γ : RaftGroups R} : Label Γ → Prop
  | .call conn _ => conn.shardId < 2 ^ 64 ∧ PlainAuthority conn.addr.toList
  | _ => True

instance {Γ : RaftGroups R} (l : Label Γ) : Decidable l.WellFormed :=
  match l with
  | .call _ _ => inferInstanceAs (Decidable (_ ∧ _))
  | .serve _ | .lose _ | .answer _ | .external _ _ | .config _ _ _ | .tick _ _ _ => isTrue trivial

/-- The direct move that a move over HTTP amounts to. -/
inductive Mirrors (X : Axum) (A : ApiJson R) {Γ : RaftGroups R} : Label Γ → Direct.Label Γ → Prop where
  | call (conn : NetworkConnection) (call : Call R) : Mirrors X A (.call conn call) (.call conn call)
  | serve (i : Nat) : Mirrors X A (.serve i) (.serve i)
  | refuse (i : Nat) : Mirrors X A (.serve i) (.refuse i)
  | lose (i : Nat) : Mirrors X A (.lose i) (.lose i)
  | answer (i : Nat) : Mirrors X A (.answer i) (.answer i)
  | external {n : NodeId} {r : Request} {s : ShardId} {call : Call R} (hmethod : r.method = .post)
      (hpath : call.Addressed X r.path s) (hbody : call.Carried X A r) :
      Mirrors X A (.external n r) (.external n s call)
  | skip (n : NodeId) (r : Request) : Mirrors X A (.external n r) .skip
  | config (n : NodeId) (created : Bool) (cmd : ShardConfigCommand) :
      Mirrors X A (.config n created cmd) (.config n created cmd)
  | tick (n : NodeId) (s : ShardId) (g : Γ.Group) : Mirrors X A (.tick n s g) (.tick n s g)

section Refinement

variable {X : Axum} {A : ApiJson R} {J : CommandJson} {net : Net} {Γ : RaftGroups R} {w w' : World Γ}
  {d : Direct.World Γ}

/-- **The client reads the answer back.** -/
theorem receive_respond (hplain : PlainTextRefused X A) (target : NodeId) (s : ShardId) {call : Call R}
    {answer : Answer R} (h : AnswerTo call answer) :
    receive A target call (respond X A Γ s answer) = Direct.receive target call answer := by
  cases h with
  | rpc req result =>
    simp only [receive, respond, (A.result _).roundtrip, Direct.receive]
  | write request result =>
    cases result with
    | ok => rfl
    | forwardToLeader leader => rfl
    | otherError => rfl
  | notFound call =>
    cases call with
    | rpc k req =>
      obtain ⟨status, hstatus⟩ := hplain.notFound k s
      simp only [receive, respond, hstatus, Direct.receive, lost]
    | write request => rfl
  | tooLarge call =>
    cases call with
    | rpc k req =>
      obtain ⟨status, hstatus⟩ := hplain.tooLarge k
      simp only [receive, respond, hstatus, Direct.receive, lost]
    | write request => rfl

theorem answerTo_call (g : Γ.Group) (call : Call R) : AnswerTo call (Γ.call g call).2 := by
  cases call with
  | rpc k req => exact .rpc req _
  | write request => exact .write request _

/-- A call on a group through its handler. -/
theorem perform_action (ns : Nodes Γ) (n : NodeId) (s : ShardId) (call : Call R) :
    perform X A Γ ns n (call.action s) =
      some ((ns.call n s call).1, respond X A Γ s (ns.call n s call).2) := by
  cases call <;> rfl

theorem Same.set (h : Same X A w d) {i : Nat} {f : Flight R} {df : Direct.Flight R}
    (hf : SameFlight X A Γ f df) :
    Same X A { w with flights := w.flights.set i f } { d with flights := d.flights.set i df } :=
  ⟨h.nodes, Lists.forall₂_set h.flights i hf, h.zero⟩

/-- A request on the way is that of its call. -/
theorem Same.requested (h : Same X A w d) {i : Nat} {conn : NetworkConnection} {call : Call R}
    {url : String}
    {request : Request} (hf : w.flights[i]? = some ⟨conn, call, .requested url request⟩) :
    d.flights[i]? = some ⟨conn, call, .requested⟩ ∧ url = callUrl conn call ∧
      request = ⟨.post, [], true, callBody A call⟩ ∧ conn.shardId < 2 ^ 64 ∧
        PlainAuthority conn.addr.toList := by
  obtain ⟨⟨dconn, dcall, dstage⟩, hdf, hconn, hcall, hstage⟩ := Lists.forall₂_getElem? h.flights hf
  cases hconn
  cases hcall
  have hstage : SameStage X A Γ conn call (.requested url request) dstage := hstage
  generalize hst : Stage.requested url request = stage at hstage
  cases hstage with
  | requested hs haddr =>
    cases hst
    exact ⟨hdf, rfl, rfl, hs, haddr⟩
  | answered hanswer => cases hst
  | returned result => cases hst

/-- An answer on the way is that of its group. -/
theorem Same.answered (h : Same X A w d) {i : Nat} {conn : NetworkConnection} {call : Call R}
    {response : Response} (hf : w.flights[i]? = some ⟨conn, call, .answered response⟩) :
    ∃ answer, d.flights[i]? = some ⟨conn, call, .answered answer⟩ ∧ AnswerTo call answer ∧
      response = respond X A Γ conn.shardId answer := by
  obtain ⟨⟨dconn, dcall, dstage⟩, hdf, hconn, hcall, hstage⟩ := Lists.forall₂_getElem? h.flights hf
  cases hconn
  cases hcall
  have hstage : SameStage X A Γ conn call (.answered response) dstage := hstage
  generalize hst : Stage.answered response = stage at hstage
  cases hstage with
  | requested hs haddr => cases hst
  | answered hanswer =>
    cases hst
    exact ⟨_, hdf, hanswer, rfl⟩
  | returned result => cases hst

/-- A request that arrives is served by the group of its shard, or there is none, or axum refuses
it. -/
theorem same_serve {i : Nat} (h : Same X A w d) (hstep : step X A J net w (.serve i) = some w') :
    ∃ m d', Mirrors X A (.serve i) m ∧ Direct.step net (oversize X A) d m = some d' ∧
      Same X A w' d' := by
  simp only [step] at hstep
  split at hstep
  · rename_i conn call url request hf
    obtain ⟨hdf, rfl, rfl, hs, haddr⟩ := h.requested hf
    rw [locate_callUrl net haddr] at hstep
    cases hhost : net.host conn.useTls conn.addr.toList with
    | none =>
      simp only [hhost, Option.map_none, Option.some.injEq] at hstep
      subst hstep
      refine ⟨.serve i, _, .serve i, by simp only [Direct.step, hdf, hhost]; rfl, ?_⟩
      exact h.set ⟨rfl, rfl, .returned _⟩
    | some n =>
      simp only [hhost, Option.map_some, dispatch_callPath X A J n (w.nodes.pool n) hs call] at hstep
      by_cases hlarge : oversize X A call = true
      · simp only [if_pos hlarge, perform, Option.map_some, Option.some.injEq] at hstep
        subst hstep
        have hanswer : SameStage X A Γ conn call (.answered (respond X A Γ conn.shardId .tooLarge)) _ :=
          .answered (.tooLarge call)
        refine ⟨.refuse i, { d with flights := d.flights.set i ⟨conn, call, .answered .tooLarge⟩ },
          .refuse i, ?_, h.set ⟨rfl, rfl, hanswer⟩⟩
        simp only [Direct.step, hdf, hhost, if_pos hlarge]
      · simp only [if_neg hlarge] at hstep
        by_cases hrunning : conn.shardId ∈ (w.nodes.pool n).shards
        · simp only [if_pos hrunning, perform_action, Option.map_some, Option.some.injEq] at hstep
          subst hstep
          refine ⟨.serve i, ⟨(w.nodes.call n conn.shardId call).1,
            d.flights.set i ⟨conn, call, .answered (w.nodes.call n conn.shardId call).2⟩⟩,
              .serve i, ?_, rfl, ?_, h.zero⟩
          · simp only [Direct.step, hdf, hhost, h.nodes, if_neg hlarge, if_pos hrunning]
          · exact Lists.forall₂_set h.flights i ⟨rfl, rfl, .answered (answerTo_call _ call)⟩
        · simp only [if_neg hrunning, perform, Option.map_some, Option.some.injEq] at hstep
          subst hstep
          have hanswer : SameStage X A Γ conn call (.answered (respond X A Γ conn.shardId .notFound)) _ :=
            .answered (.notFound call)
          refine ⟨.serve i, { d with flights := d.flights.set i ⟨conn, call, .answered .notFound⟩ },
            .serve i, ?_, h.set ⟨rfl, rfl, hanswer⟩⟩
          simp only [Direct.step, hdf, hhost, h.nodes, if_neg hlarge, if_neg hrunning]
  · cases hstep

/-- What is not a call for a group leaves the groups alone. -/
theorem perform_keeps {ns : Nodes Γ} {n : NodeId} {action : Action R} {result : Nodes Γ × Response}
    (hother : ∀ s call, action ≠ Call.action s call)
    (h : perform X A Γ ns n action = some result) : result.1 = ns := by
  cases action with
  | rpc s k req => exact absurd rfl (hother s (.rpc k req))
  | write s request => exact absurd rfl (hother s (.write request))
  | reply status text | reject status =>
    cases h
    rfl
  | panic | propose req request | init members | addNode nodeId addr | removeNode nodeId | view v =>
    cases h

/-- A request from outside is a call on a group, or nothing happens to the groups. -/
theorem same_external {n : NodeId} {r : Request} (h : Same X A w d)
    (hstep : step X A J net w (.external n r) = some w') :
    ∃ m d', Mirrors X A (.external n r) m ∧ Direct.step net (oversize X A) d m = some d' ∧ Same X A w' d' := by
  simp only [step] at hstep
  by_cases hcall : ∃ s call, dispatch X A J n (w.nodes.pool n) r = Call.action s call
  · obtain ⟨s, call, hdispatch⟩ := hcall
    obtain ⟨hmethod, hpath, hbody, hs⟩ := (dispatch_call_iff (h.zero n)).mp hdispatch
    rw [hdispatch, perform_action] at hstep
    cases hstep
    refine ⟨.external n s call, ⟨(w.nodes.call n s call).1, d.flights⟩,
      .external hmethod hpath hbody, ?_, rfl, h.flights, h.zero⟩
    simp only [Direct.step, h.nodes, if_pos hs]
  · have hsame : w' = w := by
      split at hstep
      · rename_i result hperform
        cases hstep
        rw [perform_keeps (fun s call heq => hcall ⟨s, call, heq⟩) hperform]
      · cases hstep
        rfl
    subst hsame
    exact ⟨.skip, d, .skip n r, rfl, h⟩

/-- **One move over HTTP** is the direct move it mirrors. -/
theorem same_step (hplain : PlainTextRefused X A) {l : Label Γ} (h : Same X A w d) (hl : l.WellFormed)
    (hstep : step X A J net w l = some w') :
    ∃ m d', Mirrors X A l m ∧ Direct.step net (oversize X A) d m = some d' ∧ Same X A w' d' := by
  cases l with
  | call conn call =>
    cases hstep
    refine ⟨.call conn call, _, .call conn call, rfl, h.nodes, ?_, h.zero⟩
    exact List.rel_append h.flights (.cons ⟨rfl, rfl, .requested hl.1 hl.2⟩ .nil)
  | serve i => exact same_serve h hstep
  | lose i =>
    simp only [step] at hstep
    split at hstep
    · rename_i conn call url request hf
      cases hstep
      obtain ⟨hdf, -⟩ := h.requested hf
      refine ⟨.lose i, _, .lose i, by simp only [Direct.step, hdf]; rfl, ?_⟩
      exact h.set ⟨rfl, rfl, .returned _⟩
    · rename_i conn call response hf
      cases hstep
      obtain ⟨answer, hdf, -⟩ := h.answered hf
      refine ⟨.lose i, _, .lose i, by simp only [Direct.step, hdf]; rfl, ?_⟩
      exact h.set ⟨rfl, rfl, .returned _⟩
    · cases hstep
  | answer i =>
    simp only [step] at hstep
    split at hstep
    · rename_i conn call response hf
      cases hstep
      obtain ⟨answer, hdf, hanswer, rfl⟩ := h.answered hf
      refine ⟨.answer i, _, .answer i, by simp only [Direct.step, hdf]; rfl, ?_⟩
      rw [receive_respond hplain conn.target conn.shardId hanswer]
      exact h.set ⟨rfl, rfl, .returned _⟩
    · cases hstep
  | external n r => exact same_external h hstep
  | config n created cmd =>
    cases hstep
    refine ⟨.config n created cmd, _, .config n created cmd, rfl, ?_, h.flights, ?_⟩
    · rw [h.nodes]
    · intro n'
      by_cases hn : n' = n
      · subst hn
        simp only [Function.update_self]
        exact RaftPool.mem_handleShardConfig (h.zero n') created cmd
      · simp only [Function.update_of_ne hn]
        exact h.zero n'
  | tick n s g =>
    cases hstep
    refine ⟨.tick n s g, _, .tick n s g, rfl, ?_, h.flights, h.zero⟩
    rw [h.nodes]

end Refinement

/-! ## Main result -/

/-- All nodes with shard 0, and no calls. -/
def World.start {Γ : RaftGroups R} (group : NodeId → ShardId → Γ.Group) : World Γ :=
  ⟨⟨fun _ => RaftPool.new, group⟩, []⟩

def Direct.World.start {Γ : RaftGroups R} (group : NodeId → ShardId → Γ.Group) : Direct.World Γ :=
  ⟨⟨fun _ => RaftPool.new, group⟩, []⟩

/-- **HTTP refines direct calls.**  Every run over HTTP (any number of nodes, shards and calls in
progress, requests and answers delayed, lost and served in any order, requests from outside, shards
created meanwhile) is mirrored move by move by a run in which each call goes to the group of its own
shard on the node at its address and its caller gets that group's answer to this very call, or none;
a call with a body above axum's limit is refused and changes no group; the groups and the results
are the same in both. -/
theorem http_refines_direct {X : Axum} {A : ApiJson R} (J : CommandJson) (net : Net) {Γ : RaftGroups R}
    (hplain : PlainTextRefused X A) (group : NodeId → ShardId → Γ.Group) {ls : List (Label Γ)}
    {w : World Γ}
    (hls : ∀ l ∈ ls, l.WellFormed) (hexec : Runs.exec (step X A J net) (World.start group) ls = some w) :
    ∃ ms d, List.Forall₂ (Mirrors X A) ls ms ∧
      Runs.exec (Direct.step net (oversize X A)) (Direct.World.start group) ms = some d ∧
      d.nodes = w.nodes ∧ List.Forall₂ (SameFlight X A Γ) w.flights d.flights := by
  have hstart : Same X A (World.start group) (Direct.World.start group) :=
    ⟨rfl, .nil, fun _ => List.mem_singleton_self 0⟩
  obtain ⟨ms, d, hmirrors, hdirect, hsame⟩ := Runs.exec_simulation
    (fun _ _ _ _ hsame hl hstep => same_step hplain hsame hl hstep) hstart hls hexec
  exact ⟨ms, d, hmirrors, hdirect, hsame.nodes, hsame.flights⟩

/-! ## Two nodes over HTTP -/

theorem apiJson_plainTextRefused : PlainTextRefused axum apiJson := by
  have hresult : ∀ {α ε : Type} (c : Codec α) (d : Codec ε) (first : Char) (rest : List Char),
      first ∈ ['s', 'F'] →
        (JsonFormats.result c d).fromSlice (Codec.toUtf8 (first :: rest)) = none := by
    intro α ε c d first rest hfirst
    rw [Codec.fromSlice, Codec.ofUtf8?_toUtf8, Option.bind_some]
    simp only [List.mem_cons, List.not_mem_nil, or_false] at hfirst
    rcases hfirst with rfl | rfl
    · rfl
    · rfl
  have hwire : ∀ {α : Type} {v : Wire α} {c : Codec α} {bytes : Bytes}, v = .ofCodec c →
      c.fromSlice bytes = none → ∃ status, v.fromSlice bytes = .error status := by
    rintro α v c bytes rfl hnone
    exact ⟨422, by simp only [Wire.ofCodec, hnone]⟩
  have hrefused : ∀ (k : RpcKind) (first : Char) (rest : List Char), first ∈ ['s', 'F'] →
      ∃ status, (apiJson.result k).fromSlice (Codec.toUtf8 (first :: rest)) = .error status := by
    intro k first rest hfirst
    cases k with
    | append => exact hwire rfl (hresult JsonFormats.appendEntriesResponse _ first rest hfirst)
    | vote => exact hwire rfl (hresult JsonFormats.voteResponse _ first rest hfirst)
    | snapshot => exact hwire rfl (hresult JsonFormats.installSnapshotResponse _ first rest hfirst)
  constructor
  · intro k s
    have htext : (notFoundText s).toList = 's' :: ("hard " ++ toString s ++ " not found").toList := by
      simp [notFoundText]
    rw [utf8, htext]
    exact hrefused k _ _ (by simp)
  · intro k
    exact hrefused k 'F' "ailed to buffer the request body: length limit exceeded".toList (by simp)

/-- Groups that grant every vote, take every entry and keep the writes proposed to them. -/
def yesGroups : RaftGroups raftTypes where
  Group := List ReducerCallRequest
  rpc
    | .append, g, _ => (g, .ok .success)
    | .vote, g, req => (g, .ok ⟨req.vote, true, none⟩)
    | .snapshot, g, req => (g, .ok ⟨req.vote⟩)
  clientWrite g request := (g ++ [request], .ok)
  errorText _ := ""

/-- A network whose URLs are read by `parseUrl`. -/
def Net.reading (host : Bool → List Char → Option NodeId) : Net where
  host := host
  locate url :=
    match parseUrl url with
    | none => none
    | some u =>
        if u.scheme = "http".toList then (host false u.authority).map fun n => (n, u.path)
        else if u.scheme = "https".toList then (host true u.authority).map fun n => (n, u.path)
        else none
  locate_plain useTls authority path hauthority hpath := by
    have hscheme : (httpScheme useTls).toList.all Routing.isSchemeChar = true := by
      cases useTls <;> decide
    rw [Routing.parseUrl_join hscheme hauthority hpath]
    cases useTls
    · exact if_pos rfl
    · have hne : ¬ (httpScheme true).toList = "http".toList := by decide
      exact (if_neg hne).trans (if_pos rfl)
  locate_http {url} h := by
    cases hparse : parseUrl url with
    | none =>
      rw [hparse] at h
      cases h
    | some u =>
      rw [Routing.parseUrl_scheme hparse]
      simp only [hparse] at h
      split at h
      · rename_i hhttp
        exact ⟨false, congrArg some hhttp⟩
      · split at h
        · rename_i hhttps
          exact ⟨true, congrArg some hhttps⟩
        · cases h

/-- Node 2 listens at its address without TLS. -/
def oneHost : Net :=
  .reading fun tls addr => if tls = false ∧ addr = "node-2:4001".toList then some 2 else none

def toNode2 (s : ShardId) : NetworkConnection := ⟨2, "node-2:4001", false, s⟩

def voteCall : Call raftTypes := .rpc .vote (⟨⟨⟨1, 1⟩, false⟩, none⟩ : JsonFormats.VoteRequest)

/-- Shard 1 is created on node 2; a vote for shard 0, a write to shard 1, a vote for shard 5, a write
to nobody and a vote whose answer is lost. -/
def mixedRun : List (Label yesGroups) :=
  [.config 2 true (.createShard 1), .call (toNode2 0) voteCall, .call (toNode2 1) (.write ⟨[3, 7], 1⟩),
    .call (toNode2 5) voteCall, .call ⟨3, "node-3:4001", true, 0⟩ (.write ⟨[3, 8], 1⟩),
    .call (toNode2 1) voteCall, .serve 1, .serve 4, .serve 3, .serve 0, .lose 4, .serve 2, .answer 2,
    .answer 1, .answer 0]

/-- What the caller was told: whether the vote was granted or the write is committed. -/
def told (f : Flight raftTypes) : Option Bool :=
  match f.stage with
  | .returned (.rpc .vote (.ok vote)) => some vote.voteGranted
  | .returned (.rpc _ (.error _)) => some false
  | .returned (.write ok) => some ok
  | _ => none

theorem mixed_run_over_http :
    ∃ w, Runs.exec (step axum apiJson JsonFormats.commandJson oneHost) (World.start fun _ _ => [])
      mixedRun = some w ∧
      w.flights.map told = [some true, some true, some false, some false, some false] ∧
      w.nodes.group 2 1 = [⟨[3, 7], 1⟩] ∧
      ∃ ms d, List.Forall₂ (Mirrors axum apiJson) mixedRun ms ∧
        Runs.exec (Direct.step oneHost (oversize axum apiJson)) (Direct.World.start fun _ _ => []) ms =
          some d ∧
        d.nodes = w.nodes ∧ List.Forall₂ (SameFlight axum apiJson yesGroups) w.flights d.flights := by
  let writes (w : World yesGroups) : List ReducerCallRequest := w.nodes.group 2 1
  have hrun : (Runs.exec (step axum apiJson JsonFormats.commandJson oneHost)
      (World.start fun _ _ => []) mixedRun).map (fun w => (w.flights.map told, writes w)) =
        some ([some true, some true, some false, some false, some false], [⟨[3, 7], 1⟩]) := by
    decide +kernel
  obtain ⟨w, hexec, hw⟩ := Option.map_eq_some_iff.mp hrun
  obtain ⟨htold, hgroup⟩ := Prod.mk.inj hw
  exact ⟨w, hexec, htold, hgroup, http_refines_direct JsonFormats.commandJson oneHost
    apiJson_plainTextRefused _ (by decide +kernel) hexec⟩

end RaftTimeDB.Transport
