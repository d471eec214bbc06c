import RaftTimeDB.Cluster
import RaftTimeDB.JsonFormats

/-!
# Routes and open connections

`handle_client_inner` asks the router for its module's shard once, when the connection is accepted, and
proposes every later write of the connection to that shard.  Routes may change meanwhile
(`handle_shard_config`).

A run is traced with a ghost field: for each connection the commands that its node has handled since the
connection was accepted.

Principal results: `trace_step` — the route of a module, from the shard a connection got and the
commands since; `writes_follow_route_iff` — in a run every write is proposed to the shard the router gives
for its module at that time, if and only if each time the last route command since the connection was
accepted gives the shard the connection got.
-/

set_option autoImplicit false

namespace RaftTimeDB

/-! ## Commands for a module -/

/-- The shard the last command for a module routes it to; a removed route leads to shard 0. -/
def movedTo? (name : String) (cmds : List ShardConfigCommand) : Option ShardId :=
  (cmds.filterMap (ShardConfigCommand.target? name)).getLast?.map fun target => target.getD 0

theorem movedTo?_snoc (name : String) (cmds : List ShardConfigCommand) (cmd : ShardConfigCommand) :
    movedTo? name (cmds ++ [cmd]) =
      ((cmd.target? name).map fun target => target.getD 0).or (movedTo? name cmds) := by
  unfold movedTo?
  rw [List.filterMap_append]
  cases htarget : cmd.target? name with
  | none => simp [htarget]
  | some target => simp [htarget]

/-- **Handling a command** moves the modules it is for. -/
theorem RaftPool.routeModule_handleShardConfig (created : Bool) {pool : RaftPool}
    (hdefault : pool.router.defaultShard = 0) (cmd : ShardConfigCommand) (name : String) :
    (pool.handleShardConfig created cmd).routeModule name =
      ((cmd.target? name).map fun target => target.getD 0).getD (pool.routeModule name) := by
  unfold routeModule ShardRouter.route
  rw [handleShardConfig_routes, handleShardConfig_defaultShard, hdefault, applyRoute_lookup]
  cases cmd.target? name <;> rfl

namespace Cluster

/-! ## Traced runs -/

/-- A cluster with the commands each connection's node has handled since it was accepted. -/
structure Traced where
  world : World
  handled : Nat → List ShardConfigCommand

def Traced.start : Traced := ⟨World.start, fun _ => []⟩

/-- The ghost field after a move. -/
def Traced.note (t : Traced) : Label → Nat → List ShardConfigCommand
  | .accept c _ _ => Function.update t.handled c []
  | .config n _ cmd => fun c =>
      if (t.world.conns c).any (fun conn => conn.node = n) then t.handled c ++ [cmd] else t.handled c
  | _ => t.handled

def traceStep (J : CommandJson) (K : SnapshotCodec) (t : Traced) (l : Label) : Option Traced :=
  (step J K t.world l).map fun w => ⟨w, t.note l⟩

/-- The connection on which a move calls `propose_write`; the call is for the connection's shard. -/
def World.writeCall? (w : World) : Label → Option (Nat × Conn)
  | .recv c msg _ =>
      match w.conns c, w.pc c with
      | some conn, .idle => if classifyMessage msg = .write then some (c, conn) else none
      | _, _ => none
  | _ => none

variable {J : CommandJson} {K : SnapshotCodec}

/-- **Connections and pools**: only `accept` adds a connection, only `config` changes a pool. -/
theorem step_conns_pool {w w' : World} {l : Label} (h : step J K w l = some w') :
    (∃ c n path, l = .accept c n path ∧ w'.pool = w.pool ∧
      w'.conns = Function.update w.conns c (some ⟨n, path, (w.pool n).router.shardOfPath path⟩)) ∨
    (∃ n created cmd, l = .config n created cmd ∧ w'.conns = w.conns ∧
      w'.pool = Function.update w.pool n ((w.pool n).handleShardConfig created cmd)) ∨
    ((∀ t : Traced, t.note l = t.handled) ∧ (∀ n created cmd, l ≠ .config n created cmd) ∧
      w'.conns = w.conns ∧ w'.pool = w.pool) := by
  cases l with
  | accept c n path =>
    simp only [step] at h
    split at h <;> cases h
    exact Or.inl ⟨c, n, path, rfl, rfl, rfl⟩
  | config n created cmd =>
    cases h
    exact Or.inr (Or.inl ⟨n, created, cmd, rfl, rfl, rfl⟩)
  | recv c msg p =>
    refine Or.inr (Or.inr ⟨fun _ => rfl, by simp, ?_⟩)
    simp only [step] at h
    split at h
    · split at h
      · split at h
        · split at h
          · cases h
            exact ⟨rfl, rfl⟩
          · cases h
        · cases h
          exact ⟨rfl, rfl⟩
      · cases h
        exact ⟨rfl, rfl⟩
    · cases h
  | clientWrite c result =>
    refine Or.inr (Or.inr ⟨fun _ => rfl, by simp, ?_⟩)
    simp only [step] at h
    split at h
    · split at h
      · split at h
        · split at h <;> cases h <;> exact ⟨rfl, rfl⟩
        · cases h
      · cases h
    · cases h
  | forward n s event =>
    refine Or.inr (Or.inr ⟨fun _ => rfl, by simp, ?_⟩)
    simp only [step] at h
    split at h
    · split at h
      · cases h
        exact ⟨rfl, rfl⟩
      · cases h
    · cases h
  | outboundEnd c =>
    cases h
    exact Or.inr (Or.inr ⟨fun _ => rfl, by simp, rfl, rfl⟩)
  | apply n s count =>
    cases h
    exact Or.inr (Or.inr ⟨fun _ => rfl, by simp, rfl, rfl⟩)
  | broadcast c | upstream c ok | close c | response c | postFail c | send c ok | commit p leaderId
  | commitOther s leaderId payload | postDelivered p found | served p result | attach n s
  | install n s replayOrder encodeOrder snap =>
    refine Or.inr (Or.inr ⟨fun _ => rfl, by simp, ?_⟩)
    simp only [step] at h
    split at h
    · first
        | (cases h; exact ⟨rfl, rfl⟩)
        | (split at h <;> cases h <;> exact ⟨rfl, rfl⟩)
    · cases h

/-- The module the path of a connection names. -/
def Conn.moduleName? (conn : Conn) : Option String := extractModuleName conn.path

/-- Routers have shard 0 as default, and the route of a connection's module is the shard the connection
got, unless a command since has moved the module. -/
structure TraceInv (t : Traced) : Prop where
  defaultShard : ∀ n, (t.world.pool n).router.defaultShard = 0
  route : ∀ c conn name, t.world.conns c = some conn → conn.moduleName? = some name →
    (t.world.pool conn.node).routeModule name = (movedTo? name (t.handled c)).getD conn.shard

theorem TraceInv.start : TraceInv Traced.start := by
  refine ⟨fun _ => rfl, ?_⟩
  intro c conn name h
  cases h

/-- **The route of a connection's module**, after every move. -/
theorem trace_step {t t' : Traced} {l : Label} (hinv : TraceInv t) (h : traceStep J K t l = some t') :
    TraceInv t' := by
  obtain ⟨w', hstep, rfl⟩ := Option.map_eq_some_iff.mp h
  rcases step_conns_pool hstep with ⟨c₀, n, path, rfl, hpool, hconns⟩ |
    ⟨n, created, cmd, rfl, hconns, hpool⟩ | ⟨hnote, _, hconns, hpool⟩
  · refine ⟨fun n => by rw [hpool]; exact hinv.defaultShard n, ?_⟩
    intro c conn name hconn hname
    rw [hconns] at hconn
    rw [hpool]
    by_cases hc : c = c₀
    · subst hc
      rw [Function.update_self, Option.some.injEq] at hconn
      subst hconn
      have hshard : ((t.world.pool n).router).shardOfPath path = (t.world.pool n).routeModule name := by
        simp only [ShardRouter.shardOfPath, show extractModuleName path = some name from hname]
        rfl
      simp only [Traced.note, Function.update_self, hshard]
      rfl
    · rw [Function.update_of_ne hc] at hconn
      simp only [Traced.note, Function.update_of_ne hc]
      exact hinv.route c conn name hconn hname
  · have hdefault : ∀ n', (w'.pool n').router.defaultShard = 0 := by
      intro n'
      rw [hpool]
      by_cases hn : n' = n
      · subst hn
        rw [Function.update_self, RaftPool.handleShardConfig_defaultShard]
        exact hinv.defaultShard n'
      · rw [Function.update_of_ne hn]
        exact hinv.defaultShard n'
    refine ⟨hdefault, ?_⟩
    intro c conn name hconn hname
    rw [hconns] at hconn
    have hroute := hinv.route c conn name hconn hname
    rw [hpool]
    by_cases hn : conn.node = n
    · subst hn
      simp only [Traced.note, hconn, Option.any_some, decide_true, if_true, Function.update_self]
      rw [RaftPool.routeModule_handleShardConfig created (hinv.defaultShard conn.node), movedTo?_snoc, hroute]
      cases cmd.target? name <;> rfl
    · simp only [Traced.note, hconn, Option.any_some, decide_eq_true_eq, if_neg hn,
        Function.update_of_ne hn]
      exact hroute
  · refine ⟨fun n => by rw [hpool]; exact hinv.defaultShard n, ?_⟩
    intro c conn name hconn hname
    simp only [hnote]
    rw [hconns] at hconn
    rw [hpool]
    exact hinv.route c conn name hconn hname

/-! ## Main result -/

/-- A write on a path that names a module is proposed to the shard the router of the node gives for the
module now. -/
def ToCurrentRoute (t : Traced) (l : Label) : Prop :=
  ∀ call ∈ t.world.writeCall? l, ∀ name ∈ call.2.moduleName?,
    call.2.shard = (t.world.pool call.2.node).routeModule name

/-- If commands for the module have been handled on the node since the connection was accepted, then the
last of them routes it to the shard the connection got then. -/
def RouteKept (t : Traced) (l : Label) : Prop :=
  ∀ call ∈ t.world.writeCall? l, ∀ name ∈ call.2.moduleName?,
    ∀ shardId ∈ movedTo? name (t.handled call.1), shardId = call.2.shard

instance (t : Traced) (l : Label) : Decidable (ToCurrentRoute t l) :=
  inferInstanceAs (Decidable (∀ call ∈ t.world.writeCall? l, ∀ name ∈ call.2.moduleName?, _ = _))

instance (t : Traced) (l : Label) : Decidable (RouteKept t l) :=
  inferInstanceAs (Decidable (∀ call ∈ t.world.writeCall? l, ∀ name ∈ call.2.moduleName?,
    ∀ shardId ∈ movedTo? name (t.handled call.1), _ = _))

/-- Writes for a module that arrive on the given nodes are proposed to a given shard. -/
def ToShard (nodes : Finset NodeId) (name : String) (shardId : ShardId) (t : Traced) (l : Label) : Prop :=
  ∀ call ∈ t.world.writeCall? l, call.2.node ∈ nodes → call.2.moduleName? = some name →
    call.2.shard = shardId

/-- A move handles no command for a module. -/
def Label.LeavesRoute (name : String) (l : Label) : Prop :=
  ∀ n created cmd, l = .config n created cmd → cmd.target? name = none

theorem writeCall_conn {w : World} {l : Label} {c : Nat} {conn : Conn}
    (h : w.writeCall? l = some (c, conn)) : w.conns c = some conn := by
  unfold World.writeCall? at h
  split at h
  · split at h
    · rename_i hconn _
      split at h
      · cases h
        exact hconn
      · cases h
    · cases h
  · cases h

theorem toCurrentRoute_iff {t : Traced} (hinv : TraceInv t) (l : Label) :
    ToCurrentRoute t l ↔ RouteKept t l := by
  unfold ToCurrentRoute RouteKept
  refine forall_congr' fun call => forall_congr' fun hcall => ?_
  refine forall_congr' fun name => forall_congr' fun hname => ?_
  rw [hinv.route call.1 call.2 name (writeCall_conn hcall) hname]
  cases movedTo? name (t.handled call.1) with
  | none => simp
  | some shardId => simp [eq_comm]

/-- A router keeps the route of a module until a command for it is handled. -/
theorem routeModule_step {t t' : Traced} {l : Label} (hinv : TraceInv t) {name : String}
    (hl : l.LeavesRoute name) (h : traceStep J K t l = some t') (n : NodeId) :
    (t'.world.pool n).routeModule name = (t.world.pool n).routeModule name := by
  obtain ⟨w', hstep, rfl⟩ := Option.map_eq_some_iff.mp h
  rcases step_conns_pool hstep with ⟨c₀, n₀, path, rfl, hpool, _⟩ |
    ⟨n₀, created, cmd, rfl, _, hpool⟩ | ⟨_, _, _, hpool⟩
  · rw [hpool]
  · rw [hpool]
    by_cases hn : n = n₀
    · subst hn
      rw [Function.update_self, RaftPool.routeModule_handleShardConfig created (hinv.defaultShard n),
        hl n created cmd rfl]
      rfl
    · rw [Function.update_of_ne hn]
  · rw [hpool]

/-- **After a route change**: if every write goes to the current route, then once the routers of the
nodes agree on a module all its later writes there go to that shard, until a command for it is handled. -/
theorem toShard_of_agree {nodes : Finset NodeId} {name : String} {shardId : ShardId} :
    ∀ {ls : List Label} {t : Traced}, TraceInv t →
      Runs.Along (traceStep J K) ToCurrentRoute t ls → (∀ l ∈ ls, l.LeavesRoute name) →
      (∀ n ∈ nodes, (t.world.pool n).routeModule name = shardId) →
      Runs.Along (traceStep J K) (ToShard nodes name shardId) t ls
  | [], _, _, _, _, _ => trivial
  | l :: ls, t, hinv, hcurrent, hleaves, hagree => by
    have hl := hleaves l List.mem_cons_self
    refine ⟨?_, ?_⟩
    · intro call hcall hnode hname
      rw [hcurrent.1 call hcall name hname]
      exact hagree call.2.node hnode
    · intro t' ht'
      exact toShard_of_agree (trace_step hinv ht') (hcurrent.2 t' ht')
        (fun l' hl' => hleaves l' (List.mem_cons_of_mem _ hl'))
        (fun n hn => (routeModule_step hinv hl ht' n).trans (hagree n hn))

/-- **Writes follow the route, exactly.**  In every run of the cluster, each write is proposed to the shard
that its node's router gives for its module at that time, if and only if each time the commands handled
since the connection was accepted leave the module on the shard the connection got.  In such a run, once
the routers of all nodes give a module the same shard, all its later writes go to that shard, whenever
their connection was opened, until a command for the module is handled. -/
theorem writes_follow_route_iff (ls : List Label) :
    (Runs.Along (traceStep J K) ToCurrentRoute Traced.start ls ↔
      Runs.Along (traceStep J K) RouteKept Traced.start ls) ∧
    (Runs.Along (traceStep J K) RouteKept Traced.start ls →
      ∀ nodes before after t name shardId, ls = before ++ after →
        Runs.exec (traceStep J K) Traced.start before = some t →
        (∀ n ∈ nodes, (t.world.pool n).routeModule name = shardId) →
        (∀ l ∈ after, l.LeavesRoute name) →
        Runs.Along (traceStep J K) (ToShard nodes name shardId) t after) := by
  have hiff : Runs.Along (traceStep J K) ToCurrentRoute Traced.start ls ↔
      Runs.Along (traceStep J K) RouteKept Traced.start ls :=
    Runs.along_congr (fun _ _ _ hinv _ h => trace_step hinv h) (fun _ l hinv => toCurrentRoute_iff hinv l)
      TraceInv.start
  refine ⟨hiff, ?_⟩
  rintro hkept nodes before after t name shardId rfl hexec hagree hleaves
  have hinv : TraceInv t := Runs.exec_inv (fun _ _ _ hinv h => trace_step hinv h) TraceInv.start hexec
  exact toShard_of_agree hinv ((hiff.mpr hkept).of_append hexec) hleaves hagree

/-! ## One node, two connections -/

open JsonFormats (commandJson snapshotJson)

/-- A client connects to node 1. -/
def connectGame (c : Nat) : List Label :=
  [.accept c 1 "/database/subscribe/game", .broadcast c, .upstream c true]

/-- Shard 1 is created and module `game` routed to it. -/
def moveGame : List Label :=
  [.config 1 true (.createShard 1), .config 1 true (.addRoute "game" 1)]

/-- A client connects, the module is moved and moved back, and the client writes; then the module is
moved for good. -/
def moveAndBack : List Label :=
  List.flatten [connectGame 1, moveGame,
    [.config 1 true (.removeRoute "game"), .recv 1 (.binary [3]) 1, .config 1 true (.addRoute "game" 1)]]

/-- A second client connects and writes; another module is routed meanwhile. -/
def connectAndWrite : List Label :=
  List.flatten [connectGame 2,
    [.config 1 true (.addRoute "chat" 1), .recv 2 (.binary [3, 7]) 2]]

/-- A client connects before the route change, another one after it, and both write. -/
def connectBeforeMove : List Label :=
  List.flatten [connectGame 1, moveGame, connectGame 2, [.recv 1 (.binary [3]) 1, .recv 2 (.binary [3]) 2]]

/-- Both clients write where the router says, and once the module has moved its writes go to its new
shard. -/
theorem write_after_move_follows :
    ∃ t t', Runs.exec (traceStep commandJson snapshotJson) Traced.start moveAndBack = some t ∧
      (t.world.pool 1).routeModule "game" = 1 ∧ t.world.props 1 = some ⟨1, 1, 0, [3]⟩ ∧
      Runs.exec (traceStep commandJson snapshotJson) t connectAndWrite = some t' ∧
      t'.world.props 2 = some ⟨2, 1, 1, [3, 7]⟩ ∧
      Runs.Along (traceStep commandJson snapshotJson) ToCurrentRoute Traced.start
        (moveAndBack ++ connectAndWrite) ∧
      Runs.Along (traceStep commandJson snapshotJson) (ToShard {1} "game" 1) t connectAndWrite := by
  obtain ⟨t, hbefore, hroute, hprop⟩ : ∃ t,
      Runs.exec (traceStep commandJson snapshotJson) Traced.start moveAndBack = some t ∧
      (t.world.pool 1).routeModule "game" = 1 ∧ t.world.props 1 = some ⟨1, 1, 0, [3]⟩ :=
    Runs.exists_exec (by decide +kernel)
  obtain ⟨t', hall, hwrite⟩ : ∃ t',
      Runs.exec (traceStep commandJson snapshotJson) Traced.start (moveAndBack ++ connectAndWrite) =
        some t' ∧ t'.world.props 2 = some ⟨2, 1, 1, [3, 7]⟩ :=
    Runs.exists_exec (by decide +kernel)
  have hafter : Runs.exec (traceStep commandJson snapshotJson) t connectAndWrite = some t' := by
    rw [Runs.exec_append, hbefore] at hall
    exact hall
  have hkept : Runs.Along (traceStep commandJson snapshotJson) RouteKept Traced.start
      (moveAndBack ++ connectAndWrite) := by
    decide +kernel
  obtain ⟨hiff, hlater⟩ := writes_follow_route_iff (moveAndBack ++ connectAndWrite)
  refine ⟨t, t', hbefore, hroute, hprop, hafter, hwrite, hiff.mpr hkept,
    hlater hkept {1} moveAndBack connectAndWrite t "game" 1 rfl hbefore (by simpa using hroute) ?_⟩
  intro l hl n created cmd heq
  subst heq
  have hcmd : n = 1 ∧ created = true ∧ cmd = .addRoute "chat" 1 := by
    simpa [connectAndWrite, connectGame] using hl
  rw [hcmd.2.2]
  rfl

/-- **A connection keeps the shard it got.**  Both writes are for module `game`, which the router gives
shard 1 by then; the one on the older connection is proposed to shard 0. -/
theorem old_connection_keeps_shard :
    ¬ Runs.Along (traceStep commandJson snapshotJson) ToCurrentRoute Traced.start connectBeforeMove ∧
      ∃ t, Runs.exec (traceStep commandJson snapshotJson) Traced.start connectBeforeMove = some t ∧
        (t.world.pool 1).routeModule "game" = 1 ∧
        t.world.props 1 = some ⟨1, 1, 0, [3]⟩ ∧ t.world.props 2 = some ⟨2, 1, 1, [3]⟩ :=
  ⟨by decide +kernel, Runs.exists_exec (by decide +kernel)⟩

end Cluster

end RaftTimeDB
