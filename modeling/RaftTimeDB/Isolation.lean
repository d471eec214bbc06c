import RaftTimeDB.ShardSet

/-!
# What decides the shard configuration

Shard 0's tagged entries and snapshots, in order, and the outcomes of the attempts to create shards decide
the routes and shards of a node, in the state machine and in the pool.  Nothing else does: not the
messages of clients, not the writes proposed from them, and not what other shards apply or install.

* `Config` — what a sequence of `ConfigEvent`s leaves: the replicated tables, the routes the router is to
  have and the shard ids the listener is asked to create.
* `grow` — the map of shards, as creations are asked for and the attempts turn out.
* `Matches` — what is left to do for a node to get where its events lead; every move keeps it
  (`matches_step`).

Principal result: `config_isolated` — two runs with the same events and the same outcomes end with the same
configuration, and no client message is ever proposed with the config tag.
-/

set_option autoImplicit false

namespace RaftTimeDB.Node

open JsonFormats (commandJson snapshotJson)

variable {nodeId : NodeId} {J : CommandJson} {K : SnapshotCodec}

/-! ## Events -/

/-- What shard 0 is given that may change the configuration. -/
inductive ConfigEvent where
  /-- the payload of a tagged entry -/
  | entry (raw : Bytes)
  | snapshot (bytes : Bytes)
  deriving DecidableEq

def Label.configEvents : Label → List ConfigEvent
  | .apply s entries => if s = 0 then (entries.filterMap tagged?).map .entry else []
  | .install s snap _ _ => if s = 0 then [.snapshot snap.bytes] else []
  | _ => []

/-- The configuration events of a run. -/
def history (ls : List Label) : List ConfigEvent := ls.flatMap Label.configEvents

/-- Outcomes of the attempts to create shards. -/
def World.outcomes (w : World) : List Bool := w.attempts.map (·.2)

/-! ## What events lead to -/

structure Config where
  shardRoutes : RouteMap
  activeShards : List ShardId
  /-- the routes of the router, once it has caught up -/
  routes : RouteMap
  /-- the shard ids the listener is asked to create -/
  creates : List ShardId

/-- The effect of a command on a list of shards. -/
def addShard (shards : List ShardId) (cmd : ShardConfigCommand) : List ShardId :=
  match cmd.created? with
  | some s => if s ∈ shards then shards else shards ++ [s]
  | none => shards

namespace Config

def perform (c : Config) (cmd : ShardConfigCommand) : Config where
  shardRoutes := cmd.applyRoute c.shardRoutes
  activeShards := addShard c.activeShards cmd
  routes := cmd.applyRoute c.routes
  creates := c.creates ++ cmd.created?.toList

/-- A snapshot replaces the replicated tables; the router keeps the routes the snapshot does not name. -/
def event (J : CommandJson) (K : SnapshotCodec) (c : Config) : ConfigEvent → Config
  | .entry raw =>
      match decodeShardConfig J raw with
      | some cmd => c.perform cmd
      | none => c
  | .snapshot bytes =>
      match K.fromSlice bytes with
      | some data =>
          ⟨data.shardRoutes, data.activeShards, data.shardRoutes ∪ c.routes,
            c.creates ++ data.activeShards⟩
      | none => c

theorem foldl_perform (c : Config) (cmds : List ShardConfigCommand) :
    cmds.foldl perform c =
      ⟨cmds.foldl ShardConfigCommand.applyRoute c.shardRoutes, cmds.foldl addShard c.activeShards,
        cmds.foldl ShardConfigCommand.applyRoute c.routes, c.creates ++ createdOf cmds⟩ := by
  induction cmds generalizing c with
  | nil => simp [createdOf]
  | cons cmd cmds ih =>
    rw [List.foldl_cons, ih]
    cases h : cmd.created? <;> simp [perform, createdOf, h]

/-- The tagged entries of a batch perform its commands. -/
theorem foldl_event_entries (c : Config) (entries : List Entry) :
    ((entries.filterMap tagged?).map ConfigEvent.entry).foldl (event J K) c =
      (commandsOf J entries).foldl perform c := by
  induction entries generalizing c with
  | nil => rfl
  | cons entry entries ih =>
    have hentry : ((tagged? entry).toList.map ConfigEvent.entry).foldl (event J K) c =
        (entry.command? J).toList.foldl perform c := by
      unfold tagged? Entry.command?
      cases entry.payload with
      | blank => rfl
      | membership m => rfl
      | normal request =>
        simp only
        split
        · simp only [Option.toList_some, List.map_cons, List.map_nil, List.foldl_cons, List.foldl_nil, event]
          cases decodeShardConfig J request.rawMessage <;> rfl
        · rename_i htag
          rw [decodeShardConfig_untagged htag]
          rfl
    have htagged : (entry :: entries).filterMap tagged? =
        (tagged? entry).toList ++ entries.filterMap tagged? := by
      cases h : tagged? entry <;> simp [h]
    have hcommands : commandsOf J (entry :: entries) = (entry.command? J).toList ++ commandsOf J entries := by
      cases h : entry.command? J <;> simp [commandsOf, h]
    rw [htagged, hcommands, List.map_append, List.foldl_append, List.foldl_append, hentry, ih]

end Config

theorem updateConfig_activeShards (cmd : ShardConfigCommand) (inner : StateMachineInner) :
    (updateConfig cmd inner).activeShards = addShard inner.activeShards cmd := by
  cases cmd with
  | createShard shardId =>
    simp only [updateConfig, addShard, ShardConfigCommand.created?]
    split <;> rfl
  | addRoute moduleName shardId => rfl
  | removeRoute moduleName => rfl

theorem foldl_applyInner_activeShards (J : CommandJson) (entries : List Entry) (inner : StateMachineInner) :
    (entries.foldl (applyInner J) inner).activeShards =
      (commandsOf J entries).foldl addShard inner.activeShards :=
  foldl_applyInner_part StateMachineInner.activeShards (fun _ _ => rfl) (fun _ => rfl)
    updateConfig_activeShards J entries inner

/-- Replaying a snapshot puts its routes over those of the router. -/
theorem foldl_replay_routes {order : List (String × ShardId)} {inner : StateMachineInner}
    (horder : Enumerates order inner.shardRoutes) (m : RouteMap) :
    (replayCommands order inner).foldl ShardConfigCommand.applyRoute m = inner.shardRoutes ∪ m := by
  refine Finmap.ext_lookup ?_
  intro name
  rw [lookup_foldl_replay horder]
  split
  · rename_i hname
    rw [Finmap.lookup_union_left hname]
  · rename_i hname
    rw [Finmap.lookup_union_right hname]

/-- One request to create a shard: nothing if it is in the map, else the next attempt decides. -/
def grow : List ShardId × List Bool → ShardId → List ShardId × List Bool
  | (shards, outcomes), s =>
      if s ∈ shards then (shards, outcomes)
      else
        match outcomes with
        | true :: rest => (shards ++ [s], rest)
        | false :: rest => (shards, rest)
        | [] => (shards, [])

/-! ## What is left to do -/

/-- The command in the listener's hand that the router has not seen. -/
def ListenerPc.commands : ListenerPc → List ShardConfigCommand
  | .handling cmd => [cmd]
  | _ => []

/-- The request in the listener's hand that no attempt has been made for. -/
def ListenerPc.creates : ListenerPc → List ShardId
  | .handling cmd => cmd.created?.toList
  | .creating s => [s]
  | _ => []

/-- The locked state of a group when its running call returns. -/
def Group.final (g : Group) : StateMachineInner := g.todo.foldl (fun inner a => a.onInner inner) g.sm.inner

/-- The commands a group's channel holds or is going to hold when its running call returns. -/
def Group.onTheWay (g : Group) (queue : List ShardConfigCommand) : List ShardConfigCommand :=
  queue ++ sends g.configTx g.todo

/-- A node gets to a configuration once its running call has returned and its channel is drained. -/
structure Matches (c : Config) (w : World) (g : Group) (queue : List ShardConfigCommand) : Prop where
  booted : w.boot ≠ .fresh ∧ w.boot ≠ .created
  group : w.group 0 = some g
  attached : g.sm.shardConfigTx = some queue
  shardRoutes : g.final.shardRoutes = c.shardRoutes
  activeShards : g.final.activeShards = c.activeShards
  routes : (w.listener.commands ++ g.onTheWay queue).foldl ShardConfigCommand.applyRoute
    w.pool.router.routes = c.routes
  shards : ∀ more, (w.listener.creates ++ createdOf (g.onTheWay queue)).foldl grow
      (w.pool.shards ++ w.listener.newShard?.toList, more) =
    c.creates.foldl grow ([0], w.outcomes ++ more)
  defaultShard : w.pool.router.defaultShard = 0

section

variable {c c' : Config} {w w' : World} {g : Group} {queue : List ShardConfigCommand}

/-- Moves that leave shard 0, the pool and the listener alone. -/
theorem Matches.of_eq (h : Matches c w g queue) (hboot : w'.boot ≠ .fresh ∧ w'.boot ≠ .created)
    (hgroup : w'.group 0 = w.group 0) (hpool : w'.pool = w.pool) (hlistener : w'.listener = w.listener)
    (hattempts : w'.attempts = w.attempts) : Matches c w' g queue := by
  refine ⟨hboot, hgroup.trans h.group, h.attached, h.shardRoutes, h.activeShards, ?_, ?_, ?_⟩
  · rw [hpool, hlistener]
    exact h.routes
  · rw [hpool, hlistener, World.outcomes, hattempts]
    exact h.shards
  · rw [hpool]
    exact h.defaultShard

/-- **A section of a call on shard 0.** -/
theorem Matches.act (h : Matches c w g queue) {a : Action} {rest : List Action}
    (htodo : g.todo = a :: rest) :
    ∃ queue', Matches c (w.setGroup 0 (Group.act 0 { g with todo := rest } a))
      (Group.act 0 { g with todo := rest } a) queue' := by
  obtain ⟨htx, hqueue'⟩ := act_queue 0 (g := { g with todo := rest }) h.attached a
  simp only at htx hqueue'
  have hfinal : (Group.act 0 { g with todo := rest } a).final = g.final := by
    unfold Group.final
    rw [act_todo, act_inner, htodo]
    rfl
  have hway : (Group.act 0 { g with todo := rest } a).onTheWay
      (queue ++ if g.configTx then a.command?.toList else []) = g.onTheWay queue := by
    unfold Group.onTheWay
    rw [htx, act_todo, htodo, sends, List.append_assoc]
  refine ⟨_, h.booted, setGroup_self w 0 _, hqueue', ?_, ?_, ?_, ?_, h.defaultShard⟩
  · rw [hfinal]
    exact h.shardRoutes
  · rw [hfinal]
    exact h.activeShards
  · rw [hway]
    exact h.routes
  · rw [hway]
    exact h.shards

/-- **A call starts on shard 0.** -/
theorem Matches.call (h : Matches c w g queue) {actions : List Action} (hidle : g.todo = [])
    (hroutes : (actions.foldl (fun inner a => a.onInner inner) g.sm.inner).shardRoutes = c'.shardRoutes)
    (hactive : (actions.foldl (fun inner a => a.onInner inner) g.sm.inner).activeShards = c'.activeShards)
    (hrouter : (sends g.configTx actions).foldl ShardConfigCommand.applyRoute c.routes = c'.routes)
    (hcreates : c'.creates = c.creates ++ createdOf (sends g.configTx actions)) :
    Matches c' (w.setGroup 0 { g with todo := actions }) { g with todo := actions } queue := by
  have hway : g.onTheWay queue = queue := by
    rw [Group.onTheWay, hidle]
    exact List.append_nil queue
  refine ⟨h.booted, setGroup_self w 0 _, h.attached, hroutes, hactive, ?_, ?_, h.defaultShard⟩
  · have hbefore := h.routes
    rw [hway] at hbefore
    show (w.listener.commands ++ (queue ++ sends g.configTx actions)).foldl
      ShardConfigCommand.applyRoute w.pool.router.routes = c'.routes
    rw [← List.append_assoc, List.foldl_append, hbefore, hrouter]
  · intro more
    have hbefore := h.shards more
    rw [hway] at hbefore
    have hsplit : w.listener.creates ++ createdOf (queue ++ sends g.configTx actions) =
        (w.listener.creates ++ createdOf queue) ++ createdOf (sends g.configTx actions) := by
      simp [createdOf]
    show (w.listener.creates ++ createdOf (queue ++ sends g.configTx actions)).foldl grow
      (w.pool.shards ++ w.listener.newShard?.toList, more) = c'.creates.foldl grow ([0], w.outcomes ++ more)
    rw [hsplit, List.foldl_append, hbefore, hcreates, List.foldl_append]

/-- **openraft calls shard 0**: the node now goes where the events of the call lead. -/
theorem Matches.called (h : Matches c w g queue) {l : Label} {actions : List Action}
    (hl : l.call? J K = some (0, actions)) (horder : l.Ordered K) (hidle : g.todo = []) :
    Matches (l.configEvents.foldl (Config.event J K) c) (w.setGroup 0 { g with todo := actions })
      { g with todo := actions } queue := by
  have hroutes := h.shardRoutes
  have hactive := h.activeShards
  rw [Group.final, hidle, List.foldl_nil] at hroutes hactive
  cases l with
  | apply s entries =>
    simp only [Label.call?, Option.some.injEq, Prod.mk.injEq] at hl
    obtain ⟨rfl, rfl⟩ := hl
    simp only [Label.configEvents, if_true, Config.foldl_event_entries, Config.foldl_perform]
    refine h.call hidle ?_ ?_ ?_ ?_
    · rw [onInner_apply, foldl_applyInner_routes, hroutes]
    · rw [onInner_apply, foldl_applyInner_activeShards, hactive]
    · rw [sends_apply]
    · rw [sends_apply]
  | install s snap replayOrder encodeOrder =>
    simp only [Label.call?, Option.some.injEq, Prod.mk.injEq] at hl
    obtain ⟨rfl, rfl⟩ := hl
    simp only [Label.configEvents, if_true, List.foldl_cons, List.foldl_nil, Config.event]
    cases hdecode : K.fromSlice snap.bytes with
    | none =>
      have hactions : installActions K snap replayOrder encodeOrder = [] := by
        rw [installActions, hdecode]
      rw [hactions]
      exact h.call hidle hroutes hactive rfl (List.append_nil _).symm
    | some data =>
      have henum : Enumerates replayOrder data.toInner.shardRoutes := (horder data hdecode).1
      refine h.call hidle ?_ ?_ ?_ ?_
      · rw [onInner_install hdecode]
        rfl
      · rw [onInner_install hdecode]
        rfl
      · rw [sends_install hdecode]
        exact foldl_replay_routes henum c.routes
      · rw [sends_install hdecode, createdOf_replayCommands]
        rfl
  | _ => cases hl

/-- Moves of the listener that start nothing. -/
theorem Matches.setListener (h : Matches c w g queue) (hboot : w'.boot = w.boot)
    (hgroup : w'.group 0 = w.group 0) (hdefault : w'.pool.router.defaultShard = w.pool.router.defaultShard)
    (hroutes : w'.listener.commands.foldl ShardConfigCommand.applyRoute w'.pool.router.routes =
      w.listener.commands.foldl ShardConfigCommand.applyRoute w.pool.router.routes)
    (hshards : ∀ more, ∃ more', w.outcomes ++ more' = w'.outcomes ++ more ∧
      w'.listener.creates.foldl grow (w'.pool.shards ++ w'.listener.newShard?.toList, more) =
        w.listener.creates.foldl grow (w.pool.shards ++ w.listener.newShard?.toList, more')) :
    Matches c w' g queue := by
  refine ⟨hboot ▸ h.booted, hgroup.trans h.group, h.attached, h.shardRoutes, h.activeShards, ?_, ?_,
    hdefault.trans h.defaultShard⟩
  · have hbefore := h.routes
    rw [List.foldl_append] at hbefore ⊢
    rw [hroutes, hbefore]
  · intro more
    obtain ⟨more', houtcomes, hgrow⟩ := hshards more
    have hbefore := h.shards more'
    rw [List.foldl_append] at hbefore ⊢
    rw [hgrow, hbefore, houtcomes]

theorem grow_present {shards : List ShardId} {s : ShardId} (hs : s ∈ shards) (outcomes : List Bool) :
    grow (shards, outcomes) s = (shards, outcomes) := if_pos hs

theorem grow_absent {shards : List ShardId} {s : ShardId} (hs : s ∉ shards) (ok : Bool)
    (outcomes : List Bool) :
    grow (shards, ok :: outcomes) s = (if ok then shards ++ [s] else shards, outcomes) := by
  cases ok <;> simp [grow, hs]

/-- **Every move** keeps what the events so far lead to. -/
theorem matches_step {l : Label} (hpool : PoolInv w) (h : ∃ g queue, Matches c w g queue)
    (hstep : step nodeId J K w l = some w') :
    ∃ g queue, Matches (l.configEvents.foldl (Config.event J K) c) w' g queue := by
  obtain ⟨g, queue, h⟩ := h
  cases step_effect hstep with
  | bootCreate hboot => exact absurd hboot h.booted.1
  | bootConfig hboot hg => exact absurd hboot h.booted.2
  | bootForwarder hboot hg =>
    rw [h.group, Option.some.injEq] at hg
    subst hg
    exact ⟨_, queue, ⟨⟨nofun, nofun⟩, setGroup_self w 0 _, h.attached, h.shardRoutes, h.activeShards,
      h.routes, h.shards, h.defaultShard⟩⟩
  | bootListener hboot => exact ⟨g, queue, h.of_eq ⟨nofun, nofun⟩ rfl rfl rfl rfl⟩
  | call hl horder hg hidle =>
    rename_i s actions g'
    by_cases hs : s = 0
    · subst hs
      rw [h.group, Option.some.injEq] at hg
      subst hg
      exact ⟨_, queue, h.called hl horder hidle⟩
    · -- a call on another shard is no event
      have hevents : l.configEvents = [] := by
        cases l with
        | apply s' entries =>
          cases hl
          exact if_neg hs
        | install s' snap replayOrder encodeOrder =>
          cases hl
          exact if_neg hs
        | _ => rfl
      rw [hevents]
      exact ⟨g, queue, h.of_eq h.booted (setGroup_of_ne w (Ne.symm hs) _) rfl rfl rfl⟩
  | act hg htodo =>
    rename_i s g' a rest
    by_cases hs : s = 0
    · subst hs
      rw [h.group, Option.some.injEq] at hg
      subst hg
      exact ⟨_, h.act htodo⟩
    · exact ⟨g, queue, h.of_eq h.booted (setGroup_of_ne w (Ne.symm hs) _) rfl rfl rfl⟩
  | receive hboot hidle hg hqueue =>
    rename_i g' cmd rest
    rw [h.group, Option.some.injEq] at hg
    subst hg
    rw [h.attached, Option.some.injEq] at hqueue
    subst hqueue
    refine ⟨_, rest, ⟨h.booted, setGroup_self w 0 _, rfl, h.shardRoutes, h.activeShards, ?_, ?_,
      h.defaultShard⟩⟩
    · have hbefore := h.routes
      rw [hidle] at hbefore
      exact hbefore
    · intro more
      have hbefore := h.shards more
      rw [hidle] at hbefore
      have hcreates : createdOf (g.onTheWay (cmd :: rest)) =
          cmd.created?.toList ++ createdOf (g.onTheWay rest) := by
        cases hcmd : cmd.created? <;> simp [createdOf, Group.onTheWay, hcmd]
      rw [hcreates] at hbefore
      exact hbefore
  | present hl hs =>
    rename_i s
    refine ⟨g, queue, h.setListener rfl rfl rfl ?_ ?_⟩
    · rw [hl]
      rfl
    · intro more
      refine ⟨more, rfl, ?_⟩
      rw [hl]
      exact (grow_present (List.mem_append_left _ hs) more).symm
  | absent hl hs =>
    refine ⟨g, queue, h.setListener rfl rfl rfl ?_ ?_⟩
    · rw [hl]
      rfl
    · intro more
      refine ⟨more, rfl, ?_⟩
      rw [hl]
      rfl
  | route hl hcmd =>
    rename_i cmd
    refine ⟨g, queue, h.setListener rfl rfl (RaftPool.handleShardConfig_defaultShard true w.pool cmd) ?_ ?_⟩
    · rw [hl]
      exact RaftPool.handleShardConfig_routes true w.pool cmd
    · intro more
      refine ⟨more, rfl, ?_⟩
      rw [hl]
      cases cmd with
      | createShard s => cases hcmd
      | addRoute moduleName shardId => rfl
      | removeRoute moduleName => rfl
  | createOk hl =>
    rename_i s
    refine ⟨g, queue, h.setListener rfl (setGroup_of_ne w (hpool.ne_zero (Or.inr hl)) _) rfl ?_ ?_⟩
    · rw [hl]
      rfl
    · intro more
      refine ⟨true :: more, by simp [World.outcomes], ?_⟩
      rw [hl]
      have hgrow := grow_absent (hpool.creating s hl) true more
      simpa [ListenerPc.creates, ListenerPc.newShard?] using hgrow.symm
  | createFail hl =>
    rename_i s
    refine ⟨g, queue, h.setListener rfl rfl rfl ?_ ?_⟩
    · rw [hl]
      rfl
    · intro more
      refine ⟨false :: more, by simp [World.outcomes], ?_⟩
      rw [hl]
      have hgrow := grow_absent (hpool.creating s hl) false more
      simpa [ListenerPc.creates, ListenerPc.newShard?] using hgrow.symm
  | wire hl hg =>
    rename_i s g'
    have hne := hpool.ne_zero (s := s) (Or.inl (by rw [hl]; rfl))
    refine ⟨g, queue, h.setListener rfl (setGroup_of_ne w hne _) rfl ?_ ?_⟩
    · rw [hl]
      rfl
    · intro more
      refine ⟨more, rfl, ?_⟩
      rw [hl]
      rfl
  | insert hl =>
    rename_i s
    have hs : s ∉ w.pool.shards := hpool.new s (by rw [hl]; rfl)
    have hinsert : insertShard w.pool s = { w.pool with shards := w.pool.shards ++ [s] } := if_neg hs
    refine ⟨g, queue, h.setListener rfl rfl ?_ ?_ ?_⟩
    · rw [hinsert]
    · rw [hl, hinsert]
      rfl
    · intro more
      refine ⟨more, rfl, ?_⟩
      rw [hl, hinsert]
      simp [ListenerPc.creates, ListenerPc.newShard?]
  | propose hboot hwrite => exact ⟨g, queue, h.of_eq h.booted rfl rfl rfl rfl⟩
  | pass => exact ⟨g, queue, h⟩

end

/-- **A whole run** takes a node where its events lead. -/
theorem matches_exec : ∀ {ls : List Label} {c : Config} {w w' : World}, PoolInv w →
    (∃ g queue, Matches c w g queue) → Runs.exec (step nodeId J K) w ls = some w' →
    ∃ g queue, Matches ((history ls).foldl (Config.event J K) c) w' g queue
  | [], c, w, w', _, h, hexec => by
    simp only [Runs.exec_nil, Option.some.injEq] at hexec
    subst hexec
    exact h
  | l :: ls, c, w, w', hpool, h, hexec => by
    obtain ⟨t, ht, hrest⟩ := Runs.exec_cons_some.mp hexec
    rw [history, List.flatMap_cons, List.foldl_append]
    exact matches_exec (pool_step hpool ht) (matches_step hpool h ht) hrest

/-! ## The starting point -/

/-- Before the listener runs nothing has been done to the pool, and the config channel stays attached. -/
structure BootInv (w : World) : Prop where
  booting : w.boot ≠ .running → w.listener = .idle ∧ w.pool = RaftPool.new ∧ w.attempts = []
  attached : w.boot ≠ .fresh → w.boot ≠ .created →
    ∃ g queue, w.group 0 = some g ∧ g.sm.shardConfigTx = some queue

theorem BootInv.start : BootInv World.start :=
  ⟨fun _ => ⟨rfl, rfl, rfl⟩, fun h => absurd rfl h⟩

theorem BootInv.busy {w : World} (h : BootInv w) (hl : w.listener ≠ .idle) : w.boot = .running := by
  by_contra hno
  exact hl (h.booting hno).1

/-- Moves of the listener, which is running then. -/
theorem BootInv.setListener {w w' : World} (h : BootInv w) (hl : w.listener ≠ .idle)
    (hboot : w'.boot = w.boot) (hgroup : w'.group 0 = w.group 0) : BootInv w' := by
  have hrunning := h.busy hl
  refine ⟨fun hno => absurd (hboot.trans hrunning) hno, ?_⟩
  intro _ _
  obtain ⟨g, queue, hg, hqueue⟩ := h.attached (by rw [hrunning]; nofun) (by rw [hrunning]; nofun)
  exact ⟨g, queue, hgroup.trans hg, hqueue⟩

/-- Moves of one group. -/
theorem BootInv.setGroup {w : World} (h : BootInv w) {s : ShardId} {g g' : Group} (hg : w.group s = some g)
    (hqueue : ∀ queue, g.sm.shardConfigTx = some queue → ∃ queue', g'.sm.shardConfigTx = some queue') :
    BootInv (w.setGroup s g') := by
  refine ⟨h.booting, ?_⟩
  intro hfresh hcreated
  obtain ⟨g₀, queue, hg₀, hattached⟩ := h.attached hfresh hcreated
  by_cases hs : s = 0
  · subst hs
    rw [hg, Option.some.injEq] at hg₀
    subst hg₀
    obtain ⟨queue', hqueue'⟩ := hqueue queue hattached
    exact ⟨g', queue', setGroup_self w 0 g', hqueue'⟩
  · exact ⟨g₀, queue, (setGroup_of_ne w (Ne.symm hs) g').trans hg₀, hattached⟩

theorem boot_step {w w' : World} {l : Label} (hpool : PoolInv w) (h : BootInv w)
    (hstep : step nodeId J K w l = some w') : BootInv w' := by
  cases step_effect hstep with
  | bootCreate hboot =>
    exact ⟨fun _ => h.booting (by rw [hboot]; nofun), fun _ hcreated => absurd rfl hcreated⟩
  | bootConfig hboot hg =>
    exact ⟨fun _ => h.booting (by rw [hboot]; nofun), fun _ _ => ⟨_, [], setGroup_self w 0 _, rfl⟩⟩
  | bootForwarder hboot hg =>
    obtain ⟨g, queue, hg', hqueue⟩ := h.attached (by rw [hboot]; nofun) (by rw [hboot]; nofun)
    rw [hg', Option.some.injEq] at hg
    subst hg
    exact ⟨fun _ => h.booting (by rw [hboot]; nofun), fun _ _ => ⟨_, queue, setGroup_self w 0 _, hqueue⟩⟩
  | bootListener hboot =>
    exact ⟨fun hno => absurd rfl hno, fun _ _ => h.attached (by rw [hboot]; nofun) (by rw [hboot]; nofun)⟩
  | call hl horder hg hidle => exact h.setGroup hg fun queue hqueue => ⟨queue, hqueue⟩
  | act hg htodo =>
    rename_i s g a rest
    exact h.setGroup hg fun queue hqueue => ⟨_, (act_queue s (g := { g with todo := rest }) hqueue a).2⟩
  | receive hboot hidle hg hqueue =>
    exact ⟨fun hno => absurd hboot hno, fun _ _ => ⟨_, _, setGroup_self w 0 _, rfl⟩⟩
  | present hl hs => exact h.setListener (by rw [hl]; nofun) rfl rfl
  | absent hl hs => exact h.setListener (by rw [hl]; nofun) rfl rfl
  | route hl hcmd => exact h.setListener (by rw [hl]; nofun) rfl rfl
  | createOk hl =>
    exact h.setListener (by rw [hl]; nofun) rfl (setGroup_of_ne w (hpool.ne_zero (Or.inr hl)) _)
  | createFail hl => exact h.setListener (by rw [hl]; nofun) rfl rfl
  | wire hl hg =>
    exact h.setListener (by rw [hl]; nofun) rfl (setGroup_of_ne w (hpool.ne_zero (Or.inl (by rw [hl]; rfl))) _)
  | insert hl => exact h.setListener (by rw [hl]; nofun) rfl rfl
  | propose hboot hwrite => exact ⟨fun hno => absurd hboot hno, h.attached⟩
  | pass => exact h

/-- When its channel has just been attached a node goes where its running call leads. -/
theorem BootInv.matches_attached {w : World} (h : BootInv w) (hboot : w.boot = .configAttached) :
    ∃ c g queue, Matches c w g queue := by
  obtain ⟨g, queue, hg, hqueue⟩ := h.attached (by rw [hboot]; nofun) (by rw [hboot]; nofun)
  obtain ⟨hlistener, hpool, hattempts⟩ := h.booting (by rw [hboot]; nofun)
  refine ⟨⟨g.final.shardRoutes, g.final.activeShards,
    (g.onTheWay queue).foldl ShardConfigCommand.applyRoute ∅, createdOf (g.onTheWay queue)⟩, g, queue, ?_⟩
  refine ⟨by rw [hboot]; exact ⟨nofun, nofun⟩, hg, hqueue, rfl, rfl, ?_, ?_, ?_⟩
  · rw [hlistener, hpool]
    rfl
  · intro more
    rw [hlistener, hpool, World.outcomes, hattempts]
    rfl
  · rw [hpool]
    rfl

/-! ## Main result -/

/-- Shard 0's `shard_routes`. -/
def World.shardRoutes (w : World) : RouteMap :=
  match w.group 0 with
  | some g => g.sm.inner.shardRoutes
  | none => ∅

/-- **A quiet node** is where its events lead. -/
theorem Matches.quiet {c : Config} {w : World} {g : Group} {queue : List ShardConfigCommand}
    (h : Matches c w g queue) (hquiet : w.Quiet) :
    w.pool = ⟨(c.creates.foldl grow ([0], w.outcomes)).1, ⟨c.routes, 0⟩⟩ ∧
      w.shardRoutes = c.shardRoutes ∧ w.activeShards = c.activeShards := by
  obtain ⟨htodo, hempty⟩ := hquiet.2 g h.group
  rw [h.attached, Option.some.injEq] at hempty
  have hway : g.onTheWay queue = [] := by
    rw [Group.onTheWay, hempty, htodo]
    rfl
  have hfinal : g.final = g.sm.inner := by
    rw [Group.final, htodo]
    rfl
  refine ⟨?_, ?_, ?_⟩
  · have hroutes := h.routes
    have hshards := h.shards []
    rw [hquiet.1, hway] at hroutes hshards
    have hmap : w.pool.shards = (c.creates.foldl grow ([0], w.outcomes)).1 := by
      rw [List.append_nil] at hshards
      rw [← hshards]
      simp [ListenerPc.creates, ListenerPc.newShard?, createdOf]
    have hrouter : w.pool.router = ⟨c.routes, 0⟩ := by
      rw [← h.defaultShard, ← hroutes]
      rfl
    rw [← hmap, ← hrouter]
  · rw [World.shardRoutes, h.group, ← h.shardRoutes, hfinal]
  · rw [World.activeShards, h.group, ← h.activeShards, hfinal]

/-- **What clients send is proposed without the config tag.** -/
theorem proposed_step {w w' : World} {l : Label}
    (h : ∀ p ∈ w.proposed, p.2.rawMessage.head? ≠ some SHARD_CONFIG_TAG)
    (hstep : step nodeId J K w l = some w') :
    ∀ p ∈ w'.proposed, p.2.rawMessage.head? ≠ some SHARD_CONFIG_TAG := by
  cases step_effect hstep with
  | propose hboot hwrite =>
    rename_i s data
    intro p hp
    rcases List.mem_append.mp hp with hp | hp
    · exact h p hp
    · rw [List.mem_singleton] at hp
      subst hp
      obtain ⟨tag, rest, heq, htag⟩ := classifyMessage_eq_write_iff.mp hwrite
      cases heq
      simp only [proposeRequest, List.head?_cons, ne_eq, Option.some.injEq]
      rintro rfl
      exact absurd htag (by decide)
  | _ => exact h

/-- **The configuration is isolated.**  From the point where shard 0's config channel is attached, two runs
that give shard 0 the same tagged entries and snapshots in the same order, and whose attempts to create
shards turn out alike, end in quiet states with the same pool and the same replicated routes and shards,
whatever clients send, whatever is proposed and committed for them, and whatever the other shards apply
and install.  No client message is proposed with a payload that `apply` takes for a command. -/
theorem config_isolated {ls₀ ls₁ ls₂ : List Label} {w₀ w₁ w₂ : World}
    (hstart : Runs.exec (step nodeId J K) World.start ls₀ = some w₀) (hboot : w₀.boot = .configAttached)
    (h₁ : Runs.exec (step nodeId J K) w₀ ls₁ = some w₁) (h₂ : Runs.exec (step nodeId J K) w₀ ls₂ = some w₂)
    (hhistory : history ls₁ = history ls₂) (houtcomes : w₁.outcomes = w₂.outcomes)
    (hquiet₁ : w₁.Quiet) (hquiet₂ : w₂.Quiet) :
    w₁.pool = w₂.pool ∧ w₁.shardRoutes = w₂.shardRoutes ∧ w₁.activeShards = w₂.activeShards ∧
      ∀ p ∈ w₁.proposed ++ w₂.proposed, p.2.rawMessage.head? ≠ some SHARD_CONFIG_TAG := by
  obtain ⟨hpool, hbooted⟩ : PoolInv w₀ ∧ BootInv w₀ :=
    Runs.exec_inv (I := fun w => PoolInv w ∧ BootInv w)
      (fun _ _ _ hinv h => ⟨pool_step hinv.1 h, boot_step hinv.1 hinv.2 h⟩)
      ⟨PoolInv.start, BootInv.start⟩ hstart
  obtain ⟨c, hmatch⟩ := hbooted.matches_attached hboot
  obtain ⟨g₁, queue₁, hend₁⟩ := matches_exec hpool hmatch h₁
  obtain ⟨g₂, queue₂, hend₂⟩ := matches_exec hpool hmatch h₂
  obtain ⟨hpool₁, hroutes₁, hactive₁⟩ := hend₁.quiet hquiet₁
  obtain ⟨hpool₂, hroutes₂, hactive₂⟩ := hend₂.quiet hquiet₂
  have huntagged : ∀ {ls : List Label} {w : World}, Runs.exec (step nodeId J K) w₀ ls = some w →
      ∀ p ∈ w.proposed, p.2.rawMessage.head? ≠ some SHARD_CONFIG_TAG := by
    intro ls w hexec
    have hexec' : Runs.exec (step nodeId J K) World.start (ls₀ ++ ls) = some w :=
      Runs.exec_append_some.mpr ⟨w₀, hstart, hexec⟩
    exact Runs.exec_inv (fun _ _ _ h hstep => proposed_step h hstep) (fun _ h => by cases h) hexec'
  refine ⟨?_, ?_, ?_, ?_⟩
  · rw [hpool₁, hpool₂, hhistory, houtcomes]
  · rw [hroutes₁, hroutes₂, hhistory]
  · rw [hactive₁, hactive₂, hhistory]
  · intro p hp
    rcases List.mem_append.mp hp with hp | hp
    · exact huntagged h₁ p hp
    · exact huntagged h₂ p hp

/-! ## A client and another shard try -/

instance (w : World) : Decidable w.Quiet :=
  inferInstanceAs (Decidable (_ ∧ ∀ g ∈ w.group 0, _))

/-- Shard 1 is created and gets a module. -/
def twoCommands : List Entry :=
  [⟨⟨⟨1, 1⟩, 0⟩, .normal ⟨encodeShardConfig commandJson (.createShard 1), 1⟩⟩,
    ⟨⟨⟨1, 1⟩, 1⟩, .normal ⟨encodeShardConfig commandJson (.addRoute "m" 1), 1⟩⟩]

/-- A route that no configuration entry of shard 0 asks for. -/
def strayRoute : Bytes := encodeShardConfig commandJson (.addRoute "m" 0)

def carryOut : List Label :=
  List.append (.apply 0 twoCommands :: List.replicate 10 (.act 0))
    [.boot, .boot, .receive, .handle, .create true, .wire, .insert, .receive, .handle]

/-- A client sends the command and then a reducer call, the call is applied, and shard 1 applies the
command. -/
def meddle : List Label :=
  [.message 1 (.binary strayRoute), .message 1 (.binary [3]),
    .apply 0 [⟨⟨⟨1, 1⟩, 2⟩, .normal ⟨[3], 1⟩⟩], .act 0, .act 0, .act 0, .act 0, .act 0,
    .apply 1 [⟨⟨⟨1, 1⟩, 0⟩, .normal ⟨strayRoute, 1⟩⟩], .act 1, .act 1, .act 1, .act 1, .act 1, .act 1]

/-- The module stays on shard 1. -/
theorem meddling_changes_nothing :
    ∃ w₁ w₂, Runs.exec (step 1 commandJson snapshotJson) World.attached carryOut = some w₁ ∧
      Runs.exec (step 1 commandJson snapshotJson) World.attached (carryOut ++ meddle) = some w₂ ∧
      w₁.pool = w₂.pool ∧ w₁.shardRoutes = w₂.shardRoutes ∧ w₁.activeShards = w₂.activeShards ∧
      w₁.pool.routeModule "m" = 1 ∧ w₂.proposed = [(1, ⟨[3], 1⟩)] := by
  obtain ⟨w₁, h₁, houtcomes₁, hquiet₁, hroute⟩ : ∃ w,
      Runs.exec (step 1 commandJson snapshotJson) World.attached carryOut = some w ∧
      w.outcomes = [true] ∧ w.Quiet ∧ w.pool.routeModule "m" = 1 := Runs.exists_exec (by decide +kernel)
  obtain ⟨w₂, h₂, houtcomes₂, hquiet₂, hproposed⟩ : ∃ w,
      Runs.exec (step 1 commandJson snapshotJson) World.attached (carryOut ++ meddle) = some w ∧
      w.outcomes = [true] ∧ w.Quiet ∧ w.proposed = [(1, ⟨[3], 1⟩)] :=
    Runs.exists_exec (by decide +kernel)
  have hhistory : history carryOut = history (carryOut ++ meddle) := by decide +kernel
  obtain ⟨hpool, hroutes, hactive, _⟩ := config_isolated exec_attached rfl h₁ h₂ hhistory
    (houtcomes₁.trans houtcomes₂.symm) hquiet₁ hquiet₂
  exact ⟨w₁, w₂, h₁, h₂, hpool, hroutes, hactive, hroute, hproposed⟩

end RaftTimeDB.Node
