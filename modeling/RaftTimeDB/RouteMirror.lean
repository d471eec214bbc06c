import RaftTimeDB.CatchUp

/-!
# The pool's router as a mirror of the replicated route table

The route table of shard 0 is kept twice: in the state machine (`shard_routes`) and in the pool's
router, which follows it through the stream of commands on the config channel.  `applied` commands
are sent one by one; `install_snapshot` sends AddRoute for every route of the snapshot but no
RemoveRoute for a route that the snapshot no longer has.

* `Mirror` — the router, brought up to date with the commands still on their way, is the replicated
  table.  A move keeps it exactly when it is not the installation of a snapshot that drops a route
  the node has (`mirror_step_iff`).
* `route_mirror_iff` — hence the router equals the replicated table in every state with a drained
  channel, whatever the pace of the listener, if and only if no installed snapshot drops a route.
-/

set_option autoImplicit false

namespace RaftTimeDB

/-- Replaying a snapshot's routes over a table gives the snapshot's table exactly when the snapshot
keeps every name of the old one. -/
theorem replay_routes_iff {order : List (String × ShardId)} {inner : StateMachineInner}
    (horder : Enumerates order inner.shardRoutes) (m : RouteMap) :
    (replayCommands order inner).foldl ShardConfigCommand.applyRoute m = inner.shardRoutes ↔
      ∀ name ∈ m, name ∈ inner.shardRoutes := by
  have hlookup := lookup_foldl_replay horder m
  constructor
  · intro heq name hname
    by_contra hno
    have hname' := hlookup name
    rw [heq, if_neg hno, Finmap.lookup_eq_none.mpr hno, eq_comm, Finmap.lookup_eq_none] at hname'
    exact hname' hname
  · intro hkeys
    refine Finmap.ext_lookup ?_
    intro name
    rw [hlookup]
    split
    · rfl
    · rename_i hno
      rw [Finmap.lookup_eq_none.mpr hno, Finmap.lookup_eq_none]
      exact fun hname => hno (hkeys name hname)

namespace Replicas

open JsonFormats (commandJson snapshotJson)

variable {J : CommandJson} {K : SnapshotCodec} {L : Log}

/-- Commands that have left the state machine and not yet been carried out by the pool. -/
def Replica.pending (r : Replica) : List ShardConfigCommand :=
  r.handling.toList ++ r.sm.shardConfigTx.getD []

/-- The config channel is empty and no command is being handled. -/
def Replica.Drained (r : Replica) : Prop := r.sm.shardConfigTx = some [] ∧ r.handling = none

/-- The router, brought up to date, is the replicated table. -/
def Mirror (n : NodeId) (w : World) : Prop :=
  (Replica.pending (w.replica n)).foldl ShardConfigCommand.applyRoute
    (w.replica n).pool.router.routes = (w.replica n).sm.inner.shardRoutes

/-- A move does not install a snapshot that drops a route of `n`. -/
def KeepsRoutes (K : SnapshotCodec) (n : NodeId) (w : World) : Label → Prop
  | .install m snap _ _ =>
      m = n → ∀ data, K.fromSlice snap.bytes = some data →
        ∀ name ∈ (w.replica n).sm.inner.shardRoutes, name ∈ data.shardRoutes
  | _ => True

/-- The channel of `n` stays attached and the router's default shard stays 0. -/
structure Wired (n : NodeId) (w : World) : Prop where
  attached : ∃ queue, (w.replica n).sm.shardConfigTx = some queue
  defaultShard : (w.replica n).pool.router.defaultShard = 0

/-- Moves of the config listener of `n`. -/
def ListenerMove (n : NodeId) (l : Label) : Prop := l = .receive n ∨ ∃ created, l = .handle n created

theorem wired_step {w w' : World} {n : NodeId} {l : Label} (hw : Wired n w)
    (hstep : step J K L w l = some w') : Wired n w' := by
  obtain ⟨⟨queue, hqueue⟩, hdefault⟩ := hw
  by_cases hn : l.node = n
  · subst hn
    cases l with
    | apply n count =>
      simp only [step, Option.some.injEq] at hstep
      subst hstep
      refine ⟨?_, by simpa [Label.node] using hdefault⟩
      rw [StateMachineStore.apply_spec]
      simp [Label.node] at hqueue
      simp [Label.node, hqueue]
    | build n order =>
      simp only [step] at hstep
      split at hstep
      · cases hstep
        refine ⟨⟨queue, ?_⟩, by simpa [Label.node] using hdefault⟩
        simpa [Label.node, StateMachineStore.buildSnapshot] using hqueue
      · cases hstep
    | current n =>
      simp only [step, Option.some.injEq] at hstep
      subst hstep
      exact ⟨⟨queue, hqueue⟩, hdefault⟩
    | install n snap replayOrder encodeOrder =>
      simp only [step, StateMachineStore.installSnapshot] at hstep
      split at hstep
      · split at hstep
        · rename_i hinstall
          split at hstep
          · cases hstep
            refine ⟨?_, by simpa [Label.node] using hdefault⟩
            split at hinstall
            · cases hinstall
            · cases hinstall
              simp [Label.node] at hqueue
              simp [Label.node, hqueue]
          · cases hstep
        · cases hstep
      · cases hstep
    | receive n =>
      simp only [step] at hstep
      split at hstep
      · cases hstep
        exact ⟨by simp [Label.node], by simpa [Label.node] using hdefault⟩
      · cases hstep
    | handle n created =>
      simp only [step] at hstep
      split at hstep
      · cases hstep
        refine ⟨⟨queue, by simpa [Label.node] using hqueue⟩, ?_⟩
        simpa [Label.node, RaftPool.handleShardConfig_defaultShard] using hdefault
      · cases hstep
  · rw [← step_replica_ne hstep hn] at hqueue hdefault
    exact ⟨⟨queue, hqueue⟩, hdefault⟩

/-- Installing a snapshot keeps the mirror exactly when it drops no route of the node. -/
theorem mirror_install_iff {w w' : World} {n : NodeId} {snap : Snapshot}
    {replayOrder encodeOrder : List (String × ShardId)} (hinv : Inv J K L w) (hw : Wired n w)
    (h : Mirror n w) (hstep : step J K L w (.install n snap replayOrder encodeOrder) = some w') :
    Mirror n w' ↔ KeepsRoutes K n w (.install n snap replayOrder encodeOrder) := by
  obtain ⟨inner, _, hdecode, _, _⟩ := (hinv.issued snap (install_issued hstep)).cut
  obtain ⟨_, hreplay, _, rfl⟩ := install_decoded hdecode hstep
  obtain ⟨queue, hqueue⟩ := hw.attached
  have hpending : Replica.pending { w.replica n with
      sm := { (w.replica n).sm with
        shardConfigTx := some (queue ++ replayCommands replayOrder inner) } } =
      Replica.pending (w.replica n) ++ replayCommands replayOrder inner := by
    simp [Replica.pending, hqueue]
  have hmirror : Mirror n (w.setStore n
      { inner := inner
        forwarder := (w.replica n).sm.forwarder
        shardConfigTx :=
          (w.replica n).sm.shardConfigTx.map (· ++ replayCommands replayOrder inner)
        cachedSnapshot := some ⟨snap.snapMeta, K.toVec encodeOrder inner.toData⟩ }) ↔
      (replayCommands replayOrder inner).foldl ShardConfigCommand.applyRoute
        (w.replica n).sm.inner.shardRoutes = inner.shardRoutes := by
    unfold Mirror at h ⊢
    rw [setStore_replica_self, ← h, ← List.foldl_append, ← hpending, hqueue]
    rfl
  rw [hmirror, replay_routes_iff hreplay]
  simp only [KeepsRoutes, hdecode, Option.some.injEq, true_implies]
  constructor
  · rintro hkeys data rfl
    exact hkeys
  · intro hkeys
    exact hkeys _ rfl

/-- **A move keeps the mirror exactly when it drops no route of the node.** -/
theorem mirror_step_iff {w w' : World} {n : NodeId} {l : Label} (hinv : Inv J K L w)
    (hw : Wired n w) (h : Mirror n w) (hstep : step J K L w l = some w') :
    Mirror n w' ↔ KeepsRoutes K n w l := by
  by_cases hn : l.node = n
  · subst hn
    cases l with
    | apply n count =>
      simp only [step, Option.some.injEq] at hstep
      subst hstep
      refine iff_of_true ?_ trivial
      obtain ⟨queue, hqueue⟩ := hw.attached
      simp only [Label.node] at h hqueue ⊢
      unfold Mirror at h ⊢
      rw [setStore_replica_self, StateMachineStore.apply_spec]
      simp only [foldl_applyInner_routes, ← h, ← List.foldl_append]
      simp [Replica.pending, hqueue, commandsOf]
    | build n order =>
      simp only [step] at hstep
      split at hstep
      · cases hstep
        refine iff_of_true ?_ trivial
        simpa [Mirror, Label.node, Replica.pending, StateMachineStore.buildSnapshot] using h
      · cases hstep
    | current n =>
      simp only [step, Option.some.injEq] at hstep
      subst hstep
      exact iff_of_true h trivial
    | install n snap replayOrder encodeOrder => exact mirror_install_iff hinv hw h hstep
    | receive n =>
      simp only [step] at hstep
      split at hstep
      · rename_i cmd rest hhandling hqueue
        cases hstep
        refine iff_of_true ?_ trivial
        simpa [Mirror, Label.node, Replica.pending, hhandling, hqueue] using h
      · cases hstep
    | handle n created =>
      simp only [step] at hstep
      split at hstep
      · rename_i cmd hhandling
        cases hstep
        refine iff_of_true ?_ trivial
        simpa [Mirror, Label.node, Replica.pending, hhandling,
          RaftPool.handleShardConfig_routes] using h
      · cases hstep
  · have hframe := step_replica_ne hstep hn
    have hother : KeepsRoutes K n w l := by
      cases l with
      | install m snap replayOrder encodeOrder => exact fun hm => absurd hm hn
      | _ => trivial
    refine iff_of_true ?_ hother
    simpa [Mirror, hframe] using h

/-! ## Draining the channel -/

/-- The listener cannot repair or damage the mirror. -/
theorem mirror_listener_iff {w w' : World} {n : NodeId} {l : Label} (hl : ListenerMove n l)
    (hstep : step J K L w l = some w') : Mirror n w' ↔ Mirror n w := by
  rcases hl with rfl | ⟨created, rfl⟩
  · simp only [step] at hstep
    split at hstep
    · rename_i cmd rest hhandling hqueue
      cases hstep
      simp [Mirror, Replica.pending, hhandling, hqueue]
    · cases hstep
  · simp only [step] at hstep
    split at hstep
    · rename_i cmd hhandling
      cases hstep
      simp [Mirror, Replica.pending, hhandling, RaftPool.handleShardConfig_routes]
    · cases hstep

theorem mirror_listener_run_iff {n : NodeId} :
    ∀ {drain : List Label} {w w' : World}, (∀ l ∈ drain, ListenerMove n l) →
      Runs.exec (step J K L) w drain = some w' → (Mirror n w' ↔ Mirror n w)
  | [], w, w', _, h => by
    simp only [Runs.exec_nil, Option.some.injEq] at h
    subst h
    rfl
  | l :: drain, w, w', hl, h => by
    obtain ⟨t, ht, hrest⟩ := Runs.exec_cons_some.mp h
    rw [mirror_listener_run_iff (fun x hx => hl x (List.mem_cons_of_mem _ hx)) hrest]
    exact mirror_listener_iff (hl l List.mem_cons_self) ht

theorem receive_enabled {w : World} {n : NodeId} {cmd : ShardConfigCommand}
    {rest : List ShardConfigCommand} (hqueue : (w.replica n).sm.shardConfigTx = some (cmd :: rest))
    (hhandling : (w.replica n).handling = none) :
    ∃ w', step J K L w (.receive n) = some w' ∧
      (w'.replica n).sm.shardConfigTx = some rest ∧ (w'.replica n).handling = some cmd := by
  simp [step, hqueue, hhandling]

theorem handle_enabled {w : World} {n : NodeId} {cmd : ShardConfigCommand}
    (hhandling : (w.replica n).handling = some cmd) :
    ∃ w', step J K L w (.handle n true) = some w' ∧
      (w'.replica n).sm.shardConfigTx = (w.replica n).sm.shardConfigTx ∧
      (w'.replica n).handling = none := by
  simp [step, hhandling]

theorem exists_drain_idle {n : NodeId} : ∀ (queue : List ShardConfigCommand) {w : World},
    (w.replica n).sm.shardConfigTx = some queue → (w.replica n).handling = none →
      ∃ drain w', (∀ l ∈ drain, ListenerMove n l) ∧
        Runs.exec (step J K L) w drain = some w' ∧ Replica.Drained (w'.replica n)
  | [], w, hqueue, hhandling => ⟨[], w, by simp, rfl, hqueue, hhandling⟩
  | cmd :: queue, w, hqueue, hhandling => by
    obtain ⟨w₁, hstep₁, hqueue₁, hhandling₁⟩ :=
      receive_enabled (J := J) (K := K) (L := L) hqueue hhandling
    obtain ⟨w₂, hstep₂, hqueue₂, hhandling₂⟩ :=
      handle_enabled (J := J) (K := K) (L := L) hhandling₁
    obtain ⟨drain, w', hmoves, hexec, hdrained⟩ :=
      exists_drain_idle queue (hqueue₂.trans hqueue₁) hhandling₂
    refine ⟨.receive n :: .handle n true :: drain, w', ?_, ?_, hdrained⟩
    · intro l hl
      rcases List.mem_cons.mp hl with rfl | hl
      · exact Or.inl rfl
      rcases List.mem_cons.mp hl with rfl | hl
      · exact Or.inr ⟨true, rfl⟩
      · exact hmoves l hl
    · exact Runs.exec_cons_some.mpr ⟨w₁, hstep₁, Runs.exec_cons_some.mpr ⟨w₂, hstep₂, hexec⟩⟩

/-- The listener can always finish the command in hand and drain the channel. -/
theorem exists_drain {n : NodeId} {w : World} (hw : Wired n w) :
    ∃ drain w', (∀ l ∈ drain, ListenerMove n l) ∧
      Runs.exec (step J K L) w drain = some w' ∧ Replica.Drained (w'.replica n) := by
  obtain ⟨queue, hqueue⟩ := hw.attached
  cases hhandling : (w.replica n).handling with
  | none => exact exists_drain_idle queue hqueue hhandling
  | some cmd =>
    obtain ⟨w₁, hstep, hqueue₁, hidle⟩ := handle_enabled (J := J) (K := K) (L := L) hhandling
    obtain ⟨drain, w', hmoves, hexec, hdrained⟩ :=
      exists_drain_idle queue (hqueue₁.trans hqueue) hidle
    refine ⟨.handle n true :: drain, w', ?_, Runs.exec_cons_some.mpr ⟨w₁, hstep, hexec⟩, hdrained⟩
    intro l hl
    rcases List.mem_cons.mp hl with rfl | hl
    · exact Or.inr ⟨true, rfl⟩
    · exact hmoves l hl

/-- In a drained state the mirror is plain equality of the two tables. -/
theorem mirror_iff_of_drained {n : NodeId} {w : World} (h : Replica.Drained (w.replica n)) :
    Mirror n w ↔ (w.replica n).pool.router.routes = (w.replica n).sm.inner.shardRoutes := by
  simp [Mirror, Replica.pending, h.1, h.2]

/-! ## Main result -/

/-- In a state with a drained config channel the router is the replicated route table. -/
def InSync (n : NodeId) (w : World) : Prop :=
  Replica.Drained (w.replica n) →
    (w.replica n).pool.router.routes = (w.replica n).sm.inner.shardRoutes

/-- The run keeps the two tables in sync at every pace of the listener: in every drained state that
the listener can reach after any initial part of the run (its own states included) they agree. -/
def InSyncAtAnyPace (J : CommandJson) (K : SnapshotCodec) (L : Log) (n : NodeId) (w₀ : World)
    (labels : List Label) : Prop :=
  ∀ ls₁ ls₂ drain w', labels = ls₁ ++ ls₂ → (∀ l ∈ drain, ListenerMove n l) →
    Runs.exec (step J K L) w₀ (ls₁ ++ drain) = some w' → InSync n w'

theorem Mirror.start {wiring : NodeId → Wiring} {n : NodeId}
    (hwired : (wiring n).shardConfig = true) :
    Mirror n (World.start wiring) ∧ Wired n (World.start wiring) := by
  have hqueue : ((World.start wiring).replica n).sm.shardConfigTx = some [] := by
    simp [World.start, Replica.start, hwired]
  exact ⟨by simp [Mirror, Replica.pending, hqueue]; rfl, ⟨[], hqueue⟩, rfl⟩

theorem inSync_iff_throughout {wiring : NodeId → Wiring} {n : NodeId}
    (hwired : (wiring n).shardConfig = true) {labels : List Label} :
    InSyncAtAnyPace J K L n (World.start wiring) labels ↔
      Runs.Throughout (step J K L) (Mirror n) (World.start wiring) labels := by
  rw [Runs.throughout_iff_forall]
  constructor
  · intro hsync ls₁ ls₂ w₁ hls hexec
    -- drain the channel after the initial part and read the mirror off the drained state
    have hw₁ : Wired n w₁ :=
      Runs.exec_inv (fun _ _ _ hI hs => wired_step hI hs) (Mirror.start hwired).2 hexec
    obtain ⟨drain, w', hmoves, hdrain, hdrained⟩ :=
      exists_drain (J := J) (K := K) (L := L) hw₁
    have heq := hsync ls₁ ls₂ drain w' hls hmoves
      (Runs.exec_append_some.mpr ⟨w₁, hexec, hdrain⟩) hdrained
    exact (mirror_listener_run_iff hmoves hdrain).mp ((mirror_iff_of_drained hdrained).mpr heq)
  · intro hmirror ls₁ ls₂ drain w' hls hmoves hexec hdrained
    obtain ⟨w₁, hexec₁, hdrain⟩ := Runs.exec_append_some.mp hexec
    exact (mirror_iff_of_drained hdrained).mp
      ((mirror_listener_run_iff hmoves hdrain).mpr (hmirror ls₁ ls₂ w₁ hls hexec₁))

theorem mirror_throughout_iff {wiring : NodeId → Wiring} {n : NodeId}
    (hwired : (wiring n).shardConfig = true) {labels : List Label} {w : World}
    (h : Runs.exec (step J K L) (World.start wiring) labels = some w) :
    Runs.Throughout (step J K L) (Mirror n) (World.start wiring) labels ↔
      Runs.Along (step J K L) (KeepsRoutes K n) (World.start wiring) labels :=
  Runs.throughout_iff_along
    (I := fun w => Inv J K L w ∧ Wired n w)
    (fun _ _ _ hI hs => ⟨step_inv hI.1 hs, wired_step hI.2 hs⟩)
    (fun _ _ _ hI hP hs => mirror_step_iff hI.1 hI.2 hP hs)
    ⟨Inv.start wiring, (Mirror.start hwired).2⟩ (Mirror.start hwired).1 h

/-- After a run without dropped routes, a drained node routes by the `spec` of the log it has
applied. -/
theorem routeModule_of_drained {wiring : NodeId → Wiring} {n : NodeId}
    (hwired : (wiring n).shardConfig = true) {labels : List Label} {w : World}
    (h : Runs.exec (step J K L) (World.start wiring) labels = some w)
    (hkeeps : Runs.Along (step J K L) (KeepsRoutes K n) (World.start wiring) labels)
    (hdrained : Replica.Drained (w.replica n)) (name : String) :
    (w.replica n).pool.routeModule name =
      ((spec J (L.upTo (w.replica n).sm.inner.lastApplied)).shardRoutes.lookup name).getD 0 := by
  have hmirror : Mirror n w := Runs.throughout_iff_forall.mp
    ((mirror_throughout_iff hwired h).mpr hkeeps) labels [] w (by simp) h
  have hwired' : Wired n w :=
    Runs.exec_inv (fun _ _ _ hI hs => wired_step hI hs) (Mirror.start hwired).2 h
  rw [RaftPool.routeModule, ShardRouter.route, (mirror_iff_of_drained hdrained).mp hmirror,
    hwired'.defaultShard, ← ((exec_inv h).cut n).eq_spec]

/-- **The router mirrors the route table, exactly.**  On a node with its config channel attached,
the router holds the replicated route table in every drained state, at every pace of the listener,
if and only if no snapshot installed on it drops a route it has.  Two drained nodes of such a run
with the same `last_applied` route every module alike. -/
theorem route_mirror_iff {wiring : NodeId → Wiring} {n : NodeId}
    (hwired : (wiring n).shardConfig = true) {labels : List Label} {w : World}
    (h : Runs.exec (step J K L) (World.start wiring) labels = some w) :
    (InSyncAtAnyPace J K L n (World.start wiring) labels ↔
      Runs.Along (step J K L) (KeepsRoutes K n) (World.start wiring) labels) ∧
    (Runs.Along (step J K L) (KeepsRoutes K n) (World.start wiring) labels →
      ∀ m, (wiring m).shardConfig = true →
        Runs.Along (step J K L) (KeepsRoutes K m) (World.start wiring) labels →
        Replica.Drained (w.replica n) → Replica.Drained (w.replica m) →
        (w.replica n).sm.inner.lastApplied = (w.replica m).sm.inner.lastApplied →
        ∀ name, (w.replica n).pool.routeModule name = (w.replica m).pool.routeModule name) := by
  refine ⟨(inSync_iff_throughout hwired).trans (mirror_throughout_iff hwired h), ?_⟩
  intro hn m hwiredm hm hdrainedn hdrainedm hsame name
  rw [routeModule_of_drained hwired h hn hdrainedn,
    routeModule_of_drained hwiredm h hm hdrainedm, hsame]

/-- A route for module `m` is added and removed again. -/
def routeRemoved : Log :=
  Log.ofPayloads ⟨1, 1⟩
    [.normal ⟨encodeShardConfig commandJson (.addRoute "m" 1), 1⟩,
      .normal ⟨encodeShardConfig commandJson (.removeRoute "m"), 1⟩]

/-- The snapshot of a node that has applied the first command. -/
def routeAddedSnapshot : Snapshot :=
  StateMachineStore.snapshotOf snapshotJson [("m", 1)]
    (spec commandJson (routeRemoved.entries.take 1))

/-- A node that starts from that snapshot is in sync at any pace. -/
theorem in_sync_after_install :
    ∃ w, Runs.exec (step commandJson snapshotJson routeRemoved)
        (World.start fun _ => ⟨true, true⟩) [.apply 1 1, .build 1 [("m", 1)],
          .install 2 routeAddedSnapshot [("m", 1)] [("m", 1)]] = some w ∧
      InSyncAtAnyPace commandJson snapshotJson routeRemoved 2 (World.start fun _ => ⟨true, true⟩)
        [.apply 1 1, .build 1 [("m", 1)],
          .install 2 routeAddedSnapshot [("m", 1)] [("m", 1)]] := by
  obtain ⟨w, h, hinner, happlied⟩ : ∃ w,
      Runs.exec (step commandJson snapshotJson routeRemoved) (World.start fun _ => ⟨true, true⟩)
        [.apply 1 1] = some w ∧
      (w.replica 1).sm.inner = spec commandJson (routeRemoved.entries.take 1) ∧
      w.applied 2 ≤ w.applied 1 := Runs.exists_exec (by decide +kernel)
  obtain ⟨w', h', _⟩ :=
    exec_transfer h hinner [("m", 1)] (by decide +kernel) 2 (by decide) happlied
  refine ⟨w', h', (route_mirror_iff rfl h').1.mpr ?_⟩
  show Runs.Along _ _ _ ([Label.apply 1 1, .build 1 [("m", 1)]] ++
    [.install 2 routeAddedSnapshot [("m", 1)] [("m", 1)]])
  refine Runs.Along.append (Runs.along_of_forall (by simp [KeepsRoutes])) fun t ht =>
    ⟨fun _ data _ name hname => ?_, fun _ _ => trivial⟩
  -- the node has no route that the snapshot could drop
  have hempty : (t.replica 2).sm.inner.shardRoutes = ∅ :=
    Runs.exec_check (P := fun w => (w.replica 2).sm.inner.shardRoutes = ∅) ht (by decide +kernel)
  rw [hempty] at hname
  exact absurd hname Finmap.notMem_empty

/-- The snapshot of a node that has applied both commands. -/
def routeRemovedSnapshot : Snapshot :=
  StateMachineStore.snapshotOf snapshotJson [] (spec commandJson routeRemoved.entries)

/-- **A snapshot leaves a removed route behind.**  Node 2 has added the route when it installs a
snapshot of the log in which the route is gone.  Its channel is drained, its replicated table is
empty, and it still routes the module to shard 1. -/
theorem snapshot_leaves_route :
    ∃ w, Runs.exec (step commandJson snapshotJson routeRemoved)
        (World.start fun _ => ⟨true, true⟩)
        [.apply 2 1, .receive 2, .handle 2 true, .apply 1 2, .build 1 [],
          .install 2 routeRemovedSnapshot [] []] = some w ∧
      Replica.Drained (w.replica 2) ∧
      (w.replica 2).pool.router.routes.lookup "m" = some 1 ∧
      (w.replica 2).sm.inner.shardRoutes.lookup "m" = none := by
  obtain ⟨w, h, hinner, happlied, hqueue, hhandling, hroute⟩ : ∃ w,
      Runs.exec (step commandJson snapshotJson routeRemoved) (World.start fun _ => ⟨true, true⟩)
        [.apply 2 1, .receive 2, .handle 2 true, .apply 1 2] = some w ∧
      (w.replica 1).sm.inner = spec commandJson routeRemoved.entries ∧
      w.applied 2 ≤ w.applied 1 ∧ (w.replica 2).sm.shardConfigTx = some [] ∧
      (w.replica 2).handling = none ∧ (w.replica 2).pool.router.routes.lookup "m" = some 1 :=
    Runs.exists_exec (by decide +kernel)
  have hconfig : (spec commandJson routeRemoved.entries).shardRoutes = ∅ ∧
      (spec commandJson routeRemoved.entries).activeShards = [] := by
    decide +kernel
  obtain ⟨w', h', hinstalled⟩ := exec_transfer h hinner []
    ⟨List.nodup_nil, hconfig.1.symm⟩ 2 (by decide) happlied
  refine ⟨w', h', ?_, ?_, ?_⟩
  · simp [hinstalled, Replica.Drained, hqueue, hhandling, replayCommands, hconfig.2]
  · rw [hinstalled]
    exact hroute
  · rw [hinstalled]
    simp [hconfig.1]

end Replicas

end RaftTimeDB
