import RaftTimeDB.JsonFormats
import RaftTimeDB.Node

/-!
# The pool's shards and the replicated shard list

Shard 0's state machine keeps the list of created shards (`active_shards`), and the pool's map of shards
follows it through the config channel: `apply` sends each command after it has updated the list,
`install_snapshot` replaces the list and replays it.

* `Safe` — what the sections of a running call still have to do, so that the channel never runs ahead of
  the list and the list never ahead of what the call is going to send.
* `PoolInv` — the listener starts a shard only if it is not in the map, so that no group is started twice.
* `PipeInv` — the map, the listener and the channel are within the list, and a list element that is not in
  the map is on its way, unless a creation has failed.

Principal result: `shards_follow_list`.
-/

set_option autoImplicit false

namespace RaftTimeDB.Node

open JsonFormats (commandJson snapshotJson)

variable {nodeId : NodeId} {J : CommandJson} {K : SnapshotCodec} {L : Log}

/-! ## Running calls -/

/-- A section may run in a state, given what the call is going to send afterwards. -/
def Action.Allowed (inner : StateMachineInner) (later : List ShardConfigCommand) : Action → Prop
  | .config cmd => ∀ s ∈ cmd.created?, s ∈ createdOf later
  | .dispatch cmd _ => ∀ s ∈ cmd.created?, s ∈ inner.activeShards
  | .replay cmd => ∀ s ∈ cmd.created?, s ∈ inner.activeShards
  | .load inner' => inner.activeShards ⊆ inner'.activeShards ∧ inner'.activeShards.Nodup ∧
      ∀ s ∈ inner'.activeShards, s ∈ createdOf later
  | _ => True

/-- Every section of a call may run when its turn comes. -/
def Safe : StateMachineInner → Bool → List Action → Prop
  | _, _, [] => True
  | inner, tx, a :: as =>
      a.Allowed inner (sends (a.onTx tx) as) ∧ Safe (a.onInner inner) (a.onTx tx) as

theorem mem_updateConfig {cmd : ShardConfigCommand} {inner : StateMachineInner} {s : ShardId} :
    s ∈ (updateConfig cmd inner).activeShards ↔ s ∈ inner.activeShards ∨ cmd.created? = some s := by
  cases cmd with
  | createShard shardId =>
    simp only [updateConfig, ShardConfigCommand.created?, Option.some.injEq]
    split
    · rename_i hmem
      constructor
      · exact Or.inl
      · rintro (h | rfl)
        · exact h
        · exact hmem
    · rw [List.mem_append, List.mem_singleton, eq_comm]
  | addRoute moduleName shardId => simp [updateConfig, ShardConfigCommand.created?]
  | removeRoute moduleName => simp [updateConfig, ShardConfigCommand.created?]

theorem nodup_updateConfig {cmd : ShardConfigCommand} {inner : StateMachineInner}
    (h : inner.activeShards.Nodup) : (updateConfig cmd inner).activeShards.Nodup := by
  cases cmd with
  | createShard shardId =>
    simp only [updateConfig]
    split
    · exact h
    · rename_i hno
      exact List.nodup_append.mpr ⟨h, List.nodup_singleton _, by
        intro a ha b hb
        rw [List.mem_singleton] at hb
        subst hb
        rintro rfl
        exact hno ha⟩
  | addRoute moduleName shardId => exact h
  | removeRoute moduleName => exact h

namespace Action

variable {inner : StateMachineInner} {later : List ShardConfigCommand} {a : Action}

/-- **An allowed section** keeps the list and its elements, adds only what the call is going to send, and
sends only what is in the list. -/
theorem Allowed.spec (h : a.Allowed inner later) (hnodup : inner.activeShards.Nodup) :
    (∀ s ∈ inner.activeShards, s ∈ (a.onInner inner).activeShards) ∧
      (a.onInner inner).activeShards.Nodup ∧
      (∀ s ∈ (a.onInner inner).activeShards, s ∈ inner.activeShards ∨ s ∈ createdOf later) ∧
      ∀ s ∈ createdOf a.command?.toList, s ∈ inner.activeShards := by
  cases a with
  | config cmd =>
    refine ⟨?_, nodup_updateConfig hnodup, ?_, by simp [command?, createdOf]⟩
    · intro s hs
      exact mem_updateConfig.mpr (Or.inl hs)
    · intro s hs
      rcases mem_updateConfig.mp hs with hs | hs
      · exact Or.inl hs
      · exact Or.inr (h s hs)
  | load inner' => exact ⟨h.1, h.2.1, fun s hs => Or.inr (h.2.2 s hs), by simp [command?, createdOf]⟩
  | dispatch cmd msg | replay cmd =>
    refine ⟨fun _ hs => hs, hnodup, fun _ hs => Or.inl hs, ?_⟩
    intro s hs
    simp only [command?, Option.toList_some, createdOf, List.mem_filterMap, List.mem_singleton,
      exists_eq_left] at hs
    exact h s hs
  | readForwarder | readConfig | record entry | skip msg | forward msg | count | cache snap =>
    exact ⟨fun _ hs => hs, hnodup, fun _ hs => Or.inl hs, by simp [command?, createdOf]⟩

end Action

theorem safe_entry (J : CommandJson) (inner : StateMachineInner) (entry : Entry) {rest : List Action}
    (h : Safe (applyInner J inner entry) true rest) : Safe inner true (entryActions J entry ++ rest) := by
  unfold entryActions
  cases hpayload : entry.payload with
  | blank =>
    refine ⟨trivial, ?_⟩
    simpa [applyInner, Entry.command?, Entry.isNormal, hpayload, Action.onInner, Action.onTx] using h
  | membership m =>
    refine ⟨trivial, ?_⟩
    simpa [applyInner, Entry.command?, Entry.isNormal, hpayload, Action.onInner, Action.onTx] using h
  | normal request =>
    simp only [requestActions]
    split
    · rename_i htag
      cases hcmd : decodeShardConfig J request.rawMessage with
      | none =>
        refine ⟨trivial, trivial, trivial, ?_⟩
        simpa [applyInner, Entry.command?, Entry.isNormal, hpayload, hcmd, Action.onInner, Action.onTx] using h
      | some cmd =>
        refine ⟨trivial, ?_, ?_, trivial, ?_⟩
        · intro s hs
          exact List.mem_filterMap.mpr ⟨cmd, by simp [sends, Action.onTx, Action.command?], hs⟩
        · intro s hs
          exact mem_updateConfig.mpr (Or.inr hs)
        · simpa [applyInner, Entry.command?, Entry.isNormal, hpayload, hcmd, Action.onInner, Action.onTx] using h
    · rename_i htag
      refine ⟨trivial, trivial, trivial, ?_⟩
      simpa [applyInner, Entry.command?, Entry.isNormal, hpayload, decodeShardConfig_untagged htag,
        Action.onInner, Action.onTx] using h

/-- **A call of `apply`** is safe in every state. -/
theorem safe_apply (J : CommandJson) (inner : StateMachineInner) (tx : Bool) (entries : List Entry) :
    Safe inner tx (applyActions J entries) := by
  have hentries : ∀ inner, Safe inner true (entries.flatMap (entryActions J)) := by
    induction entries with
    | nil => exact fun _ => trivial
    | cons entry entries ih =>
      intro inner
      rw [List.flatMap_cons]
      exact safe_entry J inner entry (ih _)
  exact ⟨trivial, trivial, hentries inner⟩

theorem createdOf_replayCommands (order : List (String × ShardId)) (inner : StateMachineInner) :
    createdOf (replayCommands order inner) = inner.activeShards := by
  unfold createdOf replayCommands
  rw [List.filterMap_append, List.filterMap_map, List.filterMap_map]
  have hcreate : ShardConfigCommand.created? ∘ ShardConfigCommand.createShard = some := rfl
  have hroute : (ShardConfigCommand.created? ∘ fun p : String × ShardId =>
      ShardConfigCommand.addRoute p.1 p.2) = fun _ => none := rfl
  rw [hcreate, hroute, List.filterMap_some, List.filterMap_none, List.append_nil]

/-- **A call of `install_snapshot`** is safe if the snapshot has every shard of the list. -/
theorem safe_install {snap : Snapshot} {data : SnapshotData} (hdecode : K.fromSlice snap.bytes = some data)
    (replayOrder encodeOrder : List (String × ShardId)) {inner : StateMachineInner} (tx : Bool)
    (hsub : inner.activeShards ⊆ data.activeShards) (hnodup : data.activeShards.Nodup) :
    Safe inner tx (installActions K snap replayOrder encodeOrder) := by
  have hreplay : ∀ cmds : List ShardConfigCommand,
      (∀ s ∈ createdOf cmds, s ∈ data.toInner.activeShards) →
      Safe data.toInner true (cmds.map .replay ++ [.cache ⟨snap.snapMeta, K.toVec encodeOrder data⟩]) := by
    intro cmds
    induction cmds with
    | nil => exact fun _ => ⟨trivial, trivial⟩
    | cons cmd cmds ih =>
      intro hcmds
      refine ⟨?_, ih ?_⟩
      · intro s hs
        exact hcmds s (List.mem_filterMap.mpr ⟨cmd, List.mem_cons_self, hs⟩)
      · intro s hs
        obtain ⟨cmd', hcmd', hs⟩ := List.mem_filterMap.mp hs
        exact hcmds s (List.mem_filterMap.mpr ⟨cmd', List.mem_cons_of_mem _ hcmd', hs⟩)
  have hsends := sends_install hdecode tx replayOrder encodeOrder
  unfold installActions at hsends ⊢
  rw [hdecode] at hsends ⊢
  refine ⟨⟨hsub, hnodup, ?_⟩, trivial, hreplay _ ?_⟩
  · intro s hs
    have hlater : sends (Action.onTx (.load data.toInner) tx) (.readConfig ::
        ((replayCommands replayOrder data.toInner).map .replay ++
          [.cache ⟨snap.snapMeta, K.toVec encodeOrder data⟩])) = replayCommands replayOrder data.toInner := by
      cases tx <;> exact hsends
    rw [hlater, createdOf_replayCommands]
    exact hs
  · rw [createdOf_replayCommands]
    exact fun _ hs => hs

/-! ## The listener and the map -/

/-- The shard the listener has started and not yet put into the map. -/
def ListenerPc.newShard? : ListenerPc → Option ShardId
  | .wiring s => some s
  | .inserting s => some s
  | _ => none

/-- The shard a command in the listener's hand creates. -/
def ListenerPc.shard? : ListenerPc → Option ShardId
  | .idle => none
  | .handling cmd => cmd.created?
  | .creating s => some s
  | .wiring s => some s
  | .inserting s => some s

/-- Every Raft group that has been started, shard 0 by `RaftPool::new`. -/
def World.started (w : World) : List ShardId := 0 :: (w.attempts.filter (·.2)).map (·.1)

/-- The shards that have been started are those in the map and the one in the listener's hand, and a shard
that the listener is about to start or to wire has not been started or wired before. -/
structure PoolInv (w : World) : Prop where
  zero : 0 ∈ w.pool.shards
  nodup : w.started.Nodup
  started : ∀ s, s ∈ w.started ↔ s ∈ w.pool.shards ∨ w.listener.newShard? = some s
  creating : ∀ s, w.listener = .creating s → s ∉ w.pool.shards
  new : ∀ s, w.listener.newShard? = some s → s ∉ w.pool.shards
  group : ∀ s g, w.group s = some g → s ∈ w.started
  wiring : ∀ s g, w.listener = .wiring s → w.group s = some g → g.sm.forwarder = none

/-- The listener never starts or wires shard 0. -/
theorem PoolInv.ne_zero {w : World} (h : PoolInv w) {s : ShardId}
    (hs : w.listener.newShard? = some s ∨ w.listener = .creating s) : (0 : ShardId) ≠ s := by
  rintro rfl
  rcases hs with hs | hs
  · exact h.new 0 hs h.zero
  · exact h.creating 0 hs h.zero

/-- A group is only started where there is none. -/
theorem PoolInv.unreplaced {w : World} (h : PoolInv w) {s : ShardId} (hl : w.listener = .creating s) :
    w.group s = none := by
  rw [Option.eq_none_iff_forall_ne_some]
  intro g hg
  rcases (h.started s).mp (h.group s g hg) with hs | hs
  · exact h.creating s hl hs
  · rw [hl] at hs
    cases hs

theorem PoolInv.start : PoolInv World.start where
  zero := List.mem_singleton_self 0
  nodup := List.nodup_singleton 0
  started s := by simp [World.started, World.start, RaftPool.new, ListenerPc.newShard?]
  creating s h := by cases h
  new s h := by cases h
  group s g h := by cases h
  wiring s g h := by cases h

/-- Moves of one group. -/
theorem PoolInv.setGroup {w w' : World} (h : PoolInv w) {s : ShardId} {g : Group}
    (hgroup : w'.group = Function.update w.group s (some g)) (hpool : w'.pool = w.pool)
    (hlistener : w'.listener = w.listener) (hattempts : w'.attempts = w.attempts)
    (hs : s ∈ w.started) (hforwarder : w.listener = .wiring s → g.sm.forwarder = none) : PoolInv w' := by
  have hstarted : w'.started = w.started := by rw [World.started, World.started, hattempts]
  refine ⟨hpool ▸ h.zero, hstarted ▸ h.nodup, ?_, ?_, ?_, ?_, ?_⟩
  · intro t
    rw [hstarted, hpool, hlistener]
    exact h.started t
  · rw [hlistener, hpool]
    exact h.creating
  · rw [hlistener, hpool]
    exact h.new
  · intro t g' hg'
    rw [hstarted]
    rw [hgroup] at hg'
    by_cases ht : t = s
    · exact ht ▸ hs
    · rw [Function.update_of_ne ht] at hg'
      exact h.group t g' hg'
  · intro t g' ht hg'
    rw [hlistener] at ht
    rw [hgroup] at hg'
    by_cases hts : t = s
    · subst hts
      rw [Function.update_self, Option.some.injEq] at hg'
      exact hg' ▸ hforwarder ht
    · rw [Function.update_of_ne hts] at hg'
      exact h.wiring t g' ht hg'

/-- Moves of the listener that start nothing. -/
theorem PoolInv.setListener {w w' : World} (h : PoolInv w) (hnew : w.listener.newShard? = none)
    (hgroup : w'.group = w.group) (hshards : w'.pool.shards = w.pool.shards)
    (hstarted : w'.started = w.started) (hnew' : w'.listener.newShard? = none)
    (hcreating : ∀ s, w'.listener = .creating s → s ∉ w.pool.shards) : PoolInv w' := by
  refine ⟨hshards ▸ h.zero, hstarted ▸ h.nodup, ?_, ?_, ?_, ?_, ?_⟩
  · intro s
    rw [hstarted, hshards, hnew', h.started s, hnew]
  · rw [hshards]
    exact hcreating
  · intro s hs
    rw [hnew'] at hs
    cases hs
  · rw [hgroup, hstarted]
    exact h.group
  · intro s g hs
    rw [hs] at hnew'
    cases hnew'

theorem act_forwarder_none {shardId : ShardId} {g : Group} (h : g.sm.forwarder = none) (a : Action) :
    (g.act shardId a).sm.forwarder = none := by
  cases a with
  | dispatch cmd msg | replay cmd =>
    simp only [Group.act, Group.sendConfig]
    split <;> exact h
  | forward msg =>
    simp only [Group.act, Group.sendForward]
    split
    · simp [StateMachineStore.sendForwarder, h]
    · exact h
  | _ => exact h

theorem mem_insertShard {pool : RaftPool} {s t : ShardId} :
    t ∈ (insertShard pool s).shards ↔ t ∈ pool.shards ∨ t = s := by
  unfold insertShard
  split
  · rename_i hs
    constructor
    · exact Or.inl
    · rintro (h | rfl)
      · exact h
      · exact hs
  · simp

/-- **Every move keeps track of what has been started.** -/
theorem pool_step {w w' : World} {l : Label} (hinv : PoolInv w) (h : step nodeId J K w l = some w') :
    PoolInv w' := by
  have hzero : 0 ∈ w.started := List.mem_cons_self
  have hwiring : ∀ s, w.listener = .wiring s → s ≠ 0 := by
    rintro s hs rfl
    exact hinv.new 0 (by rw [hs]; rfl) hinv.zero
  cases step_effect h with
  | bootCreate hboot => exact hinv.setGroup rfl rfl rfl rfl hzero fun hl => absurd rfl (hwiring 0 hl)
  | bootConfig hboot hg => exact hinv.setGroup rfl rfl rfl rfl hzero fun hl => absurd rfl (hwiring 0 hl)
  | bootForwarder hboot hg => exact hinv.setGroup rfl rfl rfl rfl hzero fun hl => absurd rfl (hwiring 0 hl)
  | bootListener hboot =>
    exact ⟨hinv.zero, hinv.nodup, hinv.started, hinv.creating, hinv.new, hinv.group, hinv.wiring⟩
  | call hl horder hg hidle =>
    refine hinv.setGroup rfl rfl rfl rfl (hinv.group _ _ hg) ?_
    intro hw
    have hnone := hinv.wiring _ _ hw hg
    exact hnone
  | act hg htodo =>
    rename_i s g a rest
    refine hinv.setGroup rfl rfl rfl rfl (hinv.group s g hg) ?_
    intro hw
    have hnone := hinv.wiring s g hw hg
    exact act_forwarder_none (g := { g with todo := rest }) hnone a
  | receive hboot hidle hg hqueue =>
    refine PoolInv.setListener (w := { w.setGroup 0 _ with listener := .idle }) ?_ rfl rfl rfl rfl rfl ?_
    · exact hinv.setGroup rfl rfl hidle.symm rfl hzero fun hl => absurd rfl (hwiring 0 hl)
    · intro s hs
      cases hs
  | present hl hs =>
    refine hinv.setListener (by rw [hl]; rfl) rfl rfl rfl rfl ?_
    intro s hs
    cases hs
  | absent hl hs =>
    refine hinv.setListener (by rw [hl]; rfl) rfl rfl rfl rfl ?_
    intro s' hs'
    cases hs'
    exact hs
  | route hl hcmd =>
    refine hinv.setListener (by rw [hl]; rfl) rfl ?_ rfl rfl ?_
    · exact RaftPool.handleShardConfig_shards hcmd true w.pool
    · intro s hs
      cases hs
  | createOk hl =>
    rename_i s
    have hstarted : World.started { w.setGroup s Group.new with
        attempts := w.attempts ++ [(s, true)], listener := .wiring s } = w.started ++ [s] := by
      simp [World.started]
    have hnot : s ∉ w.started := by
      rw [hinv.started s, hl]
      rintro (hs | hs)
      · exact hinv.creating s hl hs
      · cases hs
    refine ⟨hinv.zero, ?_, ?_, ?_, ?_, ?_, ?_⟩
    · rw [hstarted]
      exact List.nodup_append.mpr ⟨hinv.nodup, List.nodup_singleton s, by
        intro a ha b hb
        rw [List.mem_singleton] at hb
        subst hb
        rintro rfl
        exact hnot ha⟩
    · intro t
      rw [hstarted, List.mem_append, List.mem_singleton, hinv.started t, hl]
      simp [ListenerPc.newShard?, eq_comm]
    · intro t ht
      cases ht
    · intro t ht
      cases ht
      exact hinv.creating s hl
    · intro t g hg
      rw [hstarted, List.mem_append, List.mem_singleton]
      by_cases ht : t = s
      · exact Or.inr ht
      · exact Or.inl (hinv.group t g ((setGroup_of_ne w ht Group.new).symm.trans hg))
    · intro t g ht hg
      cases ht
      obtain rfl : Group.new = g := Option.some.inj ((setGroup_self w s Group.new).symm.trans hg)
      rfl
  | createFail hl =>
    refine hinv.setListener (by rw [hl]; rfl) rfl rfl ?_ rfl ?_
    · simp [World.started]
    · intro s hs
      cases hs
  | wire hl hg =>
    rename_i s g
    refine ⟨hinv.zero, hinv.nodup, ?_, ?_, ?_, ?_, ?_⟩
    · intro t
      have ht := hinv.started t
      rw [hl] at ht
      exact ht
    · intro t ht
      cases ht
    · intro t ht
      cases ht
      exact hinv.new s (by rw [hl]; rfl)
    · intro t g' hg'
      by_cases hts : t = s
      · subst hts
        exact hinv.group t g hg
      · exact hinv.group t g' ((setGroup_of_ne w hts _).symm.trans hg')
    · intro t g' ht
      cases ht
  | insert hl =>
    rename_i s
    refine ⟨mem_insertShard.mpr (Or.inl hinv.zero), hinv.nodup, ?_, ?_, ?_, hinv.group, ?_⟩
    · intro t
      have ht := hinv.started t
      rw [hl] at ht
      rw [mem_insertShard]
      exact ht.trans (by simp [ListenerPc.newShard?, eq_comm])
    · intro t ht
      cases ht
    · intro t ht
      cases ht
    · intro t g ht
      cases ht
  | propose hboot hwrite =>
    exact ⟨hinv.zero, hinv.nodup, hinv.started, hinv.creating, hinv.new, hinv.group, hinv.wiring⟩
  | pass => exact hinv

/-! ## The list, the channel and the map -/

/-- No attempt to create a shard has failed. -/
def World.AllCreated (w : World) : Prop := ∀ attempt ∈ w.attempts, attempt.2 = true

/-- Shard 0 has the given group and channel; the channel, the listener and the map are within the list, and
what the list has is in the map or on its way. -/
structure PipeInv (J : CommandJson) (L : Log) (w : World) (g : Group) (queue : List ShardConfigCommand) :
    Prop where
  booted : w.boot ≠ .fresh ∧ w.boot ≠ .created
  group : w.group 0 = some g
  attached : g.sm.shardConfigTx = some queue
  cut : L.IsCut J (g.todo.foldl (fun inner a => a.onInner inner) g.sm.inner)
  safe : Safe g.sm.inner g.configTx g.todo
  nodup : g.sm.inner.activeShards.Nodup
  channel : ∀ s ∈ createdOf queue, s ∈ g.sm.inner.activeShards
  listener : ∀ s, w.listener.shard? = some s → s ∈ g.sm.inner.activeShards
  pool : ∀ s ∈ w.pool.shards, s = 0 ∨ s ∈ g.sm.inner.activeShards
  cover : w.AllCreated → ∀ s ∈ g.sm.inner.activeShards, s ∈ w.pool.shards ∨
    w.listener.shard? = some s ∨ s ∈ createdOf (queue ++ sends g.configTx g.todo)

/-- Moves that leave shard 0, the map and the listener alone. -/
theorem PipeInv.of_eq {w w' : World} {g : Group} {queue : List ShardConfigCommand} (h : PipeInv J L w g queue)
    (hboot : w'.boot ≠ .fresh ∧ w'.boot ≠ .created) (hgroup : w'.group 0 = w.group 0)
    (hpool : w'.pool.shards = w.pool.shards) (hlistener : w'.listener = w.listener)
    (hattempts : w'.attempts = w.attempts) : PipeInv J L w' g queue where
  booted := hboot
  group := hgroup.trans h.group
  attached := h.attached
  cut := h.cut
  safe := h.safe
  nodup := h.nodup
  channel := h.channel
  listener := by rw [hlistener]; exact h.listener
  pool := by rw [hpool]; exact h.pool
  cover := by
    rw [hpool, hlistener, World.AllCreated, hattempts]
    exact h.cover

/-- Moves of the listener: what it had in hand is now in the map or still in hand, and what is new in the
map or in its hand was in its hand before. -/
theorem PipeInv.setListener {w w' : World} {g : Group} {queue : List ShardConfigCommand}
    (h : PipeInv J L w g queue) (hboot : w'.boot = w.boot) (hgroup : w'.group 0 = w.group 0)
    (hlistener : ∀ s, w'.listener.shard? = some s → w.listener.shard? = some s)
    (hpool : ∀ s ∈ w'.pool.shards, s ∈ w.pool.shards ∨ w.listener.shard? = some s)
    (hkeep : w'.AllCreated → w.AllCreated ∧ (∀ s ∈ w.pool.shards, s ∈ w'.pool.shards) ∧
      ∀ s, w.listener.shard? = some s → s ∈ w'.pool.shards ∨ w'.listener.shard? = some s) :
    PipeInv J L w' g queue where
  booted := by rw [hboot]; exact h.booted
  group := hgroup.trans h.group
  attached := h.attached
  cut := h.cut
  safe := h.safe
  nodup := h.nodup
  channel := h.channel
  listener s hs := h.listener s (hlistener s hs)
  pool s hs := by
    rcases hpool s hs with hs | hs
    · exact h.pool s hs
    · exact Or.inr (h.listener s hs)
  cover hall s hs := by
    obtain ⟨hbefore, hmap, hhand⟩ := hkeep hall
    rcases h.cover hbefore s hs with hin | hin | hin
    · exact Or.inl (hmap s hin)
    · rcases hhand s hin with hin | hin
      · exact Or.inl hin
      · exact Or.inr (Or.inl hin)
    · exact Or.inr (Or.inr hin)

/-- A move of the listener within a command keeps the command's shard in hand. -/
theorem PipeInv.withinCommand {w w' : World} {g : Group} {queue : List ShardConfigCommand}
    (h : PipeInv J L w g queue) (hboot : w'.boot = w.boot) (hgroup : w'.group 0 = w.group 0)
    (hshard : w'.listener.shard? = w.listener.shard?) (hpool : w'.pool = w.pool)
    (hall : w'.AllCreated → w.AllCreated) : PipeInv J L w' g queue := by
  refine h.setListener hboot hgroup (fun s hs => hshard ▸ hs) (fun s hs => Or.inl (hpool ▸ hs)) ?_
  intro hcreated
  refine ⟨hall hcreated, fun s hs => hpool.symm ▸ hs, ?_⟩
  intro s hs
  rw [← hshard] at hs
  exact Or.inr hs

/-- **A section of a call on shard 0.** -/
theorem PipeInv.act {w : World} {g : Group} {queue : List ShardConfigCommand} (h : PipeInv J L w g queue)
    {a : Action} {rest : List Action} (htodo : g.todo = a :: rest) :
    ∃ queue', PipeInv J L (w.setGroup 0 (Group.act 0 { g with todo := rest } a))
      (Group.act 0 { g with todo := rest } a) queue' := by
  obtain ⟨htx, hqueue'⟩ := act_queue 0 (g := { g with todo := rest }) h.attached a
  have hinner := act_inner 0 { g with todo := rest } a
  have htodo' := act_todo 0 { g with todo := rest } a
  have hsafe := h.safe
  have hcut := h.cut
  rw [htodo] at hsafe hcut
  obtain ⟨hkeep, hnodup, hnew, hsent⟩ := hsafe.1.spec h.nodup
  simp only at htx hqueue' hinner htodo'
  refine ⟨queue ++ if g.configTx then a.command?.toList else [], ?_⟩
  constructor
  case booted => exact h.booted
  case group => exact setGroup_self w 0 _
  case attached => exact hqueue'
  case cut =>
    rw [htodo', hinner]
    exact hcut
  case safe =>
    rw [htodo', hinner, htx]
    exact hsafe.2
  case nodup =>
    rw [hinner]
    exact hnodup
  case channel =>
    intro s hs
    rw [hinner]
    refine hkeep s ?_
    rw [createdOf, List.filterMap_append, List.mem_append] at hs
    rcases hs with hs | hs
    · exact h.channel s hs
    · split at hs
      · exact hsent s hs
      · cases hs
  case listener =>
    intro s hs
    rw [hinner]
    exact hkeep s (h.listener s hs)
  case pool =>
    intro s hs
    rw [hinner]
    exact (h.pool s hs).imp_right (hkeep s)
  case cover =>
    intro hall s hs
    rw [hinner] at hs
    rw [htodo', htx]
    rcases hnew s hs with hs | hs
    · rcases h.cover hall s hs with hin | hin | hin
      · exact Or.inl hin
      · exact Or.inr (Or.inl hin)
      · refine Or.inr (Or.inr ?_)
        rw [htodo, sends, ← List.append_assoc] at hin
        exact hin
    · refine Or.inr (Or.inr ?_)
      rw [createdOf, List.filterMap_append]
      exact List.mem_append_right _ hs

/-- **A call starts on shard 0.** -/
theorem PipeInv.call {w : World} {g : Group} {queue : List ShardConfigCommand} (h : PipeInv J L w g queue)
    {actions : List Action} (hidle : g.todo = [])
    (hcut : L.IsCut J (actions.foldl (fun inner a => a.onInner inner) g.sm.inner))
    (hsafe : Safe g.sm.inner g.configTx actions) :
    PipeInv J L (w.setGroup 0 { g with todo := actions }) { g with todo := actions } queue where
  booted := h.booted
  group := setGroup_self w 0 _
  attached := h.attached
  cut := hcut
  safe := hsafe
  nodup := h.nodup
  channel := h.channel
  listener := h.listener
  pool := h.pool
  cover hall s hs := by
    rcases h.cover hall s hs with hin | hin | hin
    · exact Or.inl hin
    · exact Or.inr (Or.inl hin)
    · refine Or.inr (Or.inr ?_)
      rw [hidle, sends, List.append_nil] at hin
      rw [createdOf, List.filterMap_append]
      exact List.mem_append_left _ hin

/-- The listener takes a command. -/
theorem PipeInv.receive {w : World} {g : Group} {cmd : ShardConfigCommand}
    {rest : List ShardConfigCommand} (h : PipeInv J L w g (cmd :: rest)) (hidle : w.listener = .idle) :
    PipeInv J L { w.setGroup 0 { g with sm := { g.sm with shardConfigTx := some rest } } with
        listener := .handling cmd }
      { g with sm := { g.sm with shardConfigTx := some rest } } rest where
  booted := h.booted
  group := setGroup_self w 0 _
  attached := rfl
  cut := h.cut
  safe := h.safe
  nodup := h.nodup
  channel s hs := by
    obtain ⟨cmd', hcmd', hs⟩ := List.mem_filterMap.mp hs
    exact h.channel s (List.mem_filterMap.mpr ⟨cmd', List.mem_cons_of_mem _ hcmd', hs⟩)
  listener s hs := h.channel s (List.mem_filterMap.mpr ⟨cmd, List.mem_cons_self, hs⟩)
  pool := h.pool
  cover hall s hs := by
    rcases h.cover hall s hs with hin | hin | hin
    · exact Or.inl hin
    · rw [hidle] at hin
      cases hin
    · obtain ⟨cmd', hcmd', hs⟩ := List.mem_filterMap.mp hin
      rcases List.mem_cons.mp hcmd' with rfl | hcmd'
      · exact Or.inr (Or.inl hs)
      · exact Or.inr (Or.inr (List.mem_filterMap.mpr ⟨cmd', hcmd', hs⟩))

/-- What openraft does with shard 0: `apply` goes on after `last_applied`, and an installed snapshot was
built from an initial part of the log that is not behind it. -/
def Continues (J : CommandJson) (K : SnapshotCodec) (L : Log) (w : World) : Label → Prop
  | .apply s entries => s = 0 → ∀ g ∈ w.group 0,
      entries <+: L.entries.drop (nextIndex g.sm.inner.lastApplied)
  | .install s snap _ _ => s = 0 → ∀ g ∈ w.group 0, ∃ data ∈ K.fromSlice snap.bytes,
      L.IsCut J data.toInner ∧ nextIndex g.sm.inner.lastApplied ≤ nextIndex data.lastApplied
  | _ => True

/-- Later cuts have the shards of earlier ones, and no cut has a shard twice. -/
theorem isCut_activeShards {inner inner' : StateMachineInner} (h : L.IsCut J inner) (h' : L.IsCut J inner')
    (hle : nextIndex inner.lastApplied ≤ nextIndex inner'.lastApplied) :
    inner.activeShards ⊆ inner'.activeShards ∧ inner'.activeShards.Nodup := by
  obtain ⟨k, hk, rfl⟩ := h
  obtain ⟨k', hk', rfl⟩ := h'
  rw [L.nextIndex_spec J hk, L.nextIndex_spec J hk'] at hle
  refine ⟨?_, Lists.eraseDups_nodup _⟩
  intro s hs
  have htake : (L.entries.take k) <+: (L.entries.take k') := List.take_prefix_take_left hle
  simp only [spec, shardsOf, List.mem_eraseDups] at hs ⊢
  obtain ⟨cmd, hcmd, hs⟩ := List.mem_filterMap.mp hs
  obtain ⟨e, he, hcmd⟩ := List.mem_filterMap.mp hcmd
  exact List.mem_filterMap.mpr ⟨cmd, List.mem_filterMap.mpr ⟨e, htake.subset he, hcmd⟩, hs⟩

/-- **openraft calls shard 0.** -/
theorem PipeInv.continues {w : World} {g : Group} {queue : List ShardConfigCommand}
    (h : PipeInv J L w g queue) {l : Label} {actions : List Action} (hl : l.call? J K = some (0, actions))
    (hcont : Continues J K L w l) (hidle : g.todo = []) :
    PipeInv J L (w.setGroup 0 { g with todo := actions }) { g with todo := actions } queue := by
  have hcut := h.cut
  rw [hidle, List.foldl_nil] at hcut
  cases l with
  | apply s entries =>
    simp only [Label.call?, Option.some.injEq, Prod.mk.injEq] at hl
    obtain ⟨rfl, rfl⟩ := hl
    refine h.call hidle ?_ (safe_apply J _ _ entries)
    obtain ⟨tail, htail⟩ := hcont rfl g h.group
    rw [onInner_apply]
    have hentries : entries = (L.entries.drop (nextIndex g.sm.inner.lastApplied)).take entries.length := by
      rw [← htail, List.take_left]
    rw [hentries]
    exact hcut.foldl _
  | install s snap replayOrder encodeOrder =>
    simp only [Label.call?, Option.some.injEq, Prod.mk.injEq] at hl
    obtain ⟨rfl, rfl⟩ := hl
    obtain ⟨data, hdecode, hdata, hle⟩ := hcont rfl g h.group
    obtain ⟨hsub, hnodup⟩ := isCut_activeShards hcut hdata hle
    refine h.call hidle ?_ (safe_install hdecode replayOrder encodeOrder _ hsub hnodup)
    rw [onInner_install hdecode]
    exact hdata
  | _ => cases hl

/-- **Every move keeps the list, the channel and the map together.** -/
theorem pipe_step {w w' : World} {l : Label} (hpool : PoolInv w) (hinv : ∃ g queue, PipeInv J L w g queue)
    (hcont : Continues J K L w l) (h : step nodeId J K w l = some w') :
    ∃ g queue, PipeInv J L w' g queue := by
  obtain ⟨g, queue, hinv⟩ := hinv
  cases step_effect h with
  | bootCreate hboot => exact absurd hboot hinv.booted.1
  | bootConfig hboot hg => exact absurd hboot hinv.booted.2
  | bootForwarder hboot hg =>
    rw [hinv.group, Option.some.injEq] at hg
    subst hg
    exact ⟨_, queue, ⟨⟨nofun, nofun⟩, setGroup_self w 0 _, hinv.attached, hinv.cut, hinv.safe, hinv.nodup,
      hinv.channel, hinv.listener, hinv.pool, hinv.cover⟩⟩
  | bootListener hboot => exact ⟨g, queue, hinv.of_eq ⟨nofun, nofun⟩ rfl rfl rfl rfl⟩
  | call hl horder hg hidle =>
    rename_i s actions g'
    by_cases hs : s = 0
    · subst hs
      rw [hinv.group, Option.some.injEq] at hg
      subst hg
      exact ⟨_, queue, hinv.continues hl hcont hidle⟩
    · exact ⟨g, queue, hinv.of_eq hinv.booted (setGroup_of_ne w (Ne.symm hs) _) rfl rfl rfl⟩
  | act hg htodo =>
    rename_i s g' a rest
    by_cases hs : s = 0
    · subst hs
      rw [hinv.group, Option.some.injEq] at hg
      subst hg
      exact ⟨_, hinv.act htodo⟩
    · exact ⟨g, queue, hinv.of_eq hinv.booted (setGroup_of_ne w (Ne.symm hs) _) rfl rfl rfl⟩
  | receive hboot hidle hg hqueue =>
    rename_i g' cmd rest
    rw [hinv.group, Option.some.injEq] at hg
    subst hg
    rw [hinv.attached, Option.some.injEq] at hqueue
    subst hqueue
    exact ⟨_, rest, hinv.receive hidle⟩
  | present hl hs =>
    refine ⟨g, queue, hinv.setListener rfl rfl (fun _ h => by cases h) (fun _ h => Or.inl h) ?_⟩
    intro hall
    refine ⟨hall, fun _ h => h, ?_⟩
    intro t ht
    rw [hl] at ht
    cases ht
    exact Or.inl hs
  | absent hl hs =>
    refine ⟨g, queue, hinv.withinCommand rfl rfl ?_ rfl id⟩
    rw [hl]
    rfl
  | route hl hcmd =>
    have hshards := RaftPool.handleShardConfig_shards hcmd true w.pool
    refine ⟨g, queue, hinv.setListener rfl rfl (fun _ h => by cases h) ?_ ?_⟩
    · intro t ht
      exact Or.inl (hshards ▸ ht)
    · intro hall
      refine ⟨hall, fun t ht => hshards.symm ▸ ht, ?_⟩
      intro t ht
      rw [hl, ListenerPc.shard?, hcmd] at ht
      cases ht
  | createOk hl =>
    rename_i s
    refine ⟨g, queue, hinv.withinCommand rfl (setGroup_of_ne w (hpool.ne_zero (Or.inr hl)) _) ?_ rfl ?_⟩
    · rw [hl]
      rfl
    · exact fun hall a ha => hall a (List.mem_append_left _ ha)
  | createFail hl =>
    rename_i s
    refine ⟨g, queue, hinv.setListener rfl rfl (fun _ h => by cases h) (fun _ h => Or.inl h) ?_⟩
    -- the failed attempt is on record
    intro hall
    exact absurd (hall (s, false) (List.mem_append_right _ (List.mem_singleton_self _))) (by simp)
  | wire hl hg =>
    rename_i s g'
    have hne := hpool.ne_zero (s := s) (Or.inl (by rw [hl]; rfl))
    refine ⟨g, queue, hinv.withinCommand rfl (setGroup_of_ne w hne _) ?_ rfl id⟩
    rw [hl]
    rfl
  | insert hl =>
    rename_i s
    refine ⟨g, queue, hinv.setListener rfl rfl (fun _ h => by cases h) ?_ ?_⟩
    · intro t ht
      rw [hl]
      exact (mem_insertShard.mp ht).imp_right fun h => by rw [h]; rfl
    · intro hall
      refine ⟨hall, fun t ht => mem_insertShard.mpr (Or.inl ht), ?_⟩
      intro t ht
      rw [hl] at ht
      cases ht
      exact Or.inl (mem_insertShard.mpr (Or.inr rfl))
  | propose hboot hwrite => exact ⟨g, queue, hinv.of_eq hinv.booted rfl rfl rfl rfl⟩
  | pass => exact ⟨g, queue, hinv⟩

/-! ## Main result -/

/-- Shard 0's `active_shards`. -/
def World.activeShards (w : World) : List ShardId :=
  match w.group 0 with
  | some g => g.sm.inner.activeShards
  | none => []

/-- No call runs on shard 0, its config channel is empty and the listener is idle. -/
def World.Quiet (w : World) : Prop :=
  w.listener = .idle ∧ ∀ g ∈ w.group 0, g.todo = [] ∧ g.sm.shardConfigTx = some []

/-- The pool's shards follow the replicated list. -/
structure Follows (w : World) : Prop where
  zero : 0 ∈ w.pool.shards
  subset : ∀ s ∈ w.pool.shards, s = 0 ∨ s ∈ w.activeShards
  nodup : w.activeShards.Nodup
  /-- no shard id is started twice -/
  once : w.started.Nodup
  /-- a shard that is about to be started has no running group -/
  unreplaced : ∀ s, w.listener = .creating s → w.group s = none
  /-- a shard that is about to get its forwarder has none -/
  unwired : ∀ s g, w.listener = .wiring s → w.group s = some g → g.sm.forwarder = none
  equal : w.AllCreated → w.Quiet → ∀ s, s ∈ w.pool.shards ↔ s = 0 ∨ s ∈ w.activeShards

theorem PipeInv.follows {w : World} {g : Group} {queue : List ShardConfigCommand}
    (h : PipeInv J L w g queue) (hpool : PoolInv w) : Follows w := by
  have hactive : w.activeShards = g.sm.inner.activeShards := by
    rw [World.activeShards, h.group]
  refine ⟨hpool.zero, hactive ▸ h.pool, hactive ▸ h.nodup, hpool.nodup, fun _ => hpool.unreplaced,
    hpool.wiring, ?_⟩
  intro hall hquiet s
  obtain ⟨htodo, hqueue⟩ := hquiet.2 g h.group
  rw [h.attached, Option.some.injEq] at hqueue
  refine ⟨hactive ▸ h.pool s, ?_⟩
  rintro (rfl | hs)
  · exact hpool.zero
  · rw [hactive] at hs
    rcases h.cover hall s hs with hin | hin | hin
    · exact hin
    · rw [hquiet.1] at hin
      cases hin
    · rw [hqueue, htodo] at hin
      cases hin

theorem PipeInv.attached_start : PipeInv J L World.attached
    { Group.new with sm := StateMachineStore.new.setShardConfigTx } [] where
  booted := ⟨nofun, nofun⟩
  group := setGroup_self World.start 0 _
  attached := rfl
  cut := Log.IsCut.new L J
  safe := trivial
  nodup := List.nodup_nil
  channel s hs := by cases hs
  listener s hs := by cases hs
  pool s hs := Or.inl (List.mem_singleton.mp hs)
  cover _ s hs := by cases hs

/-- **The map only grows.** -/
theorem step_shards {w w' : World} {l : Label} (h : step nodeId J K w l = some w') {s : ShardId}
    (hs : s ∈ w.pool.shards) : s ∈ w'.pool.shards := by
  cases step_effect h with
  | route hl hcmd =>
    rename_i cmd
    cases cmd with
    | createShard s => cases hcmd
    | addRoute moduleName shardId => exact hs
    | removeRoute moduleName => exact hs
  | insert hl => exact mem_insertShard.mpr (Or.inl hs)
  | _ => exact hs

/-- **The pool's shards follow the replicated list.**  In every run from the point where shard 0's config
channel is attached, whatever the pace of the listener and whichever creations fail: shard 0 is in the
map, the map is within the list, no shard is started or wired twice and the list has no duplicate, in
every state; and with no failed creation map and list are equal in every quiet state.  The map only
grows. -/
theorem shards_follow_list {ls : List Label}
    (hrun : Runs.Along (step nodeId J K) (Continues J K L) World.attached ls) :
    Runs.Throughout (step nodeId J K) Follows World.attached ls ∧
      ∀ before after w w', ls = before ++ after →
        Runs.exec (step nodeId J K) World.attached before = some w →
        Runs.exec (step nodeId J K) w after = some w' →
        ∀ s ∈ w.pool.shards, s ∈ w'.pool.shards := by
  have hpool : PoolInv World.attached := by
    have hboot : Runs.exec (step nodeId J K) World.start [.boot, .boot] = some World.attached :=
      exec_attached
    exact Runs.exec_inv (fun _ _ _ hinv h => pool_step hinv h) PoolInv.start hboot
  refine ⟨?_, ?_⟩
  · have hinv := Runs.throughout_of_along (I := fun w => PoolInv w ∧ ∃ g queue, PipeInv J L w g queue)
      (fun _ _ _ hinv hcont h => ⟨pool_step hinv.1 h, pipe_step hinv.1 hinv.2 hcont h⟩)
      ⟨hpool, _, [], PipeInv.attached_start⟩ hrun
    refine hinv.imp ?_
    rintro w ⟨hpool, g, queue, hpipe⟩
    exact hpipe.follows hpool
  · intro before after w w' _ _ hexec s hs
    exact Runs.exec_inv (I := fun w => s ∈ w.pool.shards) (fun _ _ _ hin h => step_shards h hin) hs hexec

/-! ## A shard is created -/

/-- Shard 1 is created, and created again. -/
def shardCreated : Log :=
  Log.ofPayloads ⟨1, 1⟩
    [.normal ⟨encodeShardConfig commandJson (.createShard 1), 1⟩,
      .normal ⟨encodeShardConfig commandJson (.createShard 1), 1⟩]

/-- The node applies both commands before its listener takes the first. -/
def createOnce : List Label :=
  List.append (.apply 0 shardCreated.entries :: List.replicate 10 (.act 0))
    [.boot, .boot, .receive, .handle, .create true, .wire, .insert, .receive, .handle]

/-- Shard 1 is started once, and then map and list agree. -/
theorem created_once :
    ∃ w, Runs.exec (step 1 commandJson snapshotJson) World.attached createOnce = some w ∧
      w.pool.shards = [0, 1] ∧ w.activeShards = [1] ∧ w.started = [0, 1] ∧
      Runs.Throughout (step 1 commandJson snapshotJson) Follows World.attached createOnce := by
  obtain ⟨w, h, hshards, hactive, hstarted⟩ : ∃ w,
      Runs.exec (step 1 commandJson snapshotJson) World.attached createOnce = some w ∧
      w.pool.shards = [0, 1] ∧ w.activeShards = [1] ∧ w.started = [0, 1] :=
    Runs.exists_exec (by decide +kernel)
  refine ⟨w, h, hshards, hactive, hstarted, (shards_follow_list (L := shardCreated) ?_).1⟩
  refine ⟨?_, fun t _ => Runs.along_of_forall ?_⟩
  · intro _ g hg
    cases hg
    exact List.prefix_rfl
  · intro l hl s
    rcases List.mem_append.mp hl with hl | hl
    · rw [List.eq_of_mem_replicate hl]
      exact trivial
    · simp only [List.mem_cons, List.not_mem_nil, or_false] at hl
      rcases hl with rfl | rfl | rfl | rfl | rfl | rfl | rfl | rfl | rfl <;> exact trivial

end RaftTimeDB.Node
