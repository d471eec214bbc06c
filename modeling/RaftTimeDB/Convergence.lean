import RaftTimeDB.Ordering
import RaftTimeDB.OwnWrites

/-!
# The databases follow the log

What the cluster is for: every node's SpacetimeDB executes the committed writes of a shard, in log
order, so that databases which execute writes deterministically stay equal.  Three things can go
wrong on the way from the log to a database: a write overtakes another one (`InTurn`), a handler
loses a write of its own client (`LosesNoWrite`), or a node drops a write of another node
(`DropsNoForeign`: its forwarder fails to send it, its state machine applies it with no forwarder
attached, or a snapshot jumps over it).  A fourth is that the write goes to another module of the
same shard (`AtHome` excludes it).  SpacetimeDB keeps one database for each module, so two shards must
not share a module either.

`databases_follow_log` — in every run without such a move, a node that is past position `k` of a
shard's log has executed, in the database of the shard's module, exactly the writes before `k`, in log
order, then later ones; so nodes that have caught up have equal databases, whatever the reducers do.
-/

set_option autoImplicit false

namespace RaftTimeDB.Cluster

open JsonFormats (commandJson snapshotJson)

variable {J : CommandJson} {K : SnapshotCodec}

/-! ## The purpose -/

/-- The writes of a log, as the raw messages to execute. -/
def writesOf (log : List Entry) : List Bytes := (log.filterMap Entry.forward?).map (·.rawMessage)

/-- The payload of a write that reached a node for a shard. -/
def Delivery.writeFor (n : NodeId) (s : ShardId) (d : Delivery) : Option Bytes :=
  match d.message with
  | .binary data =>
      if d.node = n ∧ d.shard = s ∧ classifyMessage d.message = .write then some data else none
  | _ => none

/-- The writes of a shard that the SpacetimeDB of a node has received, in order. -/
def received (n : NodeId) (s : ShardId) (sent : List Delivery) : List Bytes :=
  sent.filterMap (Delivery.writeFor n s)

/-- The payload of a write that reached the database of a module on a node, whatever shard it came
through. -/
def Delivery.writeInto (n : NodeId) (name : String) (d : Delivery) : Option Bytes :=
  match d.message with
  | .binary data =>
      if d.node = n ∧ extractModuleName d.path = some name ∧ classifyMessage d.message = .write then
        some data
      else none
  | _ => none

/-- The writes that the database of a module on a node has executed, in order. -/
def executed (n : NodeId) (name : String) (sent : List Delivery) : List Bytes :=
  sent.filterMap (Delivery.writeInto n name)

section

variable {D : Type*} (reduce : D → Bytes → D) (init : D)

/-- The database of a module on a node: SpacetimeDB keeps one for each module. -/
def database (n : NodeId) (name : String) (sent : List Delivery) : D :=
  (executed n name sent).foldl reduce init

/-- The database a log stands for. -/
def image (log : List Entry) : D := (writesOf log).foldl reduce init

end

/-- A node is past position `k` of a shard's log: the entries before `k` are applied, no foreign one
of them is left on the forwarder channel, and no handler holds one. -/
structure Core.Passed (x : Core) (n : NodeId) (s : ShardId) (k : Nat) : Prop where
  applied : k ≤ (x.state (n, s)).applied
  queue : ∀ m ∈ (x.state (n, s)).queue, m.originNodeId ≠ n → k ≤ m.logIndex
  held : ∀ c j, x.Holds c n s j → k ≤ j

/-! ## Runs in which nothing goes wrong -/

/-- A move drops no write of another node. -/
def DropsNoForeign (K : SnapshotCodec) (w : World) : Label → Prop
  | .forward n s (.recv false) =>
      ∀ msg rest, (w.state (n, s)).queue = msg :: rest → msg.originNodeId = n
  | .apply n s count =>
      (w.state (n, s)).stateMachine.forwarder.isSome = true ∨
        ∀ j, (w.state (n, s)).applied ≤ j → j < (w.state (n, s)).applied + count →
          ¬ w.core.Foreign n s j
  | .install n s _ _ snap => ∀ data, K.fromSlice snap.bytes = some data →
      nextIndex data.lastApplied ≤ (w.log s).length ∧
        ∀ j, (w.state (n, s)).applied ≤ j → j < nextIndex data.lastApplied → ¬ w.core.Foreign n s j
  | _ => True

/-- Clients of a shard all use its one module. -/
def AtHome (home : ShardId → String) (w : World) : Label → Prop
  | .accept _ n path => extractModuleName path = some (home ((w.pool n).router.shardOfPath path))
  | _ => True

/-- A move at which nothing goes wrong. -/
structure Smooth (K : SnapshotCodec) (home : ShardId → String) (w : World) (l : Label) : Prop where
  inTurn : InTurn w l
  loses : LosesNoWrite w l
  drops : DropsNoForeign K w l
  atHome : AtHome home w l

/-! ## Every write in the log is a proposal -/

structure Logged (x : Core) : Prop where
  write : ∀ p prop, x.props p = some prop → classifyMessage (.binary prop.data) = .write
  proposed : ∀ s i e m, (x.log s)[i]? = some e → e.forward? = some m →
    ∃ p prop, x.props p = some prop ∧ x.entry p = some i ∧ prop.shard = s ∧
      prop.node = m.originNodeId

theorem Logged.start : Logged World.start.core := by
  refine ⟨fun p prop h => ?_, fun s i e m h => ?_⟩
  · cases h
  · simp [World.core, World.start] at h

/-- A move that keeps logs, proposals and entries. -/
theorem Logged.congr {x x' : Core} (h : Logged x) (hlog : x'.log = x.log) (hprops : x'.props = x.props)
    (hentry : x'.entry = x.entry) : Logged x' := by
  refine ⟨?_, ?_⟩
  · rw [hprops]
    exact h.write
  · rw [hlog, hprops, hentry]
    exact h.proposed

theorem logged_effect {w : World} {l : Label} {x : Core} (heff : Effect w l x) (h : Logged w.core) :
    Logged x := by
  cases heff with
  | @propose c p conn data hconn hpc hnew hentry hwrite =>
    refine ⟨?_, ?_⟩
    · intro q prop hq
      by_cases hqp : q = p
      · subst hqp
        simp only [Function.update_self, Option.some.injEq] at hq
        subst hq
        exact hwrite
      · simp only [Function.update_of_ne hqp] at hq
        exact h.write q prop hq
    · intro s i e m he hforward
      obtain ⟨q, prop, hq, hi, hshard, hnode⟩ := h.proposed s i e m he hforward
      have hqp : q ≠ p := by
        rintro rfl
        rw [show w.core.props q = none from hnew] at hq
        cases hq
      exact ⟨q, prop, (Function.update_of_ne hqp _ _).trans hq, hi, hshard, hnode⟩
  | @commit p prop leaderId hprop hentry =>
    refine ⟨h.write, ?_⟩
    intro s i e m he hforward
    rcases getElem?_appendEntry he with hold | ⟨rfl, rfl, rfl⟩
    · obtain ⟨q, prop', hq, hi, hshard, hnode⟩ := h.proposed s i e m hold hforward
      have hqp : q ≠ p := by
        rintro rfl
        rw [show w.core.entry q = none from hentry] at hi
        cases hi
      exact ⟨q, prop', hq, (Function.update_of_ne hqp _ _).trans hi, hshard, hnode⟩
    · refine ⟨p, prop, hprop, Function.update_self _ _ _, rfl, ?_⟩
      have horigin := forward?_origin hforward
      rw [EntryPayload.normal.injEq] at horigin
      exact congrArg ReducerCallRequest.originNodeId horigin
  | @commitOther s' leaderId payload hpayload =>
    refine ⟨h.write, ?_⟩
    intro s i e m he hforward
    rcases getElem?_appendEntry he with hold | ⟨_, _, rfl⟩
    · exact h.proposed s i e m hold hforward
    · rw [hpayload] at hforward
      cases hforward
  | _ => exact h.congr rfl rfl rfl

/-! ## Foreign writes -/

/-- A shard state that stays at its position. -/
theorem applied_update {state : NodeId × ShardId → ShardState} {k : NodeId × ShardId} {st : ShardState}
    (h : st.applied = (state k).applied) (k' : NodeId × ShardId) :
    (Function.update state k st k').applied = (state k').applied := by
  by_cases hk : k' = k
  · rw [hk, Function.update_self, h]
  · rw [Function.update_of_ne hk]

/-- The position of a shard state moves in two kinds of moves only. -/
theorem step_applied {w w' : World} {l : Label} (h : step J K w l = some w') (n : NodeId)
    (s : ShardId) :
    (w'.state (n, s)).applied = (w.state (n, s)).applied ∨
    (∃ count, l = .apply n s count ∧ w'.state (n, s) =
      { w.state (n, s) with
        stateMachine := ((w.state (n, s)).stateMachine.apply J
          (((w.log s).drop (w.state (n, s)).applied).take count)).1 }) ∨
    ∃ replayOrder encodeOrder snap data sm, l = .install n s replayOrder encodeOrder snap ∧
      K.fromSlice snap.bytes = some data ∧ sm.inner = data.toInner ∧
      w'.state (n, s) = { w.state (n, s) with stateMachine := sm } := by
  cases l with
  | broadcast c =>
    refine Or.inl ?_
    simp only [step] at h
    split at h
    · split at h
      · cases h
        refine applied_update ?_ (n, s)
        rfl
      · cases h
        rfl
    · cases h
  | attach n' s' =>
    refine Or.inl ?_
    simp only [step] at h
    split at h
    · cases h
      refine applied_update ?_ (n, s)
      rfl
    · cases h
  | apply n' s' count =>
    simp only [step, Option.some.injEq] at h
    subst h
    by_cases hk : (n, s) = (n', s')
    · obtain ⟨rfl, rfl⟩ := Prod.mk.inj hk
      exact Or.inr (Or.inl ⟨count, rfl, Function.update_self _ _ _⟩)
    · exact Or.inl (by simp [World.setState, Function.update_of_ne hk])
  | install n' s' replayOrder encodeOrder snap =>
    simp only [step] at h
    split at h
    · rename_i sm hsm
      split at h
      · cases h
        by_cases hk : (n, s) = (n', s')
        · obtain ⟨rfl, rfl⟩ := Prod.mk.inj hk
          simp only [StateMachineStore.installSnapshot] at hsm
          split at hsm
          · cases hsm
          · rename_i data hdata
            cases hsm
            exact Or.inr (Or.inr ⟨replayOrder, encodeOrder, snap, data, _, rfl, hdata, rfl,
              Function.update_self _ _ _⟩)
        · exact Or.inl (by simp [World.setState, Function.update_of_ne hk])
      · cases h
    · cases h
  | forward n' s' event =>
    refine Or.inl ?_
    simp only [step] at h
    split at h
    · split at h
      · cases h
        refine applied_update ?_ (n, s)
        rfl
      · cases h
    · cases h
  | accept c n' path | upstream c ok | close c | commitOther s' leaderId payload =>
    simp only [step] at h
    split at h <;> cases h
    exact Or.inl rfl
  | recv c msg p =>
    simp only [step] at h
    split at h
    · split at h
      · split at h
        · split at h <;> cases h
          exact Or.inl rfl
        · cases h
          exact Or.inl rfl
      · cases h
        exact Or.inl rfl
    · cases h
  | clientWrite c result =>
    simp only [step] at h
    split at h
    · split at h
      · split at h
        · split at h <;> cases h <;> exact Or.inl rfl
        · cases h
      · cases h
    · cases h
  | response c | postFail c | send c ok | postDelivered p found | served p result =>
    simp only [step] at h
    split at h
    · split at h <;> cases h <;> exact Or.inl rfl
    · cases h
  | commit p leaderId =>
    simp only [step] at h
    split at h <;> cases h
    exact Or.inl rfl
  | outboundEnd c | config n' created cmd =>
    cases h
    exact Or.inl rfl

/-- A segment that starts right after the last applied entry moves the position by its length. -/
theorem nextIndex_segment (L : Log) {a : Nat} {last : Option LogId} (hlast : nextIndex last = a)
    (count : Nat) :
    nextIndex ((lastLogId ((L.entries.drop a).take count)).or last) =
      a + ((L.entries.drop a).take count).length := by
  rcases List.eq_nil_or_concat ((L.entries.drop a).take count) with hnil | ⟨init, e, hseg⟩
  · rw [hnil, lastLogId_nil, Option.none_or, hlast]
    rfl
  · have hlast? : lastLogId ((L.entries.drop a).take count) = some e.logId := by
      rw [hseg, List.concat_eq_append, lastLogId_snoc]
    have hget : ((L.entries.drop a).take count)[init.length]? = some e := by
      rw [hseg, List.concat_eq_append, List.getElem?_append_right (Nat.le_refl _), Nat.sub_self]
      rfl
    have hindex : e.logId.index = a + init.length := by
      rw [List.getElem?_take] at hget
      split at hget
      · rw [List.getElem?_drop] at hget
        exact L.index_eq _ e hget
      · cases hget
    rw [hlast?, Option.some_or, nextIndex_some, hindex, hseg, List.concat_eq_append,
      List.length_append]
    rfl

/-- Every foreign write behind a node's position was sent by its forwarder or is on the channel. -/
structure Complete (x : Core) : Prop where
  bounded : ∀ n s, (x.state (n, s)).applied ≤ (x.log s).length
  foreign : ∀ n s j, x.Foreign n s j → j < (x.state (n, s)).applied → j ∈ x.handed n s

theorem Complete.start : Complete World.start.core := by
  refine ⟨fun n s => Nat.le_refl _, fun n s j h => ?_⟩
  obtain ⟨e, m, he, _⟩ := h
  simp [World.core, World.start] at he

/-- Logs only grow, and entries stay where they are. -/
theorem log_effect {w : World} {l : Label} {x : Core} (heff : Effect w l x) (s : ShardId) :
    w.log s <+: x.log s := by
  have happend : ∀ s' leaderId payload, w.log s <+: appendEntry w.log s' leaderId payload s := by
    intro s' leaderId payload
    by_cases hs : s = s'
    · subst hs
      simp [appendEntry]
    · simp [appendEntry, Function.update_of_ne hs]
  cases heff with
  | commit _ _ => exact happend _ _ _
  | commitOther _ => exact happend _ _ _
  | _ => exact List.prefix_rfl

/-- A foreign entry at a position that the log already had was foreign before. -/
theorem foreign_of_lt {w : World} {l : Label} {x : Core} (heff : Effect w l x) {n : NodeId}
    {s : ShardId}
    {j : Nat} (h : x.Foreign n s j) (hj : j < (w.log s).length) : w.core.Foreign n s j := by
  obtain ⟨e, m, he, hforward, horigin⟩ := h
  have hold := Lists.getElem?_of_initial (log_effect heff s) (List.getElem?_eq_getElem hj)
  rw [he, Option.some.injEq] at hold
  subst hold
  exact ⟨_, m, List.getElem?_eq_getElem hj, hforward, horigin⟩

/-- The message a forwarder takes off its channel for a foreign write is sent. -/
theorem handed_recv {w : World} (hinv : Inv w) {n : NodeId} {s : ShardId} {sendOk : Bool}
    {queue : List ForwarderMsg} {r : ForwarderResult}
    (hqueue : (w.state (n, s)).queue = queue)
    (hr : (w.state (n, s)).task.step n queue (.recv sendOk) = some r)
    (hdrops : DropsNoForeign K w (.forward n s (.recv sendOk))) {m : ForwarderMsg} (hm : m ∈ queue)
    (hforeign : w.core.Foreign n s m.logIndex) :
    (∃ path, (path, m) ∈ r.sent) ∨ m ∈ r.queue := by
  obtain ⟨dbPath, msg, rest, _, rfl, hrest, hcases⟩ := Forwarder.step_recv_cases hr
  rcases List.mem_cons.mp hm with rfl | htail
  · have horigin : m.originNodeId ≠ n := by
      obtain ⟨e, he, hforward⟩ := hinv.forwarders.queued n s m (by
        rw [show w.core.state = w.state from rfl, hqueue]; exact List.mem_cons_self)
      obtain ⟨e', m', he', hforward', hne⟩ := hforeign
      rw [he, Option.some.injEq] at he'
      subst he'
      rw [hforward, Option.some.injEq] at hforward'
      rw [hforward']
      exact hne
    rcases hcases with ⟨hown, _⟩ | ⟨_, _, _, rfl⟩ | ⟨_, hsent, _⟩
    · exact absurd hown horigin
    · exact absurd (hdrops m rest hqueue) horigin
    · exact Or.inl ⟨dbPath, hsent⟩
  · rw [hrest]
    exact Or.inr htail

/-- **What a forwarder has taken on is kept**: the only message that leaves the channel unsent is
one of the node itself. -/
theorem handed_effect {w : World} {l : Label} {x : Core} (heff : Effect w l x) (hinv : Inv w)
    (hdrops : DropsNoForeign K w l) {n : NodeId} {s : ShardId} {j : Nat}
    (hforeign : w.core.Foreign n s j) (h : j ∈ w.core.handed n s) : j ∈ x.handed n s := by
  cases heff with
  | @broadcast c conn hconn hpc =>
    by_cases hk : (n, s) = (conn.node, conn.shard)
    · obtain ⟨rfl, rfl⟩ := Prod.mk.inj hk
      simpa [Core.handed, World.core, ShardState.queue] using h
    · simpa [Core.handed, World.core, Function.update_of_ne hk] using h
  | send hconn hpc => simpa [Core.handed, sentBy_snoc, Delivery.entryBy, World.core] using h
  | @advance _ n' s' st _ _ hst =>
    by_cases hk : (n, s) = (n', s')
    · obtain ⟨rfl, rfl⟩ := Prod.mk.inj hk
      obtain ⟨new, hqueue, _⟩ := hst.queue
      simp only [Core.handed, Function.update_self, hqueue, List.map_append, ← List.append_assoc]
      exact List.mem_append_left _ h
    · simpa [Core.handed, World.core, Function.update_of_ne hk] using h
  | @forward n' s' event queue r hqueue hr =>
    rw [Core.handed, List.mem_append] at h ⊢
    rcases h with hsent | hqueued
    · refine Or.inl ?_
      rw [sentBy, List.filterMap_append]
      exact List.mem_append_left _ hsent
    · by_cases hk : (n, s) = (n', s')
      · obtain ⟨rfl, rfl⟩ := Prod.mk.inj hk
        have hqueue' : (w.state (n, s)).queue = queue := by simp [ShardState.queue, hqueue]
        obtain ⟨m, hm, rfl⟩ := List.mem_map.mp hqueued
        rw [show w.core.state = w.state from rfl, hqueue'] at hm
        have hkept : (∃ path, (path, m) ∈ r.sent) ∨ m ∈ r.queue := by
          by_cases hev : ∃ sendOk, event = .recv sendOk
          · obtain ⟨sendOk, rfl⟩ := hev
            exact handed_recv hinv hqueue' hr hdrops hm hforeign
          · obtain ⟨hrest, _⟩ := Forwarder.step_other hr fun sendOk heq => hev ⟨sendOk, heq⟩
            rw [hrest]
            exact Or.inr hm
        rcases hkept with ⟨path, hsent⟩ | hrest
        · refine Or.inl (mem_sentBy.mpr
            ⟨⟨n, s, .forwarder, path, .binary m.rawMessage, some m.logIndex⟩,
              List.mem_append_right _ (List.mem_map.mpr ⟨(path, m), ?_, rfl⟩), rfl, rfl, rfl, rfl⟩)
          exact Option.mem_toList.mpr hsent
        · refine Or.inr ?_
          simp only [Function.update_self, ShardState.queue, Option.getD_some]
          exact List.mem_map_of_mem hrest
      · refine Or.inr ?_
        simpa [World.core, Function.update_of_ne hk] using hqueued
  | _ => exact h

section

variable {w w' : World} {n : NodeId} {s : ShardId} {j : Nat}

/-- `apply` moves the position by the entries it is given. -/
theorem applied_apply (hinv : Inv w) {count : Nat} (h : w'.state (n, s) =
      { w.state (n, s) with
        stateMachine := ((w.state (n, s)).stateMachine.apply J
          (((w.log s).drop (w.state (n, s)).applied).take count)).1 }) :
    (w'.state (n, s)).applied = (w.state (n, s)).applied +
      (((w.log s).drop (w.state (n, s)).applied).take count).length := by
  have hseg := nextIndex_segment ⟨w.log s, hinv.net.index s⟩
    (show nextIndex (w.state (n, s)).stateMachine.inner.lastApplied =
      (w.state (n, s)).applied from rfl)
    count
  rw [h, ← hseg, ← foldl_applyInner_lastApplied J, StateMachineStore.apply_spec]
  rfl

/-- With a forwarder attached, `apply` puts every foreign write it passes on the channel. -/
theorem handed_apply (hinv : Inv w) {count : Nat} (h : w'.state (n, s) =
      { w.state (n, s) with
        stateMachine := ((w.state (n, s)).stateMachine.apply J
          (((w.log s).drop (w.state (n, s)).applied).take count)).1 })
    (hattached : (w.state (n, s)).stateMachine.forwarder.isSome = true)
    (hforeign : w.core.Foreign n s j) (hle : (w.state (n, s)).applied ≤ j)
    (hlt : j < (w.state (n, s)).applied + count) : j ∈ w'.core.handed n s := by
  obtain ⟨e, m, he, hforward, _⟩ := hforeign
  obtain ⟨queue, hqueue⟩ := Option.isSome_iff_exists.mp hattached
  refine List.mem_append_right _ (List.mem_map.mpr ⟨m, ?_, ?_⟩)
  · rw [show w'.core.state = w'.state from rfl, h, StateMachineStore.apply_spec]
    simp only [ShardState.queue, hqueue, Option.map_some, Option.getD_some]
    refine List.mem_append_right _ (List.mem_filterMap.mpr ⟨e, ?_, hforward⟩)
    refine List.mem_iff_getElem?.mpr ⟨j - (w.state (n, s)).applied, ?_⟩
    rw [List.getElem?_take_of_lt (by omega), List.getElem?_drop,
      show (w.state (n, s)).applied + (j - (w.state (n, s)).applied) = j by omega]
    exact he
  · rw [Entry.forward?_logIndex hforward, hinv.net.index s j e he]

end

/-- **A move that drops no foreign write** leaves none behind. -/
theorem complete_step {w w' : World} {l : Label} (hinv : Inv w) (hdrops : DropsNoForeign K w l)
    (h : step J K w l = some w') (hcomplete : Complete w.core) : Complete w'.core := by
  have heff := step_effect hinv.net h
  have hgrow : ∀ s, (w.log s).length ≤ (w'.log s).length := fun s => (log_effect heff s).length_le
  -- what lies behind the old position was taken on before, and is kept
  have hold : ∀ n s j, w'.core.Foreign n s j → j < (w.state (n, s)).applied →
      j ∈ w'.core.handed n s := by
    intro n s j hforeign hj
    have hforeign' := foreign_of_lt heff hforeign (Nat.lt_of_lt_of_le hj (hcomplete.bounded n s))
    exact handed_effect heff hinv hdrops hforeign' (hcomplete.foreign n s j hforeign' hj)
  have hposition : ∀ n s, (w'.state (n, s)).applied ≤ (w'.log s).length ∧
      ∀ j, w'.core.Foreign n s j → (w.state (n, s)).applied ≤ j → j < (w'.state (n, s)).applied →
        j ∈ w'.core.handed n s := by
    intro n s
    have hbounded : (w.state (n, s)).applied ≤ (w.log s).length := hcomplete.bounded n s
    rcases step_applied h n s with hsame | ⟨count, rfl, hstate⟩ |
      ⟨replayOrder, encodeOrder, snap, data, sm, rfl, hdata, hinner, hstate⟩
    · rw [hsame]
      refine ⟨Nat.le_trans hbounded (hgrow s), ?_⟩
      intro j _ hle hlt
      omega
    · simp only [step, Option.some.injEq] at h
      have hlog : w'.log = w.log := by rw [← h]; rfl
      rw [applied_apply hinv hstate, hlog]
      simp only [List.length_take, List.length_drop]
      refine ⟨by omega, ?_⟩
      intro j hforeign hle hlt
      have hforeign' := foreign_of_lt heff hforeign (by omega)
      rcases hdrops with hattached | hnone
      · exact handed_apply hinv hstate hattached hforeign' hle (by omega)
      · exact absurd hforeign' (hnone j hle (by omega))
    · obtain ⟨hlength, hnone⟩ := hdrops data hdata
      have happlied : (w'.state (n, s)).applied = nextIndex data.lastApplied := by
        rw [hstate]
        simp only [ShardState.applied, hinner]
        rfl
      rw [happlied]
      refine ⟨Nat.le_trans hlength (hgrow s), ?_⟩
      intro j hforeign hle hlt
      exact absurd (foreign_of_lt heff hforeign (by omega)) (hnone j hle hlt)
  refine ⟨fun n s => (hposition n s).1, ?_⟩
  intro n s j hforeign hj
  rcases Nat.lt_or_ge j (w.state (n, s)).applied with hlt | hge
  · exact hold n s j hforeign hlt
  · exact (hposition n s).2 j hforeign hge hj

/-! ## One module for each shard -/

/-- An event of the forwarder task leaves the broadcast path alone, and takes note of it only if it
is not empty. -/
theorem step_dbPath {nodeId : NodeId} {f : Forwarder} {queue : List ForwarderMsg} {ev : ForwarderEvent}
    {r : ForwarderResult} (h : f.step nodeId queue ev = some r) :
    r.task.dbPath = f.dbPath ∧ (r.task.pc = .gotPath → f.pc = .gotPath ∨ f.dbPath ≠ "") := by
  cases ev with
  | recv sendOk =>
    obtain ⟨dbPath, msg, rest, hpc, _, _, hcases⟩ := Forwarder.step_recv_cases h
    rcases hcases with ⟨_, _, htask⟩ | ⟨_, _, htask, _⟩ | ⟨_, _, htask⟩ <;> simp [htask, hpc]
  | pathChanged =>
    simp only [Forwarder.step] at h
    split at h
    · cases h
      refine ⟨rfl, ?_⟩
      by_cases hempty : f.dbPath = "" <;> simp [hempty]
    · cases h
  | latch =>
    simp only [Forwarder.step] at h
    split at h <;> cases h
    exact ⟨rfl, fun hpc => by cases hpc⟩
  | connect ok =>
    simp only [Forwarder.step] at h
    split at h <;> cases h
    refine ⟨rfl, fun hpc => ?_⟩
    cases ok <;> cases hpc
  | shutdown =>
    simp only [Forwarder.step, Option.some.injEq] at h
    subst h
    exact ⟨rfl, fun hpc => by cases hpc⟩

/-- Connections, forwarders and deliveries of a shard all keep to its module. -/
structure Housed (home : ShardId → String) (x : Core) : Prop where
  conn : ∀ c conn, x.conns c = some conn → extractModuleName conn.path = some (home conn.shard)
  /-- a path that was broadcast -/
  dbPath : ∀ n s, (x.state (n, s)).task.dbPath ≠ "" ∨ (x.state (n, s)).task.pc = .gotPath →
    extractModuleName (x.state (n, s)).task.dbPath = some (home s)
  latched : ∀ n s path, (x.state (n, s)).task.latched? = some path →
    extractModuleName path = some (home s)
  sent : ∀ d ∈ x.sent, extractModuleName d.path = some (home d.shard)

theorem Housed.start (home : ShardId → String) : Housed home World.start.core := by
  refine ⟨fun c conn h => ?_, fun n s h => ?_, fun n s path h => ?_, fun d h => ?_⟩
  · cases h
  · rcases h with h | h
    · exact absurd rfl h
    · cases h
  · cases h
  · cases h

/-- A move that keeps connections and forwarder tasks, and sends nothing. -/
theorem Housed.congr {home : ShardId → String} {x x' : Core} (h : Housed home x)
    (hconns : x'.conns = x.conns) (htask : ∀ k, (x'.state k).task = (x.state k).task)
    (hsent : x'.sent = x.sent) : Housed home x' := by
  refine ⟨?_, ?_, ?_, ?_⟩
  · rw [hconns]
    exact h.conn
  · intro n s hpath
    rw [htask] at hpath ⊢
    exact h.dbPath n s hpath
  · intro n s path hpath
    rw [htask] at hpath
    exact h.latched n s path hpath
  · rw [hsent]
    exact h.sent

theorem housed_effect {home : ShardId → String} {w : World} {l : Label} {x : Core}
    (heff : Effect w l x) (hhome : AtHome home w l) (h : Housed home w.core) : Housed home x := by
  cases heff with
  | @accept c n path hnew =>
    refine ⟨?_, h.dbPath, h.latched, h.sent⟩
    intro c' conn hconn
    by_cases hc : c' = c
    · subst hc
      simp only [Function.update_self, Option.some.injEq] at hconn
      subst hconn
      exact hhome
    · simp only [Function.update_of_ne hc] at hconn
      exact h.conn c' conn hconn
  | @broadcast c conn hconn hpc =>
    refine ⟨h.conn, ?_, ?_, h.sent⟩
    · intro n s hpath
      by_cases hk : (n, s) = (conn.node, conn.shard)
      · obtain ⟨rfl, rfl⟩ := Prod.mk.inj hk
        simp only [Function.update_self]
        exact h.conn c conn hconn
      · simp only [Function.update_of_ne hk] at hpath ⊢
        exact h.dbPath n s hpath
    · intro n s path hpath
      by_cases hk : (n, s) = (conn.node, conn.shard)
      · obtain ⟨rfl, rfl⟩ := Prod.mk.inj hk
        simp only [Function.update_self, Forwarder.latched?_broadcast] at hpath
        exact h.latched _ _ path hpath
      · simp only [Function.update_of_ne hk] at hpath
        exact h.latched n s path hpath
  | @send c conn msg q hconn hpc =>
    refine ⟨h.conn, h.dbPath, h.latched, ?_⟩
    intro d hd
    rcases List.mem_append.mp hd with hold | hnew
    · exact h.sent d hold
    · rw [List.mem_singleton] at hnew
      subst hnew
      exact h.conn c conn hconn
  | @advance _ n s st _ _ hst =>
    refine h.congr rfl ?_ rfl
    intro k
    by_cases hk : k = (n, s)
    · subst hk
      simp only [Function.update_self]
      exact hst.task
    · simp only [Function.update_of_ne hk]
      rfl
  | @forward n s event queue r hqueue hr =>
    obtain ⟨hdbPath, hgot⟩ := step_dbPath hr
    refine ⟨h.conn, ?_, ?_, ?_⟩
    · intro n' s' hpath
      by_cases hk : (n', s') = (n, s)
      · obtain ⟨rfl, rfl⟩ := Prod.mk.inj hk
        simp only [Function.update_self, hdbPath] at hpath ⊢
        refine h.dbPath _ _ ?_
        rcases hpath with hne | hpc
        · exact Or.inl hne
        · exact (hgot hpc).symm
      · simp only [Function.update_of_ne hk] at hpath ⊢
        exact h.dbPath n' s' hpath
    · intro n' s' path hpath
      by_cases hk : (n', s') = (n, s)
      · obtain ⟨rfl, rfl⟩ := Prod.mk.inj hk
        simp only [Function.update_self] at hpath
        rcases Forwarder.step_latched hr hpath with hold | ⟨rfl, rfl⟩
        · exact h.latched _ _ path hold
        · refine h.dbPath _ _ (Or.inr ?_)
          simp only [Forwarder.step] at hr
          split at hr
          · assumption
          · cases hr
      · simp only [Function.update_of_ne hk] at hpath
        exact h.latched n' s' path hpath
    · intro d hd
      rcases List.mem_append.mp hd with hold | hnew
      · exact h.sent d hold
      · obtain ⟨⟨path, msg⟩, hmsg, rfl⟩ := List.mem_map.mp hnew
        exact h.latched n s path (Forwarder.step_sent hr (Option.mem_toList.mp hmsg)).1
  | _ => exact h.congr rfl (fun _ => rfl) rfl

/-! ## What a node has received -/

/-- What holds in every state of a run in which nothing goes wrong. -/
structure SmoothInv (home : ShardId → String) (w : World) : Prop where
  inv : Inv w
  ordered : Ordered w.core
  noMiss : NoMiss w.core
  logged : Logged w.core
  complete : Complete w.core
  housed : Housed home w.core

theorem SmoothInv.start (home : ShardId → String) : SmoothInv home World.start :=
  ⟨Inv.start, Ordered.start, NoMiss.start, Logged.start, Complete.start, Housed.start home⟩

theorem smooth_step {home : ShardId → String} {w w' : World} {l : Label} (hinv : SmoothInv home w)
    (hsmooth : Smooth K home w l) (h : step J K w l = some w') : SmoothInv home w' := by
  have heff := step_effect hinv.inv.net h
  exact ⟨step_inv hinv.inv h, ordered_effect heff hinv.inv hsmooth.inTurn hinv.ordered,
    (noMiss_effect_iff heff hinv.inv hinv.noMiss).mpr hsmooth.loses, logged_effect heff hinv.logged,
    complete_step hinv.inv hsmooth.drops h hinv.complete,
    housed_effect heff hsmooth.atHome hinv.housed⟩

/-- The message of entry `i` that a forwarder would send. -/
def messageAt (log : List Entry) (i : Nat) : Option ForwarderMsg := log[i]?.bind Entry.forward?

theorem messageAt_eq_some {log : List Entry} {i : Nat} {m : ForwarderMsg} :
    messageAt log i = some m ↔ ∃ e, log[i]? = some e ∧ e.forward? = some m := by
  rw [messageAt, Option.bind_eq_some_iff]

/-- A client's write is not a shard config command, so its entry is forwarded. -/
theorem forward?_of_write {e : Entry} {request : ReducerCallRequest}
    (hpayload : e.payload = .normal request)
    (hwrite : classifyMessage (.binary request.rawMessage) = .write) :
    e.forward? = some ⟨e.logId.index, request.originNodeId, request.rawMessage⟩ := by
  obtain ⟨tag, rest, hdata, htag⟩ := classifyMessage_eq_write_iff.mp hwrite
  rw [Message.binary.injEq] at hdata
  have hhead : request.rawMessage.head? ≠ some SHARD_CONFIG_TAG := by
    rw [hdata, List.head?_cons, ne_eq, Option.some.injEq]
    rintro rfl
    cases htag
  unfold Entry.forward?
  simp only [hpayload]
  rw [if_neg hhead]

section

variable {home : ShardId → String} {w : World} (hinv : SmoothInv home w)

include hinv

/-- The entry of a committed proposal is forwarded with the data of the proposal. -/
theorem messageAt_proposal {p i : Nat} {prop : Proposal} (hprop : w.props p = some prop)
    (hi : w.entry p = some i) : messageAt (w.log prop.shard) i = some ⟨i, prop.node, prop.data⟩ := by
  obtain ⟨e, he, hpayload⟩ := hinv.inv.handlers.entry p prop i hprop hi
  have hforward := forward?_of_write hpayload (hinv.logged.write p prop hprop)
  rw [hinv.inv.net.index _ i e he] at hforward
  exact messageAt_eq_some.mpr ⟨e, he, hforward⟩

/-- A delivery with an entry carries the write of that entry. -/
theorem messageAt_delivery {d : Delivery} (hd : d ∈ w.sent) {i : Nat} (hi : d.entry = some i) :
    ∃ m, messageAt (w.log d.shard) i = some m ∧ d.message = .binary m.rawMessage ∧
      classifyMessage d.message = .write := by
  cases hsender : d.sender with
  | handler =>
    obtain ⟨p, prop, hprop, hentry, hnode, hshard, hmsg, _⟩ :=
      hinv.inv.handlers.write d hd hsender i hi
    refine ⟨_, hshard ▸ messageAt_proposal hinv hprop hentry, hmsg, ?_⟩
    rw [hmsg]
    exact hinv.logged.write p prop hprop
  | forwarder =>
    obtain ⟨m, e, hentry, hmsg, he, hforward, _⟩ := hinv.inv.forwarders.sent d hd hsender
    rw [hi, Option.some.injEq] at hentry
    subst hentry
    have hmessage := messageAt_eq_some.mpr ⟨e, he, hforward⟩
    refine ⟨m, hmessage, hmsg, ?_⟩
    obtain ⟨p, prop, hprop, hp, hshard, _⟩ := hinv.logged.proposed d.shard m.logIndex e m he hforward
    have hsame := messageAt_proposal hinv hprop hp
    rw [hshard, show w.log = w.core.log from rfl, hmessage, Option.some.injEq] at hsame
    rw [hmsg, hsame]
    exact hinv.logged.write p prop hprop

/-- **The received writes are the writes of the delivered entries.** -/
theorem received_eq (n : NodeId) (s : ShardId) :
    received n s w.sent =
      (delivered n s w.sent).filterMap fun i => (messageAt (w.log s) i).map (·.rawMessage) := by
  rw [received, delivered, List.filterMap_filterMap]
  refine List.filterMap_congr fun d hd => ?_
  unfold Delivery.entryFor
  by_cases hguard : d.node = n ∧ d.shard = s
  · rw [if_pos hguard]
    cases hi : d.entry with
    | none =>
      have hplain : classifyMessage d.message ≠ .write := by
        cases hsender : d.sender with
        | handler => exact hinv.inv.handlers.plain d hd hsender hi
        | forwarder =>
          obtain ⟨m, _, hm, _⟩ := hinv.inv.forwarders.sent d hd hsender
          rw [hi] at hm
          cases hm
      unfold Delivery.writeFor
      split
      · rw [if_neg fun h => hplain h.2.2]
        rfl
      · rfl
    | some i =>
      obtain ⟨m, hm, hmsg, hwrite⟩ := messageAt_delivery hinv hd hi
      rw [hguard.2] at hm
      unfold Delivery.writeFor
      rw [Option.bind_some, hm, Option.map_some]
      split
      · rename_i data hdata
        rw [if_pos ⟨hguard.1, hguard.2, hwrite⟩]
        rw [hdata, Message.binary.injEq] at hmsg
        rw [hmsg]
      · rename_i hno
        exact absurd hmsg (hno _)
  · rw [if_neg hguard, Option.bind_none]
    unfold Delivery.writeFor
    split
    · rw [if_neg fun h => hguard ⟨h.1, h.2.1⟩]
    · rfl

/-- A node that is past a write has received it. -/
theorem delivered_of_passed {n : NodeId} {s : ShardId} {k : Nat} (hpassed : w.core.Passed n s k)
    {i : Nat} (hik : i < k) {m : ForwarderMsg} (hm : messageAt (w.log s) i = some m) :
    i ∈ delivered n s w.sent := by
  obtain ⟨e, he, hforward⟩ := messageAt_eq_some.mp hm
  have hsent : ∀ sender, i ∈ sentBy sender n s w.sent → i ∈ delivered n s w.sent := by
    intro sender hmem
    obtain ⟨d, hd, _, hnode, hshard, hentry⟩ := mem_sentBy.mp hmem
    refine List.mem_filterMap.mpr ⟨d, hd, ?_⟩
    rw [Delivery.entryFor, if_pos ⟨hnode, hshard⟩, hentry]
  by_cases horigin : m.originNodeId = n
  · -- the node's own write: no handler holds it any more, and none was lost
    obtain ⟨p, prop, hprop, hi, hshard, hnode⟩ := hinv.logged.proposed s i e m he hforward
    rw [horigin] at hnode
    have hfree : (w.core.pc prop.conn).holds ≠ some p := by
      intro hheld
      obtain ⟨conn, hconn, hcnode, hcshard⟩ := hinv.inv.handlers.conn p prop hprop
      have hle := hpassed.held prop.conn i
        ⟨conn, p, hconn, hcnode.trans hnode, hcshard.trans hshard, hheld, hi⟩
      omega
    rcases hinv.noMiss p prop i hprop hi hfree with hmem | hforeign
    · rw [hnode, hshard] at hmem
      exact hsent .handler hmem
    · exact absurd hforeign (hinv.inv.handlers.own_not_foreign hprop hi)
  · have happlied := hpassed.applied
    have hhanded := hinv.complete.foreign n s i ⟨e, m, he, hforward, horigin⟩ (by omega)
    rcases List.mem_append.mp hhanded with hmem | hqueued
    · exact hsent .forwarder hmem
    · obtain ⟨m', hm', hindex⟩ := List.mem_map.mp hqueued
      obtain ⟨e', he', hforward'⟩ := hinv.inv.forwarders.queued n s m' hm'
      rw [hindex, show w.core.log = w.log from rfl, he, Option.some.injEq] at he'
      subst he'
      rw [hforward, Option.some.injEq] at hforward'
      have hle := hpassed.queue m' hm' (hforward' ▸ horigin)
      omega

/-- A delivered entry is a write of the log. -/
theorem messageAt_delivered {n : NodeId} {s : ShardId} {i : Nat} (hi : i ∈ delivered n s w.sent) :
    ∃ m, messageAt (w.log s) i = some m := by
  obtain ⟨d, hd, hentry⟩ := List.mem_filterMap.mp hi
  unfold Delivery.entryFor at hentry
  split at hentry
  · rename_i hguard
    obtain ⟨m, hm, _⟩ := messageAt_delivery hinv hd hentry
    exact ⟨m, hguard.2 ▸ hm⟩
  · cases hentry

/-- The delivered entries before `k` are the forwarded entries before `k`. -/
theorem delivered_before {n : NodeId} {s : ShardId} {k : Nat} (hpassed : w.core.Passed n s k) :
    (delivered n s w.sent).filter (· < k) =
      (((w.log s).take k).filterMap Entry.forward?).map (·.logIndex) := by
  let L : Log := ⟨w.log s, hinv.inv.net.index s⟩
  refine Lists.eq_of_increasing id ((hinv.ordered.increasing n s).filter _) (forwards_increasing
    (L.increasing.sublist (List.take_sublist _ _))) ?_
  intro i
  rw [List.mem_filter, decide_eq_true_eq]
  constructor
  · rintro ⟨hi, hik⟩
    obtain ⟨m, hm⟩ := messageAt_delivered hinv hi
    obtain ⟨e, he, hforward⟩ := messageAt_eq_some.mp hm
    have hindex := L.index_eq i e he
    refine List.mem_map.mpr ⟨m, List.mem_filterMap.mpr ⟨e, ?_, hforward⟩, ?_⟩
    · exact (L.mem_take_iff k e).mpr ⟨by rw [hindex]; exact hik, by rw [hindex]; exact he⟩
    · rw [Entry.forward?_logIndex hforward, hindex]
  · intro hi
    obtain ⟨m, hm, rfl⟩ := List.mem_map.mp hi
    obtain ⟨e, he, hforward⟩ := List.mem_filterMap.mp hm
    obtain ⟨hlt, hget⟩ := (L.mem_take_iff k e).mp he
    rw [Entry.forward?_logIndex hforward]
    exact ⟨delivered_of_passed hinv hpassed hlt (messageAt_eq_some.mpr ⟨e, hget, hforward⟩), hlt⟩

/-- **The log and a node that is past position `k`**: it has received the writes before `k`, in
order, and after them only later ones. -/
theorem received_of_passed {n : NodeId} {s : ShardId} {k : Nat} (hpassed : w.core.Passed n s k) :
    ∃ later, received n s w.sent = writesOf ((w.log s).take k) ++ later ∧
      (k = (w.log s).length → later = []) := by
  let L : Log := ⟨w.log s, hinv.inv.net.index s⟩
  have hsplit : delivered n s w.sent =
      (delivered n s w.sent).filter (· < k) ++ (delivered n s w.sent).filter (k ≤ ·) :=
    Lists.increasing_split (hinv.ordered.increasing n s) k
  refine ⟨((delivered n s w.sent).filter (k ≤ ·)).filterMap
    fun i => (messageAt (w.log s) i).map (·.rawMessage), ?_, ?_⟩
  · rw [received_eq hinv, hsplit, List.filterMap_append, ← hsplit, delivered_before hinv hpassed,
      List.filterMap_map]
    congr 1
    rw [writesOf, ← List.filterMap_eq_map]
    refine List.filterMap_congr fun m hm => ?_
    obtain ⟨e, he, hforward⟩ := List.mem_filterMap.mp hm
    have hget := ((L.mem_take_iff k e).mp he).2
    have hmessage : messageAt (w.log s) m.logIndex = some m := by
      rw [Entry.forward?_logIndex hforward]
      exact messageAt_eq_some.mpr ⟨e, hget, hforward⟩
    simp [hmessage]
  · rintro rfl
    have hnone : (delivered n s w.sent).filter ((w.log s).length ≤ ·) = [] := by
      rw [List.filter_eq_nil_iff]
      intro i hi hle
      obtain ⟨m, hm⟩ := messageAt_delivered hinv hi
      obtain ⟨e, he, _⟩ := messageAt_eq_some.mp hm
      have hlt := (List.getElem?_eq_some_iff.mp he).1
      rw [decide_eq_true_eq] at hle
      omega
    rw [hnone]
    rfl

/-- **One shard for each module**: its database has executed what the node has received for the
shard. -/
theorem executed_eq_received (hhome : Function.Injective home) (n : NodeId) (s : ShardId) :
    executed n (home s) w.sent = received n s w.sent := by
  refine List.filterMap_congr fun d hd => ?_
  have hmodule : extractModuleName d.path = some (home s) ↔ d.shard = s := by
    rw [hinv.housed.sent d hd, Option.some.injEq]
    exact hhome.eq_iff
  simp only [Delivery.writeInto, Delivery.writeFor, hmodule]

/-- A node that has caught up has the database the log stands for. -/
theorem database_of_passed (hhome : Function.Injective home) {D : Type*} (reduce : D → Bytes → D)
    (init : D) {n : NodeId} {s : ShardId} (hpassed : w.core.Passed n s (w.log s).length) :
    database reduce init n (home s) w.sent = image reduce init (w.log s) := by
  obtain ⟨later, hreceived, hlater⟩ := received_of_passed hinv hpassed
  rw [database, executed_eq_received hinv hhome, hreceived, hlater rfl, List.append_nil,
    List.take_length, image]

end

/-! ## Main result -/

theorem smooth_exec {home : ShardId → String} {labels : List Label} {w : World}
    (hsmooth : Runs.Along (step J K) (Smooth K home) World.start labels)
    (h : Runs.exec (step J K) World.start labels = some w) : SmoothInv home w := by
  refine Runs.exec_inv_along (I := SmoothInv home) ?_ (SmoothInv.start home) hsmooth h
  intro s l s' hI hl hs
  exact smooth_step hI hl hs

/-- What can be read off a state to see that nothing goes wrong at a move: a handler sends a write that
is the only entry of its log, and the forwarder is attached where entries are applied. -/
def isPlain (home : ShardId → String) (w : World) : Label → Bool
  | .accept _ n path =>
      decide (extractModuleName path = some (home ((w.pool n).router.shardOfPath path)))
  | .send c ok =>
      decide (ok = true ∧ ∀ conn ∈ w.conns c, (w.log conn.shard).length ≤ 1 ∧
        ∀ e ∈ w.log conn.shard, ∀ m ∈ e.forward?, m.originNodeId = conn.node)
  | .commit p _ => decide (∀ prop ∈ w.props p, (w.pc prop.conn).holds = some p)
  | .apply n s _ => (w.state (n, s)).stateMachine.forwarder.isSome
  | .forward _ _ (.recv ok) => ok
  | .install _ _ _ _ _ => false
  | l => decide (w.givesUp l = none)

/-- A write that is the only entry of its log is sent in its turn. -/
theorem inTurn_of_alone {w : World} (hinv : Inv w) {c : Nat}
    (halone : ∀ conn ∈ w.conns c, (w.log conn.shard).length ≤ 1 ∧
      ∀ e ∈ w.log conn.shard, ∀ m ∈ e.forward?, m.originNodeId = conn.node) :
    InTurn w (.send c true) := by
  intro conn i hconn hi
  obtain ⟨hlength, hown⟩ := halone conn hconn
  have hindex : ∀ {c' j}, w.core.Holds c' conn.node conn.shard j → j < (w.log conn.shard).length := by
    rintro c' j ⟨conn', p, hconn', _, hshard, hheld, hp⟩
    obtain ⟨prop, hprop, hconn''⟩ := hinv.handlers.held c' p hheld
    obtain ⟨_, hsame⟩ := hinv.handlers.held_shard hconn' hheld hprop
    obtain ⟨e, he, _⟩ := hinv.handlers.entry p prop j hprop hp
    rw [hsame.trans hshard] at he
    exact (List.getElem?_eq_some_iff.mp he).1
  refine ⟨?_, ?_⟩
  · rintro j ⟨e, m, he, hforward, horigin⟩
    exact absurd (hown e (List.mem_of_getElem? he) m hforward) horigin
  · intro c' j hne hheld
    have hj := hindex hheld
    have hi' := hindex hi
    obtain rfl : i = j := by omega
    exact absurd (hinv.handlers.holds_unique hheld hi) hne

theorem smooth_of_isPlain {home : ShardId → String} {w : World} {l : Label} (hinv : Inv w)
    (h : isPlain home w l = true) : Smooth K home w l := by
  cases l with
  | accept c n path =>
    have hpath : extractModuleName path = some (home ((w.pool n).router.shardOfPath path)) :=
      of_decide_eq_true h
    exact ⟨trivial, losesNoWrite_of_ne rfl (by simp), trivial, hpath⟩
  | send c ok =>
    obtain ⟨rfl, halone⟩ := of_decide_eq_true h
    exact ⟨inTurn_of_alone hinv halone, losesNoWrite_of_ne rfl (by simp), trivial, trivial⟩
  | commit p leaderId =>
    refine ⟨trivial, ⟨fun q hq => (by cases hq), ?_⟩, trivial, trivial⟩
    rintro q leaderId' prop heq hprop
    cases heq
    exact of_decide_eq_true h prop hprop
  | apply n s count => exact ⟨trivial, losesNoWrite_of_ne rfl (by simp), Or.inl h, trivial⟩
  | forward n s event =>
    refine ⟨trivial, losesNoWrite_of_ne rfl (by simp), ?_, trivial⟩
    cases event with
    | recv ok =>
      obtain rfl : ok = true := h
      trivial
    | _ => trivial
  | install n s replayOrder encodeOrder snap => cases h
  | _ => exact ⟨trivial, losesNoWrite_of_ne (of_decide_eq_true h) (by simp), trivial, trivial⟩

/-- A run of plain moves is a run in which nothing goes wrong. -/
theorem smooth_of_plain {home : ShardId → String} {labels : List Label}
    (h : Runs.Along (step J K) (fun w l => isPlain home w l = true) World.start labels) :
    Runs.Along (step J K) (Smooth K home) World.start labels :=
  Runs.Along.imp_of_inv (I := Inv) (fun _ _ _ hI hs => step_inv hI hs)
    (fun _ _ hI hl => smooth_of_isPlain hI hl) Inv.start h

/-- Once its handler has sent the only write of a log, no handler holds a committed write of it. -/
theorem free_of_alone {w : World} (hinv : Inv w) {s : ShardId} {p : Nat} {prop : Proposal}
    (hlength : (w.log s).length ≤ 1) (hprop : w.props p = some prop) (hshard : prop.shard = s)
    (hentry : w.entry p = some 0) (hfree : (w.pc prop.conn).holds = none) (n : NodeId) (c j : Nat) :
    ¬ w.core.Holds c n s j := by
  rintro ⟨conn, q, hconn, _, hconns, hheld, hq⟩
  obtain ⟨prop', hprop', hown⟩ := hinv.handlers.held c q hheld
  obtain ⟨_, hsame⟩ := hinv.handlers.held_shard hconn hheld hprop'
  obtain ⟨e, he, _⟩ := hinv.handlers.entry q prop' j hprop' hq
  obtain rfl : j = 0 := by
    have hlt := (List.getElem?_eq_some_iff.mp he).1
    rw [hsame.trans hconns, show w.core.log = w.log from rfl] at hlt
    omega
  obtain rfl := hinv.handlers.unique q p prop' prop 0 hprop' hprop
    ((hsame.trans hconns).trans hshard.symm) hq hentry
  obtain rfl : prop = prop' := Option.some.inj (hprop.symm.trans hprop')
  subst hown
  rw [show w.core.pc = w.pc from rfl, hfree] at hheld
  cases hheld

/-- A module for every shard: `m`, `mm` and so on. -/
def ownModule (s : ShardId) : String := String.ofList (List.replicate (s + 1) 'm')

theorem ownModule_injective : Function.Injective ownModule := by
  intro s s' h
  have hlength := congrArg (fun name : String => name.toList.length) h
  simpa [ownModule] using hlength

/-- Both nodes have shard 1 with the route of module `mm`, and each has a client of each module.  The
client of `m` on node 1 and the client of `mm` on node 2 write. -/
def proposeShared : List Label :=
  List.flatten
    [[.config 1 true (.createShard 1), .config 2 true (.createShard 1),
        .config 1 true (.addRoute "mm" 1), .config 2 true (.addRoute "mm" 1),
        .attach 1 0, .attach 2 0, .attach 1 1, .attach 2 1],
      connect 1 1 "/database/subscribe/m", connect 2 2 "/database/subscribe/m",
      connect 3 1 "/database/subscribe/mm", connect 4 2 "/database/subscribe/mm",
      [.recv 1 (.binary [3, 7]) 1, .recv 4 (.binary [3, 8]) 2]]

/-- The writes are committed, sent by their handlers, and applied on both nodes. -/
def spreadShared : List Label :=
  [.commit 1 ⟨1, 1⟩, .clientWrite 1 .ok, .send 1 true, .commit 2 ⟨1, 2⟩, .clientWrite 4 .ok, .send 4 true,
    .apply 1 0 1, .apply 2 0 1, .apply 1 1 1, .apply 2 1 1]

/-- A forwarder takes up a path, connects and sends one message. -/
def forwardOne (n : NodeId) (s : ShardId) : List Label :=
  [.forward n s .pathChanged, .forward n s .latch, .forward n s (.connect true),
    .forward n s (.recv true)]

/-- The other node's forwarder sends each write. -/
def forwardShared : List Label := forwardOne 2 0 ++ forwardOne 1 1

theorem shared_smooth :
    Runs.Along (step commandJson snapshotJson) (Smooth snapshotJson ownModule) World.start
      (proposeShared ++ (spreadShared ++ forwardShared)) :=
  smooth_of_plain (by decide +kernel)

/-- Nodes 1 and 2, with shards 0 and 1 each. -/
def sharedReplicas : List (NodeId × ShardId) := [(1, 0), (2, 0), (1, 1), (2, 1)]

theorem mem_sharedReplicas {n : NodeId} {s : ShardId} (hn : n ∈ [1, 2]) (hs : s ∈ [0, 1]) :
    (n, s) ∈ sharedReplicas := by
  simp only [List.mem_cons, List.not_mem_nil, or_false] at hn hs
  rcases hn with rfl | rfl <;> rcases hs with rfl | rfl <;> decide

/-- Both writes are alone in their logs and out of their handlers' hands. -/
structure SharedSpread (w : World) : Prop where
  logs : w.log 0 = [⟨⟨⟨1, 1⟩, 0⟩, .normal ⟨[3, 7], 1⟩⟩] ∧
    w.log 1 = [⟨⟨⟨1, 2⟩, 0⟩, .normal ⟨[3, 8], 2⟩⟩]
  first : w.props 1 = some ⟨1, 1, 0, [3, 7]⟩ ∧ w.entry 1 = some 0 ∧ (w.pc 1).holds = none
  second : w.props 2 = some ⟨4, 2, 1, [3, 8]⟩ ∧ w.entry 2 = some 0 ∧ (w.pc 4).holds = none

instance (w : World) : Decidable (SharedSpread w) :=
  decidable_of_iff
    ((w.log 0 = [⟨⟨⟨1, 1⟩, 0⟩, .normal ⟨[3, 7], 1⟩⟩] ∧
        w.log 1 = [⟨⟨⟨1, 2⟩, 0⟩, .normal ⟨[3, 8], 2⟩⟩]) ∧
      (w.props 1 = some ⟨1, 1, 0, [3, 7]⟩ ∧ w.entry 1 = some 0 ∧ (w.pc 1).holds = none) ∧
      w.props 2 = some ⟨4, 2, 1, [3, 8]⟩ ∧ w.entry 2 = some 0 ∧ (w.pc 4).holds = none)
    ⟨fun h => ⟨h.1, h.2.1, h.2.2⟩, fun h => ⟨h.logs, h.first, h.second⟩⟩

theorem SharedSpread.free {w : World} (h : SharedSpread w) (hinv : Inv w) {s : ShardId}
    (hs : s ∈ [0, 1]) (n : NodeId) (c j : Nat) : ¬ w.core.Holds c n s j := by
  simp only [List.mem_cons, List.not_mem_nil, or_false] at hs
  rcases hs with rfl | rfl
  · exact free_of_alone hinv (by rw [h.logs.1]; exact Nat.le_refl 1) h.first.1 rfl h.first.2.1
      h.first.2.2 n c j
  · exact free_of_alone hinv (by rw [h.logs.2]; exact Nat.le_refl 1) h.second.1 rfl h.second.2.1
      h.second.2.2 n c j

end RaftTimeDB.Cluster
