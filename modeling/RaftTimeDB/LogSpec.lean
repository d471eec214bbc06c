import RaftTimeDB.Lib.Lists
import RaftTimeDB.Pool
import RaftTimeDB.StateMachine

/-!
# What a log means

The abstract counterpart of the state machine: a description of its state in terms of the log
alone, with no reference to `apply`.  For a list of entries, `spec` gives the last log id, the last
Membership entry with its id, the number of Normal entries, the routes left by the decodable
AddRoute / RemoveRoute commands, and the created shard ids in order of first creation.

Principal results: `foldl_applyInner_new` — applying a log from a fresh store reaches its `spec`;
`spec_append` — applying further entries to a `spec` state reaches the `spec` of the longer log;
`routesOf_lookup` — the target of a module is decided by the last command that names it.
-/

set_option autoImplicit false

namespace RaftTimeDB

/-- The membership an entry sets, with its log id. -/
def Entry.membership? (entry : Entry) : Option StoredMembership :=
  match entry.payload with
  | .membership m => some ⟨some entry.logId, m⟩
  | _ => none

/-- The shard id a command creates. -/
def ShardConfigCommand.created? : ShardConfigCommand → Option ShardId
  | .createShard shardId => some shardId
  | _ => none

/-- The effect of a command on a routing table. -/
def ShardConfigCommand.applyRoute (m : RouteMap) : ShardConfigCommand → RouteMap
  | .createShard _ => m
  | .addRoute moduleName shardId => m.insert moduleName shardId
  | .removeRoute moduleName => m.erase moduleName

/-- The commands of a log, in log order. -/
def commandsOf (J : CommandJson) (es : List Entry) : List ShardConfigCommand :=
  es.filterMap (Entry.command? J)

/-- The last membership of a log. -/
def membershipOf (es : List Entry) : StoredMembership :=
  (es.filterMap Entry.membership?).getLast?.getD StoredMembership.empty

/-- The routing table a list of commands leaves. -/
def routesOf (cmds : List ShardConfigCommand) : RouteMap :=
  cmds.foldl ShardConfigCommand.applyRoute ∅

/-- The shard ids of the CreateShard commands, with repetitions. -/
def createdOf (cmds : List ShardConfigCommand) : List ShardId :=
  cmds.filterMap ShardConfigCommand.created?

/-- The shard ids a list of commands creates, in order of first creation. -/
def shardsOf (cmds : List ShardConfigCommand) : List ShardId := (createdOf cmds).eraseDups

/-- The state a log stands for. -/
def spec (J : CommandJson) (es : List Entry) : StateMachineInner where
  lastApplied := lastLogId es
  lastMembership := membershipOf es
  appliedCount := es.countP Entry.isNormal
  shardRoutes := routesOf (commandsOf J es)
  activeShards := shardsOf (commandsOf J es)

/-- The target a command gives a module: `none` if it does not name the module, `some none` if it
removes the route. -/
def ShardConfigCommand.target? (name : String) : ShardConfigCommand → Option (Option ShardId)
  | .createShard _ => none
  | .addRoute moduleName shardId => if moduleName = name then some (some shardId) else none
  | .removeRoute moduleName => if moduleName = name then some none else none

/-- What the last command that names a module says of it. -/
def lastTarget (cmds : List ShardConfigCommand) (name : String) : Option ShardId :=
  (cmds.filterMap (ShardConfigCommand.target? name)).getLast?.getD none

/-! ## One more entry -/

theorem membershipOf_snoc (es : List Entry) (e : Entry) :
    membershipOf (es ++ [e]) = (e.membership?).getD (membershipOf es) := by
  cases h : e.membership? <;> simp [membershipOf, List.filterMap_append, h]

theorem commandsOf_snoc (J : CommandJson) (es : List Entry) (e : Entry) :
    commandsOf J (es ++ [e]) = commandsOf J es ++ (e.command? J).toList := by
  cases h : e.command? J <;> simp [commandsOf, List.filterMap_append, h]

theorem routesOf_snoc (cmds : List ShardConfigCommand) (cmd : ShardConfigCommand) :
    routesOf (cmds ++ [cmd]) = cmd.applyRoute (routesOf cmds) := by
  simp [routesOf]

theorem shardsOf_snoc (cmds : List ShardConfigCommand) (cmd : ShardConfigCommand) :
    shardsOf (cmds ++ [cmd]) =
      match cmd.created? with
      | some shardId =>
          if shardId ∈ shardsOf cmds then shardsOf cmds else shardsOf cmds ++ [shardId]
      | none => shardsOf cmds := by
  cases h : cmd.created? <;> simp [shardsOf, createdOf, List.filterMap_append, h, Lists.eraseDups_snoc]

theorem applyRoute_lookup (cmd : ShardConfigCommand) (m : RouteMap) (name : String) :
    (cmd.applyRoute m).lookup name = (cmd.target? name).getD (m.lookup name) := by
  cases cmd with
  | createShard shardId => rfl
  | addRoute moduleName shardId =>
    by_cases h : moduleName = name
    · subst h
      simp [ShardConfigCommand.applyRoute, ShardConfigCommand.target?]
    · simp [ShardConfigCommand.applyRoute, ShardConfigCommand.target?, h,
        Finmap.lookup_insert_of_ne _ (Ne.symm h)]
  | removeRoute moduleName =>
    by_cases h : moduleName = name
    · subst h
      simp [ShardConfigCommand.applyRoute, ShardConfigCommand.target?]
    · simp [ShardConfigCommand.applyRoute, ShardConfigCommand.target?, h,
        Finmap.lookup_erase_ne (Ne.symm h)]

/-- Whether or not a shard is created, a command acts on the routes as it does on the replicated
table. -/
theorem RaftPool.handleShardConfig_routes (created : Bool) (pool : RaftPool)
    (cmd : ShardConfigCommand) :
    (pool.handleShardConfig created cmd).router.routes = cmd.applyRoute pool.router.routes := by
  cases cmd with
  | createShard shardId => rw [handleShardConfig_createShard_router, ShardConfigCommand.applyRoute]
  | addRoute moduleName shardId => rfl
  | removeRoute moduleName => rfl

/-- A command that creates no shard keeps the shards of the pool. -/
theorem RaftPool.handleShardConfig_shards {cmd : ShardConfigCommand} (h : cmd.created? = none)
    (created : Bool) (pool : RaftPool) : (pool.handleShardConfig created cmd).shards = pool.shards := by
  cases cmd with
  | createShard shardId => cases h
  | addRoute moduleName shardId => rfl
  | removeRoute moduleName => rfl

/-- **The last command that names a module decides its target.** -/
theorem routesOf_lookup (cmds : List ShardConfigCommand) (name : String) :
    (routesOf cmds).lookup name = lastTarget cmds name := by
  induction cmds using List.reverseRecOn with
  | nil => exact Finmap.lookup_empty name
  | append_singleton cmds cmd ih =>
    rw [routesOf_snoc, applyRoute_lookup, ih]
    cases h : cmd.target? name <;> simp [lastTarget, List.filterMap_append, h]

/-- `updateConfig` performs a command on the routes and the shard list of a `spec` state. -/
theorem updateConfig_spec (cmds : List ShardConfigCommand) (cmd : ShardConfigCommand)
    (inner : StateMachineInner) (hroutes : inner.shardRoutes = routesOf cmds)
    (hshards : inner.activeShards = shardsOf cmds) :
    updateConfig cmd inner =
      { inner with
        shardRoutes := routesOf (cmds ++ [cmd])
        activeShards := shardsOf (cmds ++ [cmd]) } := by
  rw [routesOf_snoc, shardsOf_snoc, ← hroutes, ← hshards]
  cases cmd with
  | createShard shardId =>
    simp only [updateConfig, ShardConfigCommand.created?, ShardConfigCommand.applyRoute]
    split <;> rfl
  | addRoute moduleName shardId => rfl
  | removeRoute moduleName => rfl

theorem updateConfig_lastApplied (cmd : ShardConfigCommand) (inner : StateMachineInner) :
    (updateConfig cmd inner).lastApplied = inner.lastApplied := by
  cases cmd with
  | createShard shardId =>
    simp only [updateConfig]
    split <;> rfl
  | addRoute moduleName shardId => rfl
  | removeRoute moduleName => rfl

theorem applyInner_lastApplied (J : CommandJson) (inner : StateMachineInner) (e : Entry) :
    (applyInner J inner e).lastApplied = some e.logId := by
  unfold applyInner
  cases e.command? J with
  | none =>
    simp only [Option.map_none, Option.getD_none]
    split <;> rfl
  | some cmd =>
    have hupdate := updateConfig_lastApplied cmd (recordEntry e inner)
    simp only [Option.map_some, Option.getD_some]
    split
    · exact hupdate
    · exact hupdate

/-- **One more entry**: the code's effect of an entry is the difference it makes to `spec`. -/
theorem spec_snoc (J : CommandJson) (es : List Entry) (e : Entry) :
    spec J (es ++ [e]) = applyInner J (spec J es) e := by
  obtain ⟨logId, payload⟩ := e
  cases payload with
  | blank =>
    simp [spec, applyInner, recordEntry, membershipOf_snoc, commandsOf_snoc, Entry.membership?,
      Entry.command?, Entry.isNormal]
  | membership m =>
    simp [spec, applyInner, recordEntry, membershipOf_snoc, commandsOf_snoc, Entry.membership?,
      Entry.command?, Entry.isNormal]
  | normal request =>
    cases hcmd : decodeShardConfig J request.rawMessage with
    | none =>
      simp [spec, applyInner, recordEntry, membershipOf_snoc, commandsOf_snoc, Entry.membership?,
        Entry.command?, Entry.isNormal, countApplied, hcmd]
    | some cmd =>
      have hupdate := updateConfig_spec (commandsOf J es) cmd
        (recordEntry ⟨logId, .normal request⟩ (spec J es)) rfl rfl
      simp [spec, applyInner, membershipOf_snoc, commandsOf_snoc, Entry.membership?,
        Entry.command?, Entry.isNormal, countApplied, hcmd] at hupdate ⊢
      rw [hupdate]
      simp [recordEntry]

/-- **Further entries** take the `spec` of a log to the `spec` of the longer log. -/
theorem spec_append (J : CommandJson) (es fs : List Entry) :
    spec J (es ++ fs) = fs.foldl (applyInner J) (spec J es) := by
  induction fs generalizing es with
  | nil => simp
  | cons f fs ih =>
    rw [List.foldl_cons, ← spec_snoc, ← ih, List.append_assoc, List.singleton_append]

theorem spec_nil (J : CommandJson) : spec J [] = StateMachineInner.new := rfl

/-- **Applying a log to a fresh store reaches its `spec`.** -/
theorem foldl_applyInner_new (J : CommandJson) (es : List Entry) :
    es.foldl (applyInner J) StateMachineInner.new = spec J es := by
  rw [← spec_nil J, ← spec_append, List.nil_append]

/-- The last applied id after a list of entries. -/
theorem foldl_applyInner_lastApplied (J : CommandJson) (es : List Entry)
    (inner : StateMachineInner) :
    (es.foldl (applyInner J) inner).lastApplied = (lastLogId es).or inner.lastApplied := by
  induction es using List.reverseRecOn with
  | nil => rfl
  | append_singleton es e _ =>
    rw [List.foldl_append, List.foldl_cons, List.foldl_nil, lastLogId_snoc, Option.some_or,
      applyInner_lastApplied]

/-! ## Routes -/

/-- `updateConfig` performs a command on the routes. -/
theorem updateConfig_routes (cmd : ShardConfigCommand) (inner : StateMachineInner) :
    (updateConfig cmd inner).shardRoutes = cmd.applyRoute inner.shardRoutes := by
  cases cmd with
  | createShard shardId =>
    simp only [updateConfig]
    split <;> rfl
  | addRoute moduleName shardId => rfl
  | removeRoute moduleName => rfl

/-- **Entries and a part of the state** that only commands change. -/
theorem foldl_applyInner_part {α : Type*} (part : StateMachineInner → α)
    {perform : α → ShardConfigCommand → α} (hrecord : ∀ e inner, part (recordEntry e inner) = part inner)
    (hcount : ∀ inner, part (countApplied inner) = part inner)
    (hupdate : ∀ cmd inner, part (updateConfig cmd inner) = perform (part inner) cmd)
    (J : CommandJson) (es : List Entry) (inner : StateMachineInner) :
    part (es.foldl (applyInner J) inner) = (commandsOf J es).foldl perform (part inner) := by
  induction es generalizing inner with
  | nil => rfl
  | cons e es ih =>
    have hstep : part (applyInner J inner e) = (e.command? J).toList.foldl perform (part inner) := by
      unfold applyInner
      cases e.command? J with
      | none =>
        simp only [Option.map_none, Option.getD_none, Option.toList_none, List.foldl_nil]
        split
        · rw [hcount, hrecord]
        · rw [hrecord]
      | some cmd =>
        simp only [Option.map_some, Option.getD_some, Option.toList_some, List.foldl_cons, List.foldl_nil]
        split
        · rw [hcount, hupdate, hrecord]
        · rw [hupdate, hrecord]
    rw [List.foldl_cons, ih, hstep]
    cases hcmd : e.command? J <;> simp [commandsOf, hcmd]

theorem foldl_applyInner_routes (J : CommandJson) (es : List Entry) (inner : StateMachineInner) :
    (es.foldl (applyInner J) inner).shardRoutes =
      (commandsOf J es).foldl ShardConfigCommand.applyRoute inner.shardRoutes :=
  foldl_applyInner_part StateMachineInner.shardRoutes (fun _ _ => rfl) (fun _ => rfl)
    updateConfig_routes J es inner

theorem foldl_applyRoute_createShard (m : RouteMap) (ids : List ShardId) :
    (ids.map ShardConfigCommand.createShard).foldl ShardConfigCommand.applyRoute m = m := by
  induction ids with
  | nil => rfl
  | cons id ids ih => exact ih

/-- Adding listed routes to a table overwrites exactly the listed names. -/
theorem lookup_foldl_addRoute {order : List (String × ShardId)}
    (hnodup : (order.map Prod.fst).Nodup) (m : RouteMap) (name : String) :
    ((order.map fun p => ShardConfigCommand.addRoute p.1 p.2).foldl
        ShardConfigCommand.applyRoute m).lookup name =
      if name ∈ RouteMap.ofList order then (RouteMap.ofList order).lookup name
      else m.lookup name := by
  induction order generalizing m with
  | nil => exact (if_neg Finmap.notMem_empty).symm
  | cons p order ih =>
    rw [List.map_cons, List.nodup_cons, ← RouteMap.mem_ofList] at hnodup
    rw [List.map_cons, List.foldl_cons, ih hnodup.2]
    have hcons : RouteMap.ofList (p :: order) = (RouteMap.ofList order).insert p.1 p.2 := rfl
    by_cases hname : name = p.1
    · subst hname
      simp [hnodup.1, hcons, ShardConfigCommand.applyRoute]
    · simp [hname, hcons, ShardConfigCommand.applyRoute, Finmap.lookup_insert_of_ne _ hname]

/-- **Replaying a snapshot** over a table: the routes of the snapshot come first. -/
theorem lookup_foldl_replay {order : List (String × ShardId)} {inner : StateMachineInner}
    (horder : Enumerates order inner.shardRoutes) (m : RouteMap) (name : String) :
    ((replayCommands order inner).foldl ShardConfigCommand.applyRoute m).lookup name =
      if name ∈ inner.shardRoutes then inner.shardRoutes.lookup name else m.lookup name := by
  rw [replayCommands, List.foldl_append, foldl_applyRoute_createShard,
    lookup_foldl_addRoute horder.nodup, horder.ofList_eq]

/-! ## Positions in a log -/

/-- The part of a log that a state machine with this last applied id has behind it. -/
def Log.upTo (L : Log) (last : Option LogId) : List Entry := L.entries.take (nextIndex last)

/-- The indices of a log increase. -/
theorem Log.increasing (L : Log) :
    L.entries.Pairwise fun a b => a.logId.index < b.logId.index := by
  refine List.pairwise_iff_getElem.mpr ?_
  intro i j hi hj hij
  rw [L.index_eq i _ (List.getElem?_eq_getElem hi), L.index_eq j _ (List.getElem?_eq_getElem hj)]
  exact hij

theorem Log.mem_iff_getElem? (L : Log) (e : Entry) :
    e ∈ L.entries ↔ L.entries[e.logId.index]? = some e := by
  rw [List.mem_iff_getElem?]
  constructor
  · rintro ⟨i, hi⟩
    rw [L.index_eq i e hi]
    exact hi
  · intro h
    exact ⟨_, h⟩

theorem Log.mem_segment_iff (L : Log) (a count : Nat) (e : Entry) :
    e ∈ (L.entries.drop a).take count ↔
      (a ≤ e.logId.index ∧ e.logId.index < a + count) ∧ L.entries[e.logId.index]? = some e := by
  rw [List.mem_iff_getElem?]
  constructor
  · rintro ⟨i, hi⟩
    rw [List.getElem?_take] at hi
    split at hi
    · rename_i hlt
      rw [List.getElem?_drop] at hi
      rw [L.index_eq _ e hi]
      exact ⟨by omega, hi⟩
    · cases hi
  · rintro ⟨⟨hle, hlt⟩, hget⟩
    refine ⟨e.logId.index - a, ?_⟩
    rw [List.getElem?_take_of_lt (by omega), List.getElem?_drop, Nat.add_sub_cancel' hle, hget]

theorem Log.mem_take_iff (L : Log) (k : Nat) (e : Entry) :
    e ∈ L.entries.take k ↔ e.logId.index < k ∧ L.entries[e.logId.index]? = some e := by
  simpa using L.mem_segment_iff 0 k e

/-! ## Writes of a segment -/

theorem Entry.forward?_logIndex {e : Entry} {msg : ForwarderMsg} (h : e.forward? = some msg) :
    msg.logIndex = e.logId.index := by
  unfold Entry.forward? at h
  split at h
  · split at h
    · cases h
    · cases h
      rfl
  · cases h

theorem mem_forwards {es : List Entry} {i : Nat}
    (h : i ∈ (es.filterMap Entry.forward?).map (·.logIndex)) : ∃ e ∈ es, e.logId.index = i := by
  obtain ⟨msg, hmsg, rfl⟩ := List.mem_map.mp h
  obtain ⟨e, he, hforward⟩ := List.mem_filterMap.mp hmsg
  exact ⟨e, he, (Entry.forward?_logIndex hforward).symm⟩

/-- The writes of increasing entries have increasing indices. -/
theorem forwards_increasing {es : List Entry}
    (hinc : es.Pairwise fun a b => a.logId.index < b.logId.index) :
    ((es.filterMap Entry.forward?).map (·.logIndex)).Pairwise (· < ·) := by
  refine List.pairwise_map.mpr (List.pairwise_filterMap.mpr ?_)
  refine hinc.imp fun {a b} hlt m hm m' hm' => ?_
  rw [Entry.forward?_logIndex hm, Entry.forward?_logIndex hm']
  exact hlt

/-- The entries of a segment of the log, by position. -/
theorem Log.segment_bounds (L : Log) {a count : Nat} {e : Entry} (h : e ∈ (L.entries.drop a).take count) :
    a ≤ e.logId.index ∧
      e.logId.index < nextIndex (lastLogId ((L.entries.drop a).take count)) := by
  obtain ⟨i, hi⟩ := List.mem_iff_getElem?.mp h
  have hlt : i < ((L.entries.drop a).take count).length := (List.getElem?_eq_some_iff.mp hi).1
  have hindex : ∀ (j : Nat) (e' : Entry), ((L.entries.drop a).take count)[j]? = some e' →
      e'.logId.index = a + j := by
    intro j e' hj
    rw [List.getElem?_take] at hj
    split at hj
    · rw [List.getElem?_drop] at hj
      exact L.index_eq _ _ hj
    · cases hj
  have hlast := List.getLast?_eq_getElem? (l := (L.entries.drop a).take count)
  have hpos : ((L.entries.drop a).take count).length - 1 <
      ((L.entries.drop a).take count).length := by omega
  rw [List.getElem?_eq_getElem hpos] at hlast
  rw [lastLogId, hlast, Option.map_some, nextIndex_some, hindex i e hi,
    hindex _ _ (List.getElem?_eq_getElem hpos)]
  omega

/-- After a segment the last applied id has moved forward, past every entry of the segment. -/
theorem Log.segment_next (L : Log) {a : Nat} (count : Nat) {last : Option LogId}
    (hlast : nextIndex last ≤ a) :
    nextIndex last ≤ nextIndex ((lastLogId ((L.entries.drop a).take count)).or last) ∧
      ∀ e ∈ (L.entries.drop a).take count,
        e.logId.index < nextIndex ((lastLogId ((L.entries.drop a).take count)).or last) := by
  cases hid : lastLogId ((L.entries.drop a).take count) with
  | none =>
    have hnil : (L.entries.drop a).take count = [] := List.getLast?_eq_none_iff.mp
      (Option.map_eq_none_iff.mp hid)
    refine ⟨Nat.le_refl _, ?_⟩
    intro e he
    rw [hnil] at he
    cases he
  | some id =>
    rw [Option.some_or]
    have hall : ∀ e ∈ (L.entries.drop a).take count, e.logId.index < nextIndex (some id) := by
      intro e he
      rw [← hid]
      exact (L.segment_bounds he).2
    obtain ⟨e, he, _⟩ := Option.map_eq_some_iff.mp hid
    have hmem := List.mem_of_getLast? he
    have hfirst := (L.segment_bounds hmem).1
    have hbefore := hall e hmem
    exact ⟨by omega, hall⟩

/-! ## Cuts -/

/-- A state stands for an initial part of the log. -/
def Log.IsCut (L : Log) (J : CommandJson) (inner : StateMachineInner) : Prop :=
  ∃ k ≤ L.entries.length, inner = spec J (L.entries.take k)

theorem Log.IsCut.new (L : Log) (J : CommandJson) : L.IsCut J StateMachineInner.new :=
  ⟨0, Nat.zero_le _, rfl⟩

theorem Log.nextIndex_spec (L : Log) (J : CommandJson) {k : Nat} (hk : k ≤ L.entries.length) :
    nextIndex (spec J (L.entries.take k)).lastApplied = k :=
  L.nextIndex_take hk

/-- A cut is the `spec` of the part up to its own last applied id. -/
theorem Log.IsCut.eq_spec {L : Log} {J : CommandJson} {inner : StateMachineInner}
    (h : L.IsCut J inner) : inner = spec J (L.upTo inner.lastApplied) := by
  obtain ⟨k, hk, rfl⟩ := h
  rw [Log.upTo, L.nextIndex_spec J hk]

/-- Applying the entries that follow a cut gives a cut. -/
theorem Log.IsCut.foldl {L : Log} {J : CommandJson} {inner : StateMachineInner}
    (h : L.IsCut J inner) (k : Nat) :
    L.IsCut J (((L.entries.drop (nextIndex inner.lastApplied)).take k).foldl (applyInner J) inner) := by
  obtain ⟨p, hp, rfl⟩ := h
  rw [L.nextIndex_spec J hp, ← spec_append, ← List.take_add]
  refine ⟨min (p + k) L.entries.length, Nat.min_le_right _ _, ?_⟩
  rw [List.take_eq_take_min]

end RaftTimeDB
