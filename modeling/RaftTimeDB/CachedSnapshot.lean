import RaftTimeDB.SnapshotTasks

/-!
# The cached snapshot

`build_snapshot` and `install_snapshot` release the lock of the state before they write the cache
under another one, and neither compares what it writes with what is there.

An installed snapshot is never older than the state, so `install_snapshot` moves the cache forward.
The builder writes what it has read some time ago.  `cache_ascends_iff` says exactly when the cache
never goes backwards: if nothing newer is installed between the two sections of a build.
-/

set_option autoImplicit false

namespace RaftTimeDB.SnapshotTasks

open JsonFormats (commandJson snapshotJson)

variable {J : CommandJson} {K : SnapshotCodec} {L : Log}

/-- What `get_current_snapshot` returns later is not older. -/
def NotOlder (before after : Option Snapshot) : Prop :=
  ∀ snap, before = some snap → ∃ snap', after = some snap' ∧ snap.position ≤ snap'.position

theorem NotOlder.refl (o : Option Snapshot) : NotOlder o o := fun snap h => ⟨snap, h, Nat.le_refl _⟩

theorem NotOlder.trans {o₁ o₂ o₃ : Option Snapshot} (h₁ : NotOlder o₁ o₂) (h₂ : NotOlder o₂ o₃) :
    NotOlder o₁ o₃ := by
  intro snap hsnap
  obtain ⟨snap', hsnap', hle⟩ := h₁ snap hsnap
  obtain ⟨snap'', hsnap'', hle'⟩ := h₂ snap' hsnap'
  exact ⟨snap'', hsnap'', hle.trans hle'⟩

/-- On every node the cached snapshot of the later state is not older. -/
def CachesNotOlder (w w' : World) : Prop :=
  ∀ n, NotOlder (w.machine n).sm.getCurrentSnapshot (w'.machine n).sm.getCurrentSnapshot

/-- The data of every cached snapshot has the `last_applied` of its meta. -/
def DataMatchesMeta (K : SnapshotCodec) (w : World) : Prop :=
  ∀ n snap, (w.machine n).sm.getCurrentSnapshot = some snap →
    ∃ data, K.fromSlice snap.bytes = some data ∧ data.lastApplied = snap.snapMeta.lastLogId

/-- When the builder stores its snapshot, nothing newer has been installed since it read the
state. -/
def Machine.NotOvertaken (m : Machine) (move : Move) : Prop :=
  move = .cache → ∀ held, m.holding = some held →
    ∀ snap ∈ m.installed, snap.position ≤ held.position

def NotOvertaken (w : World) (l : Label) : Prop := (w.machine l.node).NotOvertaken l.move

/-- Only the last sections of `build_snapshot` and `install_snapshot` touch the cache. -/
theorem Machine.step_cached {m m' : Machine} {move : Move} (h : m.step J K L move = some m') :
    (move ≠ .cache ∧ m'.sm.getCurrentSnapshot = m.sm.getCurrentSnapshot) ∨
    (move = .cache ∧ ∃ held, m.holding = some held ∧ m'.sm.getCurrentSnapshot = some held) ∨
    (move = .store ∧ ∃ snap, m.installing = some (.store snap) ∧
      m'.sm.getCurrentSnapshot = some snap) := by
  cases Machine.turn_of_step h with
  | cache hheld => exact .inr (.inl ⟨rfl, _, hheld, rfl⟩)
  | store hinstalling => exact .inr (.inr ⟨rfl, _, hinstalling, rfl⟩)
  | @count e hcurrent => exact .inl ⟨by simp, (forwarded_fields m.sm e).2⟩
  | call _ | record _ _ | command _ _ | build _ | getCurrent | load _ _ _ | refuse _ | replay _
  | encode _ _ =>
    exact .inl ⟨by simp, rfl⟩

/-- **One section**: the cache goes backwards exactly when the builder has been overtaken. -/
theorem Machine.notOlder_iff {m m' : Machine} {move : Move} (hok : m.Ok K L)
    (h : m.step J K L move = some m') :
    NotOlder m.sm.getCurrentSnapshot m'.sm.getCurrentSnapshot ↔ m.NotOvertaken move := by
  obtain ⟨hmove, hcached⟩ | ⟨rfl, held, hheld, hcached⟩ | ⟨rfl, snap, hinstalling, hcached⟩ :=
    Machine.step_cached h
  · rw [hcached]
    exact iff_of_true (NotOlder.refl _) fun hcache => absurd hcache hmove
  · rw [hcached]
    unfold Machine.NotOvertaken
    simp only [forall_const, hheld, Option.some.injEq, forall_eq']
    rw [← hok.overtaken held hheld]
    simp [NotOlder]
  · -- an install never stores anything older than the state, nor the cache anything newer
    refine iff_of_true ?_ fun hcache => by cases hcache
    intro old hold
    obtain ⟨_, _, hmeta⟩ := hok.installing _ hinstalling
    have hposition : snap.position = nextIndex m.sm.inner.lastApplied := congrArg nextIndex hmeta
    exact ⟨snap, hcached, hposition.symm ▸ (hok.cached old hold).2⟩

/-- The builder can always store what it holds. -/
theorem Machine.NotOvertaken.of_stuck {m : Machine} {move : Move}
    (h : m.step J K L move = none) : m.NotOvertaken move := by
  rintro rfl held hheld
  simp only [Machine.step, hheld] at h
  cases h

theorem cachesNotOlder_step_iff {w : World} {l : Label} (hok : w.Ok K L) :
    (∀ w', step J K L w l = some w' → CachesNotOlder w w') ↔ NotOvertaken w l := by
  constructor
  · intro hall
    cases hm : (w.machine l.node).step J K L l.move with
    | none => exact Machine.NotOvertaken.of_stuck hm
    | some m =>
      intro hcache
      have hreceived : ∀ snap ∈ l.move.received, snap ∈ w.issued := by
        rw [hcache]
        intro snap hsnap
        cases hsnap
      have hstep := hall _ (by rw [step, if_pos hreceived, hm]; rfl) l.node
      simp only [Function.update_self] at hstep
      exact (Machine.notOlder_iff (hok.machine l.node) hm).mp hstep hcache
  · intro hcond w' h n
    obtain ⟨_, m, hm, rfl⟩ := step_some h
    show NotOlder _ (Function.update w.machine l.node m n).sm.getCurrentSnapshot
    by_cases hn : n = l.node
    · subst hn
      rw [Function.update_self]
      exact (Machine.notOlder_iff (hok.machine _) hm).mpr hcond
    · rw [Function.update_of_ne hn]
      exact NotOlder.refl _

/-- **The cached snapshot, exactly.**  In every run the data of the cached snapshots agrees with
their meta, and the cached snapshots never go backwards if and only if the builder never stores a
snapshot although a newer one has been installed since it read the state. -/
theorem cache_ascends_iff (wiring : NodeId → Wiring) (labels : List Label) :
    Runs.Throughout (step J K L) (DataMatchesMeta K) (World.start wiring) labels ∧
    (Runs.Ascends (step J K L) CachesNotOlder (World.start wiring) labels ↔
      Runs.Along (step J K L) NotOvertaken (World.start wiring) labels) := by
  constructor
  · refine Runs.throughout_iff_forall.mpr ?_
    intro ls₁ ls₂ w _ h n snap hsnap
    exact (((exec_ok h).machine n).cached snap hsnap).1.decodes
  · rw [Runs.ascends_iff_along (fun w n => NotOlder.refl _)
      (fun _ _ _ h₁ h₂ n => (h₁ n).trans (h₂ n))]
    exact Runs.along_congr (fun _ _ _ hok _ hs => step_ok hok hs)
      (fun _ _ hok => cachesNotOlder_step_iff hok) (World.Ok.start wiring)

/-! ## A builder that is overtaken -/

/-- A snapshot that is built and stored is returned to openraft. -/
theorem exec_issue {w : World} {n : NodeId} {order : List (String × ShardId)}
    (hholding : (w.machine n).holding = none)
    (horder : Enumerates order (w.machine n).sm.inner.shardRoutes) :
    ∃ w', Runs.exec (step J K L) w ([Move.build order, .cache].map (Label.mk n)) = some w' ∧
      StateMachineStore.snapshotOf K order (w.machine n).sm.inner ∈ w'.issued ∧
      ∀ k, k ≠ n → w'.machine k = w.machine k := by
  let snap := StateMachineStore.snapshotOf K order (w.machine n).sm.inner
  let m : Machine := { w.machine n with holding := some snap, installed := [] }
  let w₁ : World :=
    { machine := Function.update w.machine n m
      issued := w.issued ++ []
      builds := w.builds ++ [⟨(w.machine n).sm.inner, order⟩] }
  have hself : w₁.machine n = m := Function.update_self n m w.machine
  have hbuild : step J K L w ⟨n, .build order⟩ = some w₁ := by
    rw [step, if_pos (fun _ hs => by cases hs), Machine.step, if_pos ⟨hholding, horder⟩]
    rfl
  obtain ⟨m₂, hm₂⟩ : ∃ m₂, (w₁.machine n).step J K L .cache = some m₂ := by
    rw [hself]
    exact ⟨_, rfl⟩
  have hcache : step J K L w₁ ⟨n, .cache⟩ = some
      { machine := Function.update w₁.machine n m₂
        issued := w₁.issued ++ Move.returned (w₁.machine n) .cache
        builds := w₁.builds ++ [] } := by
    rw [step, if_pos (fun _ hs => by cases hs), hm₂]
    rfl
  refine ⟨_, Runs.exec_cons_some.mpr ⟨w₁, hbuild, Runs.exec_cons_some.mpr ⟨_, hcache, rfl⟩⟩, ?_, ?_⟩
  · refine List.mem_append_right _ ?_
    rw [hself]
    exact List.mem_singleton_self snap
  · intro k hk
    show Function.update (Function.update w.machine n m) n m₂ k = w.machine k
    rw [Function.update_of_ne hk, Function.update_of_ne hk]

/-- The moves of an install between the two sections of a build. -/
def overtake (order : List (String × ShardId)) (snap : Snapshot)
    (replayOrder encodeOrder : List (String × ShardId)) : List Move :=
  [.build order, .load snap, .replay replayOrder, .encode encodeOrder, .store]

/-- The installed snapshot is cached and the builder still holds its own. -/
theorem exec_overtake {m : Machine} {snap : Snapshot} {data : SnapshotData}
    {order replayOrder encodeOrder : List (String × ShardId)} (hfree : m.Free)
    (hholding : m.holding = none) (horder : Enumerates order m.sm.inner.shardRoutes)
    (hdecode : K.fromSlice snap.bytes = some data)
    (hnewer : nextIndex m.sm.inner.lastApplied ≤ snap.position)
    (hreplay : Enumerates replayOrder data.shardRoutes)
    (hencode : Enumerates encodeOrder data.shardRoutes) :
    ∃ m', Runs.exec (Machine.step J K L) m (overtake order snap replayOrder encodeOrder) = some m' ∧
      m'.sm.getCurrentSnapshot = some ⟨snap.snapMeta, K.toVec encodeOrder data.toInner.toData⟩ ∧
      m'.holding = some (StateMachineStore.snapshotOf K order m.sm.inner) := by
  have hinner : data.toInner.shardRoutes = data.shardRoutes := rfl
  let cached : Snapshot := ⟨snap.snapMeta, K.toVec encodeOrder data.toInner.toData⟩
  refine
    ⟨{ sm :=
        { m.sm with
          inner := data.toInner
          shardConfigTx := m.sm.shardConfigTx.map (· ++ replayCommands replayOrder data.toInner)
          cachedSnapshot := some cached }
       todo := []
       current := none
       installing := none
       holding := some (StateMachineStore.snapshotOf K order m.sm.inner)
       installed := [cached] }, ?_, rfl, rfl⟩
  simp only [overtake, Runs.exec, Machine.step, hholding, horder, and_self, if_true,
    Option.bind_some, Machine.Free, hfree.1, hfree.2.1, hfree.2.2, hnewer, hdecode, hinner, hreplay,
    hencode]
  rfl

/-- A log of two entries that carry nothing. -/
def twoBlanks : Log := Log.ofPayloads ⟨1, 1⟩ [.blank, .blank]

/-- The snapshot of the whole log. -/
def newerSnapshot : Snapshot :=
  StateMachineStore.snapshotOf snapshotJson [] (spec commandJson twoBlanks.entries)

/-- Node 2 applies the log and builds a snapshot.  Node 1 applies one entry, and its builder reads
the state just before the snapshot of node 2 is installed there. -/
def overtaken : List Label :=
  [Move.call 2, .record, .record].map (Label.mk 2) ++
    ([Move.build [], .cache].map (Label.mk 2) ++
      ([Move.call 1, .record] ++ overtake [] newerSnapshot [] []).map (Label.mk 1))

theorem exec_overtaken :
    ∃ w, Runs.exec (step commandJson snapshotJson twoBlanks) (World.start fun _ => ⟨true, true⟩)
        overtaken = some w ∧
      (∃ snap, (w.machine 1).sm.getCurrentSnapshot = some snap ∧ snap.position = 2) ∧
      ∃ held, (w.machine 1).holding = some held ∧ held.position = 1 := by
  obtain ⟨w₁, h₁, hinner, hholding, hstart⟩ : ∃ w,
      Runs.exec (step commandJson snapshotJson twoBlanks) (World.start fun _ => ⟨true, true⟩)
        ([Move.call 2, .record, .record].map (Label.mk 2)) = some w ∧
      (w.machine 2).sm.inner = spec commandJson twoBlanks.entries ∧ (w.machine 2).holding = none ∧
      w.machine 1 = Machine.start (Replica.start ⟨true, true⟩).sm :=
    Runs.exists_exec (by decide +kernel)
  have hnewer : Enumerates [] (spec commandJson twoBlanks.entries).shardRoutes := by decide +kernel
  obtain ⟨w₂, h₂, hissued, hother⟩ := exec_issue (J := commandJson) (K := snapshotJson)
    (L := twoBlanks) hholding (by rw [hinner]; exact hnewer)
  rw [hinner] at hissued
  obtain ⟨m, hm, hfree, hnone, hroutes, hnext⟩ : ∃ m,
      Runs.exec (Machine.step commandJson snapshotJson twoBlanks)
        (Machine.start (Replica.start ⟨true, true⟩).sm) [.call 1, .record] = some m ∧
      m.Free ∧ m.holding = none ∧ m.sm.inner.shardRoutes = ∅ ∧
      nextIndex m.sm.inner.lastApplied = 1 :=
    Runs.exists_exec (by decide +kernel)
  have hempty : Enumerates [] m.sm.inner.shardRoutes := ⟨List.nodup_nil, hroutes.symm⟩
  have hposition : newerSnapshot.position = 2 := by decide +kernel
  obtain ⟨m', hm', hcached, hheld⟩ := exec_overtake (J := commandJson) (K := snapshotJson)
    (L := twoBlanks) hfree hnone hempty (StateMachineStore.fromSlice_snapshotOf snapshotJson hnewer)
    (by rw [hnext]; exact Nat.le_of_lt hposition.ge) hnewer hnewer
  obtain ⟨w₃, h₃, hw₃, _⟩ := exec_node (n := 1) (w := w₂)
    (by rw [hother 1 (by decide), hstart]; exact Runs.exec_append_some.mpr ⟨m, hm, hm'⟩) (by
      simpa [overtake, Move.received] using hissued)
  refine ⟨w₃, Runs.exec_append_some.mpr ⟨w₁, h₁, Runs.exec_append_some.mpr ⟨w₂, h₂, h₃⟩⟩, ?_, ?_⟩
  · rw [hw₃]
    exact ⟨_, hcached, hposition⟩
  · rw [hw₃]
    exact ⟨_, hheld, hnext⟩

/-- **The cache goes backwards.**  The builder of node 1 stores its snapshot of one entry over the
installed snapshot of two. -/
theorem cache_goes_backwards :
    (∃ w w' snap held,
      Runs.exec (step commandJson snapshotJson twoBlanks) (World.start fun _ => ⟨true, true⟩)
        overtaken = some w ∧
      step commandJson snapshotJson twoBlanks w ⟨1, .cache⟩ = some w' ∧
      (w.machine 1).sm.getCurrentSnapshot = some snap ∧ snap.position = 2 ∧
      (w'.machine 1).sm.getCurrentSnapshot = some held ∧ held.position = 1) ∧
    ¬ ∀ (J : CommandJson) (K : SnapshotCodec) (L : Log) (wiring : NodeId → Wiring)
        (labels : List Label),
      Runs.Throughout (step J K L) (DataMatchesMeta K) (World.start wiring) labels ∧
        Runs.Ascends (step J K L) CachesNotOlder (World.start wiring) labels := by
  obtain ⟨w, h, ⟨snap, hcached, htwo⟩, held, hheld, hone⟩ := exec_overtaken
  have hm : (w.machine 1).step commandJson snapshotJson twoBlanks .cache = some
      { w.machine 1 with
        sm := { (w.machine 1).sm with cachedSnapshot := some held }
        holding := none } := by
    simp only [Machine.step, hheld]
  have hmoves : Runs.exec (Machine.step commandJson snapshotJson twoBlanks) (w.machine 1) [.cache] =
      some _ := Runs.exec_cons_some.mpr ⟨_, hm, rfl⟩
  obtain ⟨w', hstep, hw', _⟩ := exec_node hmoves (by simp [Move.received])
  have hcached' : (w'.machine 1).sm.getCurrentSnapshot = some held := by
    rw [hw']
    rfl
  obtain ⟨w'', hstep', hnil⟩ := Runs.exec_cons_some.mp hstep
  cases hnil
  refine ⟨⟨w, _, snap, held, h, hstep', hcached, htwo, hcached', hone⟩, fun hclaim => ?_⟩
  have hascends := (hclaim commandJson snapshotJson twoBlanks (fun _ => ⟨true, true⟩)
    (overtaken ++ [⟨1, .cache⟩])).2
  obtain ⟨snap', hsnap', hle⟩ := hascends overtaken [⟨1, .cache⟩] [] w _ (List.append_nil _).symm h
    hstep 1 snap hcached
  rw [hcached', Option.some.injEq] at hsnap'
  subst hsnap'
  omega

end RaftTimeDB.SnapshotTasks
