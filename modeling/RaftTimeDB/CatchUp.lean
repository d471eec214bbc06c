import RaftTimeDB.JsonFormats
import RaftTimeDB.Replicas

/-!
# Catching up: snapshots stand for the log, but not for its writes

Two results about the runs of `Replicas`.

* `snapshot_transparency` — a node's state is the `spec` of the log up to its `last_applied`, and so
  is every snapshot that is built, cached or relayed, however the node caught up.
* `catch_up_complete_iff` — the writes handed to the forwarder.  A snapshot carries no writes, and
  `install_snapshot` pushes nothing on the forwarder channel.  The channel has seen exactly the
  forwardable entries up to `last_applied`, each once and in log order, in every state of a run, if
  and only if no installed snapshot ever jumped over such an entry.

The forwarder task takes no part in this system, so a node's channel holds everything that was
ever pushed on it.
-/

set_option autoImplicit false

namespace RaftTimeDB.Replicas

open JsonFormats (commandJson snapshotJson)

variable {J : CommandJson} {K : SnapshotCodec} {L : Log}

/-- What a returned snapshot stands for: the `spec` of the log up to the id in its meta. -/
def StandsFor (J : CommandJson) (K : SnapshotCodec) (L : Log) (snap : Snapshot) : Prop :=
  ∃ data, K.fromSlice snap.bytes = some data ∧
    data.toInner = spec J (L.upTo snap.snapMeta.lastLogId) ∧
    data.lastApplied = snap.snapMeta.lastLogId ∧
    data.lastMembership = snap.snapMeta.lastMembership

theorem SnapshotOk.standsFor {snap : Snapshot} (h : SnapshotOk J K L snap) :
    StandsFor J K L snap := by
  obtain ⟨inner, hcut, hdecode, hlast, hmem⟩ := h.cut
  refine ⟨inner.toData, hdecode, ?_, hlast.symm, hmem.symm⟩
  rw [hlast]
  exact hcut.eq_spec

/-- **Snapshot transparency.**  After every run, every node's state is the `spec` of the log up to
its last applied id, `apply` answers once per entry, and every snapshot that was returned or is
cached anywhere stands for the part of the log its meta names. -/
theorem snapshot_transparency {wiring : NodeId → Wiring} {labels : List Label} {w : World}
    (h : Runs.exec (step J K L) (World.start wiring) labels = some w) :
    (∀ n, (w.replica n).sm.inner = spec J (L.upTo (w.replica n).sm.inner.lastApplied)) ∧
    (∀ (sm : StateMachineStore) (entries : List Entry),
      (sm.apply J entries).2.length = entries.length) ∧
    (∀ snap ∈ w.issued, StandsFor J K L snap) ∧
    (∀ n snap, (w.replica n).sm.getCurrentSnapshot = some snap → StandsFor J K L snap) := by
  have hinv := exec_inv h
  refine ⟨fun n => (hinv.cut n).eq_spec, ?_, fun snap hsnap => (hinv.issued snap hsnap).standsFor,
    fun n snap hsnap => (hinv.cached n snap hsnap).standsFor⟩
  intro sm entries
  rw [StateMachineStore.apply_spec, List.length_replicate]

/-- A membership, two writes, two shards and a route to each, one of which is removed again. -/
def mixedLog : Log :=
  Log.ofPayloads ⟨1, 1⟩
    [.membership ⟨[{1, 2}], (∅ : Finmap fun _ => BasicNode).insert 1 ⟨"node-1:4001"⟩⟩, .normal ⟨[3, 7], 1⟩,
      .normal ⟨encodeShardConfig commandJson (.createShard 1), 1⟩,
      .normal ⟨encodeShardConfig commandJson (.createShard 2), 1⟩,
      .normal ⟨encodeShardConfig commandJson (.addRoute "game" 1), 1⟩,
      .normal ⟨encodeShardConfig commandJson (.addRoute "chat" 2), 2⟩,
      .normal ⟨encodeShardConfig commandJson (.removeRoute "game"), 1⟩, .normal ⟨[4, 8], 2⟩]

/-- The snapshot of the whole log. -/
def mixedSnapshot : Snapshot :=
  StateMachineStore.snapshotOf snapshotJson [("chat", 2)] (spec commandJson mixedLog.entries)

/-- Node 2 applies the first four entries; the rest it gets with a snapshot of node 1. -/
theorem joined_stands_for_log :
    ∃ w, Runs.exec (step commandJson snapshotJson mixedLog) (World.start fun _ => ⟨true, true⟩)
        [.apply 2 4, .apply 1 5, .apply 1 3, .build 1 [("chat", 2)],
          .install 2 mixedSnapshot [("chat", 2)] [("chat", 2)]] = some w ∧
      w.applied 2 = 8 ∧
      (w.replica 2).sm.inner =
        spec commandJson (mixedLog.upTo (w.replica 2).sm.inner.lastApplied) ∧
      (w.replica 2).sm.inner.shardRoutes.lookup "chat" = some 2 ∧
      (w.replica 2).sm.inner.shardRoutes.lookup "game" = none ∧
      ∀ snap, (w.replica 2).sm.getCurrentSnapshot = some snap →
        StandsFor commandJson snapshotJson mixedLog snap := by
  obtain ⟨w, h, hinner, happlied⟩ : ∃ w,
      Runs.exec (step commandJson snapshotJson mixedLog) (World.start fun _ => ⟨true, true⟩)
        [.apply 2 4, .apply 1 5, .apply 1 3] = some w ∧
      (w.replica 1).sm.inner = spec commandJson mixedLog.entries ∧ w.applied 2 ≤ w.applied 1 :=
    Runs.exists_exec (by decide +kernel)
  obtain ⟨w', h', hjoined⟩ := exec_transfer h hinner [("chat", 2)] (by decide +kernel) 2 (by decide) happlied
  obtain ⟨hspec, -, -, hcached⟩ := snapshot_transparency h'
  refine ⟨w', h', ?_, hspec 2, ?_, ?_, hcached 2⟩
  · rw [World.applied, hjoined]
    show nextIndex (spec commandJson mixedLog.entries).lastApplied = 8
    decide +kernel
  · rw [hjoined]
    show (spec commandJson mixedLog.entries).shardRoutes.lookup "chat" = some 2
    decide +kernel
  · rw [hjoined]
    show (spec commandJson mixedLog.entries).shardRoutes.lookup "game" = none
    decide +kernel

/-! ## Writes handed to the forwarder -/

/-- The forwarder channel of `n` has seen exactly the forwardable entries up to `last_applied`. -/
def CaughtUp (L : Log) (n : NodeId) (w : World) : Prop :=
  (w.replica n).sm.forwarder =
    some ((L.entries.take (w.applied n)).filterMap Entry.forward?)

/-- A move does not jump over a forwardable entry on `n`: only installing a snapshot can. -/
def SkipsNoWrite (L : Log) (n : NodeId) (w : World) : Label → Prop
  | .install m snap _ _ =>
      m = n → ∀ i e, w.applied n ≤ i → i < nextIndex snap.snapMeta.lastLogId →
        L.entries[i]? = some e → e.forward? = none
  | _ => True

/-- The position after a batch. -/
theorem nextIndex_foldl_batch {w : World} (hinv : Inv J K L w) (n : NodeId) (count : Nat) :
    nextIndex ((batch L w n count).foldl (applyInner J) (w.replica n).sm.inner).lastApplied =
      min (w.applied n + count) L.entries.length := by
  obtain ⟨k, hk, hinner⟩ := hinv.cut n
  have happlied : w.applied n = k := by
    rw [World.applied, hinner, L.nextIndex_spec J hk]
  rw [batch, happlied, hinner, ← spec_append, ← List.take_add, List.take_eq_take_min,
    L.nextIndex_spec J (Nat.min_le_right _ _)]

/-- Applying a batch pushes exactly the batch's forwardable entries. -/
theorem CaughtUp.apply {w : World} {n : NodeId} (hinv : Inv J K L w) (h : CaughtUp L n w)
    (count : Nat) :
    CaughtUp L n (w.setStore n ((w.replica n).sm.apply J (batch L w n count)).1) := by
  have hnext := nextIndex_foldl_batch hinv n count
  unfold CaughtUp at h ⊢
  rw [setStore_applied_self, setStore_replica_self, StateMachineStore.apply_spec]
  simp only [h, Option.map_some, Option.some.injEq]
  rw [hnext, ← List.take_eq_take_min, List.take_add, List.filterMap_append]
  rfl

/-- Installing a snapshot pushes nothing, so the node stays caught up exactly when the snapshot
jumps over no forwardable entry. -/
theorem caughtUp_install_iff {w w' : World} {n : NodeId} {snap : Snapshot}
    {replayOrder encodeOrder : List (String × ShardId)} (hinv : Inv J K L w) (h : CaughtUp L n w)
    (hstep : step J K L w (.install n snap replayOrder encodeOrder) = some w') :
    CaughtUp L n w' ↔ SkipsNoWrite L n w (.install n snap replayOrder encodeOrder) := by
  obtain ⟨inner, _, hdecode, hlast, _⟩ := (hinv.issued snap (install_issued hstep)).cut
  obtain ⟨hle, _, _, rfl⟩ := install_decoded hdecode hstep
  have hsplit := Lists.filterMap_take_split Entry.forward? L.entries hle
  unfold CaughtUp at h ⊢
  rw [setStore_applied_self, setStore_replica_self]
  simp only
  rw [h, ← hlast, hsplit, Option.some.injEq, List.self_eq_append_right,
    Lists.filterMap_segment_eq_nil_iff]
  simp [SkipsNoWrite]

/-- **A move keeps a node caught up exactly when it jumps over no forwardable entry.** -/
theorem caughtUp_step_iff {w w' : World} {n : NodeId} {l : Label} (hinv : Inv J K L w)
    (h : CaughtUp L n w) (hstep : step J K L w l = some w') :
    CaughtUp L n w' ↔ SkipsNoWrite L n w l := by
  by_cases hn : l.node = n
  · subst hn
    cases l with
    | apply n count =>
      simp only [step, Option.some.injEq] at hstep
      subst hstep
      exact iff_of_true (h.apply hinv count) trivial
    | build n order =>
      simp only [step] at hstep
      split at hstep
      · cases hstep
        refine iff_of_true ?_ trivial
        simpa [CaughtUp, World.applied, Label.node, StateMachineStore.buildSnapshot] using h
      · cases hstep
    | current n =>
      simp only [step, Option.some.injEq] at hstep
      subst hstep
      exact iff_of_true h trivial
    | install n snap replayOrder encodeOrder => exact caughtUp_install_iff hinv h hstep
    | receive n =>
      simp only [step] at hstep
      split at hstep
      · cases hstep
        refine iff_of_true ?_ trivial
        simpa [CaughtUp, World.applied, Label.node] using h
      · cases hstep
    | handle n created =>
      simp only [step] at hstep
      split at hstep
      · cases hstep
        refine iff_of_true ?_ trivial
        simpa [CaughtUp, World.applied, Label.node] using h
      · cases hstep
  · have hframe := step_replica_ne hstep hn
    have hother : SkipsNoWrite L n w l := by
      cases l with
      | install m snap replayOrder encodeOrder => exact fun hm => absurd hm hn
      | _ => trivial
    refine iff_of_true ?_ hother
    simpa [CaughtUp, World.applied, hframe] using h

/-- **Catch-up completeness, exactly.**  On a node with its forwarder channel attached, every state
of a run has pushed exactly the forwardable entries up to `last_applied`, each once and in log
order, if and only if no snapshot installed on the node in that run jumps over such an entry. -/
theorem catch_up_complete_iff {wiring : NodeId → Wiring} {n : NodeId}
    (hwired : (wiring n).forwarder = true) {labels : List Label} {w : World}
    (h : Runs.exec (step J K L) (World.start wiring) labels = some w) :
    Runs.Throughout (step J K L) (CaughtUp L n) (World.start wiring) labels ↔
      Runs.Along (step J K L) (SkipsNoWrite L n) (World.start wiring) labels := by
  refine Runs.throughout_iff_along (fun _ _ _ hI hs => step_inv hI hs)
    (fun _ _ _ hI hP hs => caughtUp_step_iff hI hP hs) (Inv.start wiring) ?_ h
  simp [CaughtUp, World.start, Replica.start, hwired, World.applied, StateMachineStore.new,
    StateMachineInner.new]

/-! ## A joining node -/

/-- Node 1 has proposed a write. -/
def oneWrite : Log := Log.ofPayloads ⟨1, 1⟩ [.normal ⟨[3], 1⟩]

/-- The snapshot a node builds once it has applied the write. -/
def oneWriteSnapshot : Snapshot :=
  StateMachineStore.snapshotOf snapshotJson [] (spec commandJson oneWrite.entries)

/-- Node 1 applies the write and builds a snapshot, which node 2 installs. -/
def joinBySnapshot : List Label := [.apply 1 1, .build 1 [], .install 2 oneWriteSnapshot [] []]

theorem exec_joinBySnapshot :
    ∃ w, Runs.exec (step commandJson snapshotJson oneWrite) (World.start fun _ => ⟨true, true⟩)
        joinBySnapshot = some w ∧
      w.applied 2 = 1 ∧ (w.replica 2).sm.forwarder = some [] := by
  obtain ⟨w, h, hinner, happlied, hforwarder⟩ : ∃ w,
      Runs.exec (step commandJson snapshotJson oneWrite) (World.start fun _ => ⟨true, true⟩)
        [.apply 1 1] = some w ∧
      (w.replica 1).sm.inner = spec commandJson oneWrite.entries ∧ w.applied 2 ≤ w.applied 1 ∧
      (w.replica 2).sm.forwarder = some [] :=
    Runs.exists_exec (by decide +kernel)
  obtain ⟨w', h', hjoined⟩ := exec_transfer h hinner [] (by decide) 2 (by decide) happlied
  refine ⟨w', h', ?_, ?_⟩
  · rw [World.applied, hjoined]
    rfl
  · rw [hjoined]
    exact hforwarder

/-- A node that has applied the write itself stays caught up when it installs a snapshot of it. -/
theorem caught_up_with_snapshot :
    ∃ w, Runs.exec (step commandJson snapshotJson oneWrite) (World.start fun _ => ⟨true, true⟩)
        (.apply 2 1 :: joinBySnapshot) = some w ∧
      Runs.Throughout (step commandJson snapshotJson oneWrite) (CaughtUp oneWrite 2)
        (World.start fun _ => ⟨true, true⟩) (.apply 2 1 :: joinBySnapshot) := by
  obtain ⟨w, h, hinner, happlied⟩ : ∃ w,
      Runs.exec (step commandJson snapshotJson oneWrite) (World.start fun _ => ⟨true, true⟩)
        [.apply 2 1, .apply 1 1] = some w ∧
      (w.replica 1).sm.inner = spec commandJson oneWrite.entries ∧ w.applied 2 ≤ w.applied 1 :=
    Runs.exists_exec (by decide +kernel)
  obtain ⟨w', h', _⟩ := exec_transfer h hinner [] (by decide) 2 (by decide) happlied
  refine ⟨w', h', (catch_up_complete_iff rfl h').mpr ?_⟩
  -- only the last move installs a snapshot, and by then the node has applied the write
  show Runs.Along _ _ _ ([Label.apply 2 1, .apply 1 1, .build 1 []] ++
    [.install 2 oneWriteSnapshot [] []])
  refine Runs.Along.append (Runs.along_of_forall (by simp [SkipsNoWrite])) fun t ht =>
    ⟨fun _ i e hi hlt => ?_, ?_⟩
  · have hone : t.applied 2 = 1 :=
      Runs.exec_check (P := fun w => w.applied 2 = 1) ht (by decide +kernel)
    have hid : nextIndex oneWriteSnapshot.snapMeta.lastLogId = 1 := rfl
    omega
  · exact fun _ _ => trivial

/-- **A snapshot skips a write.**  The joining node reports the write as applied and has handed
nothing to its forwarder. -/
theorem snapshot_skips_write :
    ∃ w, Runs.exec (step commandJson snapshotJson oneWrite) (World.start fun _ => ⟨true, true⟩)
        joinBySnapshot = some w ∧
      w.applied 2 = 1 ∧ ¬ CaughtUp oneWrite 2 w := by
  obtain ⟨w, h, happlied, hforwarder⟩ := exec_joinBySnapshot
  refine ⟨w, h, happlied, ?_⟩
  intro hcaught
  rw [CaughtUp, happlied, hforwarder] at hcaught
  exact absurd hcaught (by decide)

end RaftTimeDB.Replicas
