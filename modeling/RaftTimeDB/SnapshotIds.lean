import RaftTimeDB.Lib.Trim
import RaftTimeDB.SnapshotTasks

/-!
# Snapshot ids

`build_snapshot` names a snapshot after `last_applied` and nothing else, while the bytes show the
whole locked state and the order in which its hash map of routes iterates.

The results rest on two documented facts of the formatting: the text of a map lists the entries in
their order, and no leader id is displayed as a lone `0`, so that `0-0` names only the state before
the first entry.

Principal results: `snapshotId_eq_iff` — in one log the id determines `last_applied`;
`builds_inOrder_iff` — which schedules make every build show the log up to its id, in a fixed order of
routes; `same_id_same_bytes_iff` — those are the runs whose builds have the bytes of every such build with
the same id.
-/

set_option autoImplicit false

namespace RaftTimeDB

/-! ## Ids -/

/-- The text of an id of an entry, cut at its last dash. -/
theorem toList_snapshotId (K : SnapshotCodec) (inner : StateMachineInner) {id : LogId}
    (h : inner.lastApplied = some id) :
    (K.snapshotId inner).toList =
      (K.showLeader id.leaderId).toList ++ '-' :: Nat.toDigits 10 id.index := by
  unfold SnapshotCodec.snapshotId
  rw [h]
  simp

theorem dash_notMem_toDigits (n : Nat) : '-' ∉ Nat.toDigits 10 n := by
  intro hmem
  have hdigit := Nat.isDigit_of_mem_toDigits (by decide) (by decide) hmem
  cases hdigit

variable {J : CommandJson} {K : SnapshotCodec} {L : Log}

/-- An entry is never named like the state before the first entry. -/
theorem snapshotId_ne_of_none (hleader : ∀ id, K.showLeader id ≠ "0")
    {inner inner' : StateMachineInner} {id : LogId} (h : inner.lastApplied = some id)
    (h' : inner'.lastApplied = none) : K.snapshotId inner ≠ K.snapshotId inner' := by
  intro heq
  have htext : (K.showLeader id.leaderId).toList ++ '-' :: Nat.toDigits 10 id.index =
      ['0'] ++ '-' :: ['0'] := by
    rw [← toList_snapshotId K inner h, heq, SnapshotCodec.snapshotId, h']
    show "0-0".toList = ['0', '-', '0']
    decide
  obtain ⟨hshown, _⟩ := Trim.append_cons_inj (dash_notMem_toDigits id.index) (by decide) htext
  exact hleader id.leaderId (String.toList_injective hshown)

/-- **In one log the snapshot id determines `last_applied`.** -/
theorem snapshotId_eq_iff (hleader : ∀ id, K.showLeader id ≠ "0") {inner inner' : StateMachineInner}
    (hreached : L.Reached inner.lastApplied) (hreached' : L.Reached inner'.lastApplied) :
    K.snapshotId inner = K.snapshotId inner' ↔ inner.lastApplied = inner'.lastApplied := by
  constructor
  · intro heq
    cases h : inner.lastApplied with
    | none =>
      cases h' : inner'.lastApplied with
      | none => rfl
      | some id' => exact absurd heq.symm (snapshotId_ne_of_none hleader h' h)
    | some id =>
      cases h' : inner'.lastApplied with
      | none => exact absurd heq (snapshotId_ne_of_none hleader h h')
      | some id' =>
        have htext := congrArg String.toList heq
        rw [toList_snapshotId K inner h, toList_snapshotId K inner' h'] at htext
        obtain ⟨_, hdigits⟩ := Trim.append_cons_inj (dash_notMem_toDigits id.index)
          (dash_notMem_toDigits id'.index) htext
        rw [← h, ← h']
        refine hreached.eq_of_nextIndex hreached' ?_
        rw [h, h', nextIndex_some, nextIndex_some, Codec.toDigits_injective hdigits]
  · intro heq
    unfold SnapshotCodec.snapshotId
    rw [heq]

namespace SnapshotTasks

open SnapshotCut (Section routeAdded)
open JsonFormats (commandJson snapshotJson)

/-! ## Bytes -/

/-- **The bytes of a build determine what it has read**, if the text lists the routes in their
order. -/
theorem bytes_eq_iff
    (hlisted : ∀ order order' data, Enumerates order data.shardRoutes →
      Enumerates order' data.shardRoutes → K.toVec order data = K.toVec order' data → order = order')
    {a b : Build} (ha : Enumerates a.order a.inner.shardRoutes)
    (hb : Enumerates b.order b.inner.shardRoutes) :
    (a.snapshot K).bytes = (b.snapshot K).bytes ↔ a.inner = b.inner ∧ a.order = b.order := by
  constructor
  · intro heq
    have hdata : some a.inner.toData = some b.inner.toData := by
      rw [← StateMachineStore.fromSlice_snapshotOf K ha, ← StateMachineStore.fromSlice_snapshotOf K hb]
      exact congrArg K.fromSlice heq
    have hinner : a.inner = b.inner := congrArg SnapshotData.toInner (Option.some.inj hdata)
    refine ⟨hinner, ?_⟩
    obtain ⟨inner, order⟩ := a
    obtain ⟨inner', order'⟩ := b
    subst hinner
    exact hlisted order order' inner.toData ha hb heq
  · rintro ⟨hinner, horder⟩
    unfold Build.snapshot
    rw [hinner, horder]

/-! ## Builds between entries -/

/-- The builders read no half-applied entry. -/
def BuildsBetweenEntries (w : World) (l : Label) : Prop :=
  ∀ order, l.move = .build order → (w.machine l.node).current = none

/-- The part of a node `SnapshotCut` looks at. -/
def Machine.applying (m : Machine) : SnapshotCut.World :=
  ⟨m.sm.inner, m.todo, m.current, none, none, []⟩

/-- The data of a snapshot is the state of an initial part of the log. -/
def IsCut (J : CommandJson) (K : SnapshotCodec) (L : Log) (snap : Snapshot) : Prop :=
  ∀ data, K.fromSlice snap.bytes = some data → L.IsCut J data.toInner

theorem IsCut.encode {inner : StateMachineInner} {snapMeta : SnapshotMeta}
    {order : List (String × ShardId)} (horder : Enumerates order inner.shardRoutes)
    (hcut : L.IsCut J inner) : IsCut J K L ⟨snapMeta, K.toVec order inner.toData⟩ := by
  intro data hdata
  have hround : K.fromSlice (K.toVec order inner.toData) = some inner.toData :=
    K.roundtrip order inner.toData horder
  cases hround.symm.trans hdata
  exact hcut

structure Machine.Cuts (J : CommandJson) (K : SnapshotCodec) (L : Log) (m : Machine) : Prop where
  applying : ∃ done, SnapshotCut.Inv J L m.applying done
  storing : ∀ snap, m.installing = some (.store snap) → IsCut J K L snap
  holding : ∀ snap, m.holding = some snap → IsCut J K L snap
  cached : ∀ snap, m.sm.getCurrentSnapshot = some snap → IsCut J K L snap

theorem Machine.Cuts.inner {m : Machine} (h : m.Cuts J K L) (hcurrent : m.current = none) :
    L.IsCut J m.sm.inner := by
  obtain ⟨done, hinv⟩ := h.applying
  exact ⟨done, hinv.le, (hinv.idle hcurrent).1⟩

/-- A section of `apply` is the section of `SnapshotCut`. -/
theorem Machine.Cuts.advance {m m' : Machine} {l : SnapshotCut.Label} (h : m.Cuts J K L)
    (hstep : SnapshotCut.step J K L m.applying l = some m'.applying)
    (hinstalling : m'.installing = m.installing) (hholding : m'.holding = m.holding)
    (hcached : m'.sm.getCurrentSnapshot = m.sm.getCurrentSnapshot) : m'.Cuts J K L where
  applying := SnapshotCut.step_inv h.applying hstep
  storing snap hsnap := h.storing snap (hinstalling ▸ hsnap)
  holding snap hsnap := h.holding snap (hholding ▸ hsnap)
  cached snap hsnap := h.cached snap (hcached ▸ hsnap)

/-- **Every section keeps a node on cuts of the log**, if what it takes from other nodes is one and
nothing is built in the middle of an entry. -/
theorem Machine.step_cuts {m m' : Machine} {move : Move} (hok : m.Ok K L) (hcuts : m.Cuts J K L)
    (hreceived : ∀ snap ∈ move.received, IsCut J K L snap)
    (hbetween : ∀ order, move = .build order → m.current = none)
    (h : m.step J K L move = some m') : m'.Cuts J K L := by
  cases Machine.turn_of_step h with
  | @call count hfree =>
    refine hcuts.advance (l := .call count) ?_ rfl rfl rfl
    exact if_pos ⟨hfree.1, hfree.2.1⟩
  | record hcurrent htodo =>
    refine hcuts.advance (l := .record) ?_ rfl rfl rfl
    simp only [SnapshotCut.step, Machine.applying, hcurrent, htodo]
  | command hcurrent hcmd =>
    refine hcuts.advance (l := .command) ?_ rfl rfl rfl
    simp only [SnapshotCut.step, Machine.applying, hcurrent, hcmd, StateMachineStore.sendShardConfig]
  | @count e hcurrent =>
    obtain ⟨hinner, hcached⟩ := forwarded_fields m.sm e
    refine hcuts.advance (l := .count) ?_ rfl rfl hcached
    simp only [SnapshotCut.step, Machine.applying, hcurrent, hinner]
  | @build order horder =>
    have hcut := hcuts.inner (hbetween order rfl)
    refine { hcuts with holding := ?_ }
    rintro snap hsnap
    cases hsnap
    exact IsCut.encode horder hcut
  | cache hheld =>
    refine
      { hcuts with
        holding := fun snap hsnap => by cases hsnap
        cached := ?_ }
    rintro snap hsnap
    cases hsnap
    exact hcuts.holding _ hheld
  | getCurrent => exact hcuts
  | @load snap data hfree hnewer hdecode =>
    obtain ⟨k, hk, hinner⟩ := hreceived snap (List.mem_singleton_self snap) data hdecode
    refine { hcuts with applying := ⟨k, hk, fun _ => ⟨hinner, ?_⟩, ?_⟩, storing := ?_ }
    · show m.todo <+: _
      rw [hfree.1]
      exact List.nil_prefix
    · intro e sec hsec
      have hnone : m.current = some (e, sec) := hsec
      rw [hfree.2.1] at hnone
      cases hnone
    · rintro s hs
      cases hs
  | refuse hdecode => exact hcuts
  | replay hinstalling => exact { hcuts with storing := fun snap hsnap => by cases hsnap }
  | encode hinstalling horder =>
    have hcut := hcuts.inner (hok.installing _ hinstalling).2.1
    refine { hcuts with storing := ?_ }
    rintro snap hsnap
    cases hsnap
    exact IsCut.encode horder hcut
  | store hinstalling =>
    refine
      { hcuts with
        storing := fun s hs => by cases hs
        cached := ?_ }
    rintro s hs
    cases hs
    exact hcuts.storing _ hinstalling

structure World.Cuts (J : CommandJson) (K : SnapshotCodec) (L : Log) (w : World) : Prop where
  ok : w.Ok K L
  machine : ∀ n, (w.machine n).Cuts J K L
  issued : ∀ snap ∈ w.issued, IsCut J K L snap
  builds : ∀ b ∈ w.builds, L.IsCut J b.inner

theorem World.Cuts.start (wiring : NodeId → Wiring) : (World.start wiring).Cuts J K L where
  ok := World.Ok.start wiring
  machine n :=
    { applying := ⟨0, Nat.zero_le _, fun _ => ⟨rfl, List.nil_prefix⟩, fun _ _ h => by cases h⟩
      storing := fun snap h => by cases h
      holding := fun snap h => by cases h
      cached := fun snap h => by cases h }
  issued snap h := by cases h
  builds b h := by cases h

theorem step_cuts {w w' : World} {l : Label} (hcuts : w.Cuts J K L)
    (hbetween : BuildsBetweenEntries w l) (h : step J K L w l = some w') : w'.Cuts J K L := by
  have hok' := step_ok hcuts.ok h
  obtain ⟨hreceived, m, hm, rfl⟩ := step_some h
  have hm' := Machine.step_cuts (hcuts.ok.machine l.node) (hcuts.machine l.node)
    (fun s hs => hcuts.issued s (hreceived s hs)) hbetween hm
  refine ⟨hok', ?_, ?_, ?_⟩
  · exact (Function.forall_update_iff w.machine fun _ m => m.Cuts J K L).mpr
      ⟨hm', fun n _ => hcuts.machine n⟩
  · intro snap hsnap
    rcases List.mem_append.mp hsnap with hsnap | hsnap
    · exact hcuts.issued snap hsnap
    · rcases Move.mem_returned hsnap with hheld | hcached
      · exact (hcuts.machine l.node).holding snap hheld
      · exact (hcuts.machine l.node).cached snap hcached
  · intro b hb
    rcases List.mem_append.mp hb with hb | hb
    · exact hcuts.builds b hb
    · obtain ⟨order, hmove, rfl⟩ := Move.mem_builds hb
      exact (hcuts.machine l.node).inner (hbetween order hmove)

/-- The cuts a run reaches whose builders read no half-applied entry. -/
theorem exec_cuts {wiring : NodeId → Wiring} {labels : List Label} {w : World}
    (h : Runs.exec (step J K L) (World.start wiring) labels = some w)
    (hbetween : Runs.Along (step J K L) BuildsBetweenEntries (World.start wiring) labels) :
    w.Cuts J K L :=
  Runs.exec_inv_along (fun _ _ _ hc hl hs => step_cuts hc hl hs) (World.Cuts.start wiring) hbetween h

/-- **Builds between entries agree on the state.**  In runs over one log whose builders read no
half-applied entry, two builds at the same `last_applied` read the same state. -/
theorem inner_eq_of_cuts {w w' : World} (hcuts : w.Cuts J K L) (hcuts' : w'.Cuts J K L) {a b : Build}
    (ha : a ∈ w.builds) (hb : b ∈ w'.builds) (hlast : a.inner.lastApplied = b.inner.lastApplied) :
    a.inner = b.inner := by
  calc a.inner = spec J (L.upTo a.inner.lastApplied) := (hcuts.builds a ha).eq_spec
    _ = spec J (L.upTo b.inner.lastApplied) := by rw [hlast]
    _ = b.inner := (hcuts'.builds b hb).eq_spec.symm

/-! ## Builds in order -/

variable {order : RouteMap → List (String × ShardId)}

/-- The builders read no half-applied entry, and the hash maps list equal tables in one `order`. -/
def BuildsInOrder (order : RouteMap → List (String × ShardId)) (w : World) (l : Label) : Prop :=
  ∀ b ∈ l.move.builds (w.machine l.node),
    (w.machine l.node).current = none ∧ b.order = order b.inner.shardRoutes

instance (order : RouteMap → List (String × ShardId)) (w : World) (l : Label) :
    Decidable (BuildsInOrder order w l) :=
  inferInstanceAs (Decidable (∀ b ∈ l.move.builds (w.machine l.node),
    (w.machine l.node).current = none ∧ b.order = order b.inner.shardRoutes))

theorem BuildsInOrder.betweenEntries {w : World} {l : Label} (h : BuildsInOrder order w l) :
    BuildsBetweenEntries w l := by
  intro listed hmove
  refine (h ⟨(w.machine l.node).sm.inner, listed⟩ ?_).1
  rw [hmove]
  exact List.mem_singleton_self _

/-- What a build shows when it reads the log up to its id in the order. -/
def Build.InOrder (J : CommandJson) (L : Log) (order : RouteMap → List (String × ShardId))
    (b : Build) : Prop :=
  b.inner = spec J (L.upTo b.inner.lastApplied) ∧ b.order = order b.inner.shardRoutes

/-- **Builds in order, exactly**: every build of a run reads the state its id stands for, in the order,
if and only if the builders never read a half-applied entry and the hash maps list in the order. -/
theorem builds_inOrder_iff {wiring : NodeId → Wiring} {labels : List Label} {w : World}
    (h : Runs.exec (step J K L) (World.start wiring) labels = some w) :
    (∀ b ∈ w.builds, b.InOrder J L order) ↔
      Runs.Along (step J K L) (BuildsInOrder order) (World.start wiring) labels := by
  refine Runs.exec_iff_along_of_inv
    (I := fun w => w.Cuts J K L ∧ ∀ b ∈ w.builds, b.order = order b.inner.shardRoutes)
    (P := fun w => ∀ b ∈ w.builds, b.InOrder J L order)
    ?_ ?_ ?_ ?_ ⟨World.Cuts.start wiring, fun b hb => by cases hb⟩ h
  · rintro w ⟨hcuts, hordered⟩ b hb
    exact ⟨(hcuts.builds b hb).eq_spec, hordered b hb⟩
  · rintro w l w' ⟨hcuts, hordered⟩ hl hs
    refine ⟨step_cuts hcuts hl.betweenEntries hs, ?_⟩
    obtain ⟨_, m, _, rfl⟩ := step_some hs
    intro b hb
    rcases List.mem_append.mp hb with hb | hb
    · exact hordered b hb
    · exact (hl b hb).2
  · rintro w l w' ⟨hcuts, _⟩ hs hend b hb
    obtain ⟨_, m, _, rfl⟩ := step_some hs
    obtain ⟨hspec, horder⟩ := hend b (List.mem_append_right _ hb)
    obtain ⟨listed, _, rfl⟩ := Move.mem_builds hb
    obtain ⟨done, hinv⟩ := (hcuts.machine l.node).applying
    exact ⟨hinv.eq_spec_iff.mp hspec, horder⟩
  · intro w l w' hs hend b hb
    obtain ⟨_, m, _, rfl⟩ := step_some hs
    exact hend b (List.mem_append_left _ hb)

/-! ### A build for every id -/

/-- A node applies the next entries of its call, with nothing in between. -/
theorem exec_entries {m : Machine} {es rest : List Entry} (hcurrent : m.current = none)
    (htodo : m.todo = es ++ rest) :
    ∃ sm, Runs.exec (Machine.step J K L) m (es.flatMap (entryMoves J)) =
        some { m with sm := sm, todo := rest } ∧
      sm.inner = es.foldl (applyInner J) m.sm.inner := by
  induction es generalizing m with
  | nil =>
    refine ⟨m.sm, ?_, rfl⟩
    rw [List.nil_append] at htodo
    rw [← htodo]
    rfl
  | cons e es ih =>
    rw [List.cons_append] at htodo
    have hentry := exec_applyEntry (J := J) (K := K) (L := L) hcurrent htodo
    obtain ⟨sm, hes, hinner⟩ := ih (m := { m with sm := m.sm.applyEntry J e, todo := es ++ rest })
      hcurrent rfl
    refine ⟨sm, ?_, ?_⟩
    · rw [List.flatMap_cons, Runs.exec_append, hentry, Option.bind_some, hes]
    · rw [hinner, List.foldl_cons, StateMachineStore.applyEntry_spec]

theorem entryMoves_quiet {e : Entry} {move : Move} (h : move ∈ entryMoves J e) :
    move.received = [] ∧ ∀ m, move.builds m = [] := by
  have hmove : move = .record ∨ move = .command ∨ move = .count := by
    unfold entryMoves at h
    split at h
    · split at h
      · simpa using h
      · rcases List.mem_cons.mp h with h | h
        · exact .inl h
        · exact .inr (.inr (List.mem_singleton.mp h))
    · exact .inl (List.mem_singleton.mp h)
  rcases hmove with rfl | rfl | rfl <;> exact ⟨rfl, fun _ => rfl⟩

/-- **Every id of the log has a build in order**: a node applies the log up to it and builds. -/
theorem exists_build_inOrder (horder : ∀ routes, Enumerates (order routes) routes)
    (wiring : NodeId → Wiring) {id : Option LogId} (hid : L.Reached id) :
    ∃ labels w, Runs.exec (step J K L) (World.start wiring) labels = some w ∧
      Runs.Along (step J K L) (BuildsInOrder order) (World.start wiring) labels ∧
      ∃ b ∈ w.builds, b.inner.lastApplied = id := by
  let start := Machine.start (Replica.start (wiring 0)).sm
  have htodo : { start with todo := L.upTo id }.todo = L.upTo id ++ [] := (List.append_nil _).symm
  obtain ⟨sm, hentries, hinner⟩ := exec_entries (J := J) (K := K) (L := L)
    (m := { start with todo := L.upTo id }) rfl htodo
  have hfree : start.Free := ⟨rfl, rfl, rfl⟩
  have hcall : start.step J K L (.call (nextIndex id)) = some { start with todo := L.upTo id } := by
    simp only [Machine.step, if_pos hfree]
    rfl
  have happlied : Runs.exec (Machine.step J K L) ((World.start wiring).machine 0)
      (.call (nextIndex id) :: (L.upTo id).flatMap (entryMoves J)) =
        some { start with sm := sm, todo := [] } :=
    Runs.exec_cons_some.mpr ⟨_, hcall, hentries⟩
  have hquiet : ∀ move ∈ Move.call (nextIndex id) :: (L.upTo id).flatMap (entryMoves J),
      move.received = [] ∧ ∀ m, move.builds m = [] := by
    intro move hmove
    rcases List.mem_cons.mp hmove with rfl | hmove
    · exact ⟨rfl, fun _ => rfl⟩
    · obtain ⟨e, _, hmove⟩ := List.mem_flatMap.mp hmove
      exact entryMoves_quiet hmove
  obtain ⟨w, hw, hmachine, _⟩ := exec_node happlied fun move hmove snap hsnap => by
    rw [(hquiet move hmove).1] at hsnap
    cases hsnap
  have hlast : sm.inner.lastApplied = id := by
    rw [hinner]
    show ((L.upTo id).foldl (applyInner J) StateMachineInner.new).lastApplied = id
    rw [foldl_applyInner_new]
    exact hid
  have hbuild : step J K L w ⟨0, .build (order sm.inner.shardRoutes)⟩ = some
      { machine := Function.update w.machine 0
          { start with
            sm := sm
            todo := []
            holding := some (StateMachineStore.snapshotOf K (order sm.inner.shardRoutes) sm.inner)
            installed := [] }
        issued := w.issued
        builds := w.builds ++ [⟨sm.inner, order sm.inner.shardRoutes⟩] } := by
    have hholding : start.holding = none := rfl
    simp [step, Move.received, Move.returned, Move.builds, Machine.step, hmachine, hholding, horder]
  have hrun := Runs.exec_append_some.mpr
    ⟨w, hw, Runs.exec_cons_some.mpr ⟨_, hbuild, Runs.exec_nil _⟩⟩
  refine ⟨_, _, hrun, ?_, ⟨sm.inner, order sm.inner.shardRoutes⟩,
    List.mem_append_right _ (List.mem_singleton_self _), hlast⟩
  refine Runs.Along.append (Runs.along_of_forall ?_) ?_
  · intro l hl w b hb
    obtain ⟨move, hmove, rfl⟩ := List.mem_map.mp hl
    rw [(hquiet move hmove).2] at hb
    cases hb
  · intro t ht
    obtain rfl : w = t := Option.some.inj (hw.symm.trans ht)
    refine ⟨?_, fun _ _ => trivial⟩
    intro b hb
    obtain rfl : b = ⟨(w.machine 0).sm.inner, order sm.inner.shardRoutes⟩ := List.mem_singleton.mp hb
    rw [hmachine]
    exact ⟨rfl, rfl⟩

/-! ## Ids and bytes -/

section

variable
  (hlisted : ∀ order order' data, Enumerates order data.shardRoutes →
    Enumerates order' data.shardRoutes → K.toVec order data = K.toVec order' data → order = order')
  (hleader : ∀ id, K.showLeader id ≠ "0")

include hlisted hleader

/-- Two builds give the same bytes whenever they give the same id, if and only if they read the same
state in the same order of routes whenever they read the same `last_applied`. -/
theorem same_bytes_of_id_iff {w w' : World} (hok : w.Ok K L) (hok' : w'.Ok K L) {a b : Build}
    (ha : a ∈ w.builds) (hb : b ∈ w'.builds) :
    ((a.snapshot K).snapMeta.snapshotId = (b.snapshot K).snapMeta.snapshotId →
      (a.snapshot K).bytes = (b.snapshot K).bytes) ↔
    (a.inner.lastApplied = b.inner.lastApplied → a.inner = b.inner ∧ a.order = b.order) := by
  obtain ⟨haorder, hareached⟩ := hok.builds a ha
  obtain ⟨hborder, hbreached⟩ := hok'.builds b hb
  have hid : (a.snapshot K).snapMeta.snapshotId = (b.snapshot K).snapMeta.snapshotId ↔
      a.inner.lastApplied = b.inner.lastApplied := snapshotId_eq_iff hleader hareached hbreached
  rw [hid, bytes_eq_iff hlisted haorder hborder]

/-- **Ids and bytes, exactly.**  Let `order` be a way to list the routes of a table.  The builds of a run
have the bytes of every build with the same id, on any node of any run over the same log that builds in
order, if and only if no builder of the run reads a half-applied entry and the hash maps of the run list
equal tables in that order.  So ids determine bytes among the runs that build in order; and where builders
only keep clear of half-applied entries, two builds with one id differ exactly if they list the routes in
different orders. -/
theorem same_id_same_bytes_iff (horder : ∀ routes, Enumerates (order routes) routes)
    {wiring : NodeId → Wiring} {labels : List Label} {w : World}
    (h : Runs.exec (step J K L) (World.start wiring) labels = some w) :
    ((∀ wiring' labels' w', Runs.exec (step J K L) (World.start wiring') labels' = some w' →
        Runs.Along (step J K L) (BuildsInOrder order) (World.start wiring') labels' →
        ∀ a ∈ w.builds, ∀ b ∈ w'.builds,
          (a.snapshot K).snapMeta.snapshotId = (b.snapshot K).snapMeta.snapshotId →
            (a.snapshot K).bytes = (b.snapshot K).bytes) ↔
      Runs.Along (step J K L) (BuildsInOrder order) (World.start wiring) labels) ∧
    (Runs.Along (step J K L) BuildsBetweenEntries (World.start wiring) labels →
      ∀ wiring' labels' w', Runs.exec (step J K L) (World.start wiring') labels' = some w' →
        Runs.Along (step J K L) BuildsBetweenEntries (World.start wiring') labels' →
        ∀ a ∈ w.builds, ∀ b ∈ w'.builds,
          (a.snapshot K).snapMeta.snapshotId = (b.snapshot K).snapMeta.snapshotId →
            ((a.snapshot K).bytes = (b.snapshot K).bytes ↔ a.order = b.order)) := by
  have hok := exec_ok h
  refine ⟨?_, ?_⟩
  · rw [← builds_inOrder_iff h]
    constructor
    · intro hsame a ha
      -- the build in order at the same id
      obtain ⟨labels', w', h', halong, b, hb, hlast⟩ := exists_build_inOrder (J := J) (K := K)
        horder wiring (hok.builds a ha).2
      obtain ⟨hspec, hordered⟩ := (builds_inOrder_iff h').mpr halong b hb
      obtain ⟨hinner, horders⟩ := (same_bytes_of_id_iff hlisted hleader hok (exec_ok h') ha hb).mp
        (hsame wiring labels' w' h' halong a ha b hb) hlast.symm
      unfold Build.InOrder
      rw [hinner, horders]
      exact ⟨hspec, hordered⟩
    · intro hinorder wiring' labels' w' h' halong a ha b hb
      refine (same_bytes_of_id_iff hlisted hleader hok (exec_ok h') ha hb).mpr ?_
      intro hlast
      obtain ⟨haspec, haorder⟩ := hinorder a ha
      obtain ⟨hbspec, hborder⟩ := (builds_inOrder_iff h').mpr halong b hb
      have hinner : a.inner = b.inner := by rw [haspec, hbspec, hlast]
      exact ⟨hinner, by rw [haorder, hborder, hinner]⟩
  · intro hbetween wiring' labels' w' h' hbetween' a ha b hb hid
    obtain ⟨haorder, hareached⟩ := hok.builds a ha
    obtain ⟨hborder, hbreached⟩ := (exec_ok h').builds b hb
    have hid : K.snapshotId a.inner = K.snapshotId b.inner := hid
    have hlast := (snapshotId_eq_iff hleader hareached hbreached).mp hid
    have hinner := inner_eq_of_cuts (exec_cuts h hbetween) (exec_cuts h' hbetween') ha hb hlast
    rw [bytes_eq_iff hlisted haorder hborder]
    exact and_iff_right hinner

end

/-! ### The formatting of `serde_json` and openraft -/

/-- The text of a snapshot lists the routes in their order. -/
theorem snapshotJson_lists (order order' : List (String × ShardId)) (data : SnapshotData)
    (h : snapshotJson.toVec order data = snapshotJson.toVec order' data) : order = order' := by
  have hfields := congrArg JsonFormats.snapshotFields.fromSlice h
  simp only [snapshotJson, JsonFormats.snapshotFields.fromSlice_toVec, Option.some.injEq,
    Prod.mk.injEq, true_and, and_true] at hfields
  exact hfields

/-- Two builds that list their routes in different orders differ in their bytes. -/
theorem bytes_ne_of_order_ne {w : World} {a b : Build} (hok : w.Ok snapshotJson L)
    (hbuilds : w.builds = [a, b]) (horder : a.order ≠ b.order) :
    (a.snapshot snapshotJson).bytes ≠ (b.snapshot snapshotJson).bytes := by
  intro heq
  have ha := hok.builds a (by rw [hbuilds]; exact List.mem_cons_self)
  have hb := hok.builds b (by rw [hbuilds]; exact List.mem_cons_of_mem _ List.mem_cons_self)
  exact horder ((bytes_eq_iff (fun order order' data _ _ => snapshotJson_lists order order' data)
    ha.1 hb.1).mp heq).2

/-- A leader id is displayed with a leading `T`. -/
theorem showLeader_ne_zero (id : LeaderId) : snapshotJson.showLeader id ≠ "0" := by
  intro h
  have hhead := congrArg (fun s => s.toList.head?) h
  simp [snapshotJson, JsonFormats.showLeader] at hhead

/-- A way to list the routes of every table, and those of this list in its order. -/
noncomputable def listedAs (listed : List (String × ShardId)) : RouteMap → List (String × ShardId) :=
  Function.update (fun routes => (exists_enumerates routes).choose) (RouteMap.ofList listed) listed

theorem listedAs_enumerates {listed : List (String × ShardId)} (hnodup : (listed.map Prod.fst).Nodup)
    (routes : RouteMap) : Enumerates (listedAs listed routes) routes := by
  unfold listedAs
  by_cases h : routes = RouteMap.ofList listed
  · subst h
    rw [Function.update_self]
    exact ⟨hnodup, rfl⟩
  · rw [Function.update_of_ne h]
    exact (exists_enumerates routes).choose_spec

/-- Two routes are added. -/
def twoRoutes : Log :=
  Log.ofPayloads ⟨1, 1⟩
    [.normal ⟨encodeShardConfig commandJson (.addRoute "a" 1), 1⟩,
      .normal ⟨encodeShardConfig commandJson (.addRoute "b" 2), 1⟩]

/-- Two nodes apply both entries and build a snapshot each, with one iteration order. -/
def buildsInOneOrder : List Label :=
  [Move.call 2, .record, .command, .count, .record, .command, .count,
      .build [("b", 2), ("a", 1)]].map (Label.mk 1) ++
    [Move.call 2, .record, .command, .count, .record, .command, .count,
      .build [("b", 2), ("a", 1)]].map (Label.mk 2)

/-- The two builds have one id and the same bytes. -/
theorem same_view_same_bytes :
    ∃ w a b, Runs.exec (step commandJson snapshotJson twoRoutes) (World.start fun _ => ⟨true, true⟩)
        buildsInOneOrder = some w ∧
      w.builds = [a, b] ∧
      (a.snapshot snapshotJson).snapMeta.snapshotId = (b.snapshot snapshotJson).snapMeta.snapshotId ∧
      (a.snapshot snapshotJson).bytes = (b.snapshot snapshotJson).bytes := by
  obtain ⟨w, h, hbuilds⟩ : ∃ w,
      Runs.exec (step commandJson snapshotJson twoRoutes) (World.start fun _ => ⟨true, true⟩)
        buildsInOneOrder = some w ∧
      w.builds = [⟨spec commandJson twoRoutes.entries, [("b", 2), ("a", 1)]⟩,
        ⟨spec commandJson twoRoutes.entries, [("b", 2), ("a", 1)]⟩] :=
    Runs.exists_exec (by decide +kernel)
  have halong : Runs.Along (step commandJson snapshotJson twoRoutes)
      (BuildsInOrder (listedAs [("b", 2), ("a", 1)])) (World.start fun _ => ⟨true, true⟩)
      buildsInOneOrder := by decide +kernel
  generalize spec commandJson twoRoutes.entries = inner at hbuilds
  refine ⟨w, _, _, h, hbuilds, rfl, ?_⟩
  have hmem : (⟨inner, [("b", 2), ("a", 1)]⟩ : Build) ∈ w.builds := by
    rw [hbuilds]
    exact List.mem_cons_self
  exact (same_id_same_bytes_iff (fun order order' data _ _ => snapshotJson_lists order order' data)
    showLeader_ne_zero (listedAs_enumerates (by decide)) h).1.mpr halong _ _ w h halong _ hmem _ hmem rfl

/-- Two nodes apply both entries and build a snapshot each, with different iteration orders. -/
def buildsInTwoOrders : List Label :=
  [Move.call 2, .record, .command, .count, .record, .command, .count,
      .build [("a", 1), ("b", 2)]].map (Label.mk 1) ++
    [Move.call 2, .record, .command, .count, .record, .command, .count,
      .build [("b", 2), ("a", 1)]].map (Label.mk 2)

/-- One node builds in the middle of an entry and once more after it. -/
def buildsTwice : List Label :=
  [Move.call 1, .record, .build [], .cache, .command, .count, .build [("m", 1)]].map (Label.mk 1)

/-- **One id, two texts.**  Two nodes list the same routes in different orders, and one node builds
before and after the last section of an entry. -/
theorem one_id_two_texts :
    (∃ w a b, Runs.exec (step commandJson snapshotJson twoRoutes) (World.start fun _ => ⟨true, true⟩)
        buildsInTwoOrders = some w ∧
      w.builds = [a, b] ∧ (a.snapshot snapshotJson).snapMeta = (b.snapshot snapshotJson).snapMeta ∧
      (a.snapshot snapshotJson).bytes ≠ (b.snapshot snapshotJson).bytes) ∧
    (∃ w a b, Runs.exec (step commandJson snapshotJson routeAdded) (World.start fun _ => ⟨true, true⟩)
        buildsTwice = some w ∧
      w.builds = [a, b] ∧ (a.snapshot snapshotJson).snapMeta = (b.snapshot snapshotJson).snapMeta ∧
      (a.snapshot snapshotJson).bytes ≠ (b.snapshot snapshotJson).bytes) ∧
    ¬ ∀ (J : CommandJson) (L : Log) (wiring : NodeId → Wiring) (labels : List Label) (w : World),
      Runs.exec (step J snapshotJson L) (World.start wiring) labels = some w →
      ∀ a ∈ w.builds, ∀ b ∈ w.builds,
        (a.snapshot snapshotJson).snapMeta.snapshotId = (b.snapshot snapshotJson).snapMeta.snapshotId →
        (a.snapshot snapshotJson).bytes = (b.snapshot snapshotJson).bytes := by
  obtain ⟨w, h, hbuilds⟩ : ∃ w,
      Runs.exec (step commandJson snapshotJson twoRoutes) (World.start fun _ => ⟨true, true⟩)
        buildsInTwoOrders = some w ∧
      w.builds = [⟨spec commandJson twoRoutes.entries, [("a", 1), ("b", 2)]⟩,
        ⟨spec commandJson twoRoutes.entries, [("b", 2), ("a", 1)]⟩] :=
    Runs.exists_exec (by decide +kernel)
  obtain ⟨w', h', hbuilds'⟩ : ∃ w,
      Runs.exec (step commandJson snapshotJson routeAdded) (World.start fun _ => ⟨true, true⟩)
        buildsTwice = some w ∧
      w.builds =
        [⟨{ spec commandJson routeAdded.entries with appliedCount := 0, shardRoutes := ∅ }, []⟩,
          ⟨spec commandJson routeAdded.entries, [("m", 1)]⟩] :=
    Runs.exists_exec (by decide +kernel)
  generalize spec commandJson twoRoutes.entries = inner at hbuilds
  generalize spec commandJson routeAdded.entries = inner' at hbuilds'
  have horders : ([("a", 1), ("b", 2)] : List (String × ShardId)) ≠ [("b", 2), ("a", 1)] := by decide
  have hdiffer := bytes_ne_of_order_ne (exec_ok h) hbuilds horders
  refine ⟨⟨w, _, _, h, hbuilds, rfl, hdiffer⟩, ⟨w', _, _, h', hbuilds', rfl, ?_⟩, fun hclaim => ?_⟩
  · exact bytes_ne_of_order_ne (exec_ok h') hbuilds' (List.cons_ne_nil _ _).symm
  · have hequal := hclaim commandJson twoRoutes (fun _ => ⟨true, true⟩) buildsInTwoOrders w h
    rw [hbuilds] at hequal
    exact hdiffer (hequal _ List.mem_cons_self _ (List.mem_cons_of_mem _ List.mem_cons_self) rfl)

end SnapshotTasks

end RaftTimeDB
