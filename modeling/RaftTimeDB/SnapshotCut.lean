import RaftTimeDB.CatchUp

/-!
# Building a snapshot while entries are applied

openraft runs the snapshot builder in a task of its own, on the same locked state as `apply`.
`apply` takes the lock up to three times per entry (`recordEntry`, `updateConfig`, `countApplied`),
the builder once to read the state and once more, on another lock, to cache the snapshot.  Here each
of these locked sections is one move, and the two tasks interleave in any way.

The builder can therefore see an entry of which only `last_applied` has been recorded.
`consistent_cuts_iff` says exactly when that matters: all snapshots of a run are consistent cuts of
the log if and only if the builder never reads the state between the first and the last section of
a Normal entry.
-/

set_option autoImplicit false

namespace RaftTimeDB.SnapshotCut

open JsonFormats (commandJson snapshotJson)
open Replicas (StandsFor)

/-- The section of a Normal entry that `apply` enters next. -/
inductive Section where
  | command
  | count
  deriving DecidableEq, Repr

structure World where
  inner : StateMachineInner
  /-- entries of the running `apply` call that it has not begun -/
  todo : List Entry
  /-- the entry `apply` is in the middle of -/
  current : Option (Entry × Section)
  /-- a snapshot that is built and not yet cached -/
  holding : Option Snapshot
  cachedSnapshot : Option Snapshot
  /-- every snapshot built so far -/
  built : List Snapshot

def World.start : World := ⟨StateMachineInner.new, [], none, none, none, []⟩

inductive Label where
  | call (count : Nat)
  | record
  | command
  | count
  | build (order : List (String × ShardId))
  | cache
  deriving DecidableEq

/-- The section that follows `recordEntry`; an entry that is not Normal is done. -/
def afterRecord (J : CommandJson) (e : Entry) : Option (Entry × Section) :=
  if e.isNormal then
    match e.command? J with
    | some _ => some (e, .command)
    | none => some (e, .count)
  else none

variable (J : CommandJson) (K : SnapshotCodec) (L : Log)

/-- One locked section, or the start of an `apply` call with the next entries of the log. -/
def step (w : World) : Label → Option World
  | .call count =>
      if w.todo = [] ∧ w.current = none then
        some { w with todo := (L.entries.drop (nextIndex w.inner.lastApplied)).take count }
      else none
  | .record =>
      match w.current, w.todo with
      | none, e :: rest =>
          some { w with inner := recordEntry e w.inner, todo := rest, current := afterRecord J e }
      | _, _ => none
  | .command =>
      match w.current with
      | some (e, .command) =>
          match e.command? J with
          | some cmd => some { w with inner := updateConfig cmd w.inner, current := some (e, .count) }
          | none => none
      | _ => none
  | .count =>
      match w.current with
      | some (_, .count) => some { w with inner := countApplied w.inner, current := none }
      | _ => none
  | .build order =>
      if w.holding = none ∧ Enumerates order w.inner.shardRoutes then
        let snapshot := StateMachineStore.snapshotOf K order w.inner
        some { w with holding := some snapshot, built := w.built ++ [snapshot] }
      else none
  | .cache =>
      match w.holding with
      | some snapshot => some { w with holding := none, cachedSnapshot := some snapshot }
      | none => none

variable {J K L}

/-! ## Where apply stands -/

/-- The locked state in the middle of an entry that follows a log part with state `base`. -/
def midway (J : CommandJson) (base : StateMachineInner) (e : Entry) : Section → StateMachineInner
  | .command => recordEntry e base
  | .count =>
      ((e.command? J).map fun cmd => updateConfig cmd (recordEntry e base)).getD (recordEntry e base)

theorem countApplied_midway {base : StateMachineInner} {e : Entry} (h : e.isNormal = true) :
    countApplied (midway J base e .count) = applyInner J base e := by
  simp [midway, applyInner, h]

theorem updateConfig_fields (cmd : ShardConfigCommand) (inner : StateMachineInner) :
    (updateConfig cmd inner).lastApplied = inner.lastApplied ∧
      (updateConfig cmd inner).appliedCount = inner.appliedCount := by
  cases cmd with
  | createShard shardId =>
    simp only [updateConfig]
    split <;> exact ⟨rfl, rfl⟩
  | addRoute moduleName shardId => exact ⟨rfl, rfl⟩
  | removeRoute moduleName => exact ⟨rfl, rfl⟩

/-- In the middle of an entry the id is recorded and the count is not. -/
theorem midway_fields (base : StateMachineInner) (e : Entry) (sec : Section) :
    (midway J base e sec).lastApplied = some e.logId ∧
      (midway J base e sec).appliedCount = base.appliedCount := by
  cases sec with
  | command => exact ⟨rfl, rfl⟩
  | count =>
    cases hcmd : e.command? J with
    | none => simp [midway, hcmd, recordEntry]
    | some cmd =>
      simp only [midway, hcmd, Option.map_some, Option.getD_some]
      exact updateConfig_fields cmd (recordEntry e base)

/-- What `apply` has done and will do: `done` entries are fully applied, an entry in the middle is
the next one, and the rest of the call follows in the log. -/
structure Inv (J : CommandJson) (L : Log) (w : World) (done : Nat) : Prop where
  le : done ≤ L.entries.length
  idle : w.current = none → w.inner = spec J (L.entries.take done) ∧
    w.todo <+: L.entries.drop done
  middle : ∀ e sec, w.current = some (e, sec) → e.isNormal = true ∧ L.entries[done]? = some e ∧
    w.inner = midway J (spec J (L.entries.take done)) e sec ∧
    w.todo <+: L.entries.drop (done + 1)

theorem Inv.start : Inv J L World.start 0 :=
  ⟨Nat.zero_le _, fun _ => ⟨rfl, List.nil_prefix⟩, fun _ _ h => by cases h⟩

/-- `recordEntry` alone is the whole effect of an entry that is not Normal. -/
theorem applyInner_of_not_normal {inner : StateMachineInner} {e : Entry}
    (h : e.isNormal = false) : applyInner J inner e = recordEntry e inner := by
  obtain ⟨logId, payload⟩ := e
  cases payload with
  | blank => rfl
  | membership m => rfl
  | normal request => cases h

theorem inv_record {w : World} {done : Nat} {e : Entry} {rest : List Entry} (hinv : Inv J L w done)
    (hcurrent : w.current = none) (htodo : w.todo = e :: rest) :
    ∃ done', Inv J L
      { w with inner := recordEntry e w.inner, todo := rest, current := afterRecord J e }
      done' := by
  obtain ⟨hinner, hrest⟩ := hinv.idle hcurrent
  rw [htodo] at hrest
  obtain ⟨hget, hprefix⟩ := Lists.cons_initial_drop hrest
  have hlt : done < L.entries.length := (List.getElem?_eq_some_iff.mp hget).1
  by_cases hnormal : e.isNormal = true
  · -- a Normal entry is now in the middle
    refine ⟨done, hinv.le, ?_, ?_⟩
    · intro hnone
      simp only [afterRecord, hnormal, if_true] at hnone
      split at hnone <;> cases hnone
    · intro e' sec hsec
      cases hcmd : e.command? J with
      | none =>
        simp only [afterRecord, hnormal, if_true, hcmd, Option.some.injEq, Prod.mk.injEq] at hsec
        obtain ⟨rfl, rfl⟩ := hsec
        refine ⟨hnormal, hget, ?_, hprefix⟩
        simp [midway, hcmd, hinner]
      | some cmd =>
        simp only [afterRecord, hnormal, if_true, hcmd, Option.some.injEq, Prod.mk.injEq] at hsec
        obtain ⟨rfl, rfl⟩ := hsec
        refine ⟨hnormal, hget, ?_, hprefix⟩
        simp [midway, hinner]
  · -- any other entry is done
    have hfalse : e.isNormal = false := by simpa using hnormal
    refine ⟨done + 1, hlt, fun _ => ⟨?_, hprefix⟩, ?_⟩
    · rw [Lists.take_succ_of_getElem? hget, spec_snoc, applyInner_of_not_normal hfalse, ← hinner]
    · intro e' sec hsec
      simp [afterRecord, hfalse] at hsec

/-- **Every locked section keeps track of where `apply` stands.** -/
theorem step_inv {w w' : World} {l : Label} (hinv : ∃ done, Inv J L w done)
    (h : step J K L w l = some w') : ∃ done, Inv J L w' done := by
  obtain ⟨done, hinv⟩ := hinv
  cases l with
  | call count =>
    simp only [step] at h
    split at h
    · rename_i hidle
      cases h
      obtain ⟨hinner, _⟩ := hinv.idle hidle.2
      refine ⟨done, hinv.le, fun _ => ⟨hinner, ?_⟩, ?_⟩
      · rw [hinner, L.nextIndex_spec J hinv.le]
        exact List.take_prefix _ _
      · intro e sec hsec
        simp only [hidle.2] at hsec
        cases hsec
    · cases h
  | record =>
    simp only [step] at h
    split at h
    · rename_i e rest hcurrent htodo
      cases h
      exact inv_record hinv hcurrent htodo
    · cases h
  | command =>
    simp only [step] at h
    split at h
    · rename_i e hcurrent
      split at h
      · rename_i cmd hcmd
        cases h
        obtain ⟨hnormal, hget, hinner, htodo⟩ := hinv.middle e .command hcurrent
        refine ⟨done, hinv.le, fun hnone => (by cases hnone), fun e' sec hsec => ?_⟩
        cases hsec
        refine ⟨hnormal, hget, ?_, htodo⟩
        simp [midway, hcmd, hinner]
      · cases h
    · cases h
  | count =>
    simp only [step] at h
    split at h
    · rename_i e hcurrent
      cases h
      obtain ⟨hnormal, hget, hinner, htodo⟩ := hinv.middle e .count hcurrent
      have hlt : done < L.entries.length := (List.getElem?_eq_some_iff.mp hget).1
      refine ⟨done + 1, hlt, fun _ => ⟨?_, htodo⟩, fun e' sec hsec => (by cases hsec)⟩
      rw [Lists.take_succ_of_getElem? hget, spec_snoc, ← countApplied_midway hnormal, ← hinner]
    · cases h
  | build order =>
    simp only [step] at h
    split at h
    · cases h
      exact ⟨done, hinv.le, hinv.idle, hinv.middle⟩
    · cases h
  | cache =>
    simp only [step] at h
    split at h
    · cases h
      exact ⟨done, hinv.le, hinv.idle, hinv.middle⟩
    · cases h

/-! ## Consistent cuts -/

/-- Installing the snapshot on any node and applying the rest of the log gives the state of the
whole log. -/
def Resumes (J : CommandJson) (K : SnapshotCodec) (L : Log) (snap : Snapshot) : Prop :=
  ∀ (sm sm' : StateMachineStore) (replayOrder encodeOrder : List (String × ShardId)),
    sm.installSnapshot K replayOrder encodeOrder snap = .ok sm' →
      (sm'.apply J (L.entries.drop (nextIndex snap.snapMeta.lastLogId))).1.inner =
        (StateMachineStore.new.apply J L.entries).1.inner

/-- The snapshot has the effects of every entry up to its last applied one and of no later entry,
and a node can go on from it. -/
def ConsistentCut (J : CommandJson) (K : SnapshotCodec) (L : Log) (snap : Snapshot) : Prop :=
  StandsFor J K L snap ∧ Resumes J K L snap

theorem StandsFor.resumes {snap : Snapshot} (h : StandsFor J K L snap) : Resumes J K L snap := by
  obtain ⟨data, hdecode, hinner, _, _⟩ := h
  intro sm sm' replayOrder encodeOrder hinstall
  simp only [StateMachineStore.installSnapshot, hdecode, Except.ok.injEq] at hinstall
  subst hinstall
  rw [StateMachineStore.apply_spec, StateMachineStore.apply_spec]
  simp only [hinner, Log.upTo, ← spec_append, List.take_append_drop]
  exact (foldl_applyInner_new J L.entries).symm

/-- **The locked state stands for the log up to its last id exactly when no entry is in the middle.** -/
theorem Inv.eq_spec_iff {w : World} {done : Nat} (hinv : Inv J L w done) :
    w.inner = spec J (L.upTo w.inner.lastApplied) ↔ w.current = none := by
  constructor
  · intro hinner
    by_contra hcurrent
    obtain ⟨⟨e, sec⟩, hmid⟩ := Option.ne_none_iff_exists'.mp hcurrent
    obtain ⟨hnormal, hget, hw, _⟩ := hinv.middle e sec hmid
    obtain ⟨hlast, hcount⟩ := midway_fields (J := J) (spec J (L.entries.take done)) e sec
    rw [← hw] at hlast hcount
    -- the recorded id reaches one entry further than the count
    have hupTo : L.upTo w.inner.lastApplied = L.entries.take done ++ [e] := by
      rw [Log.upTo, hlast, nextIndex_some, L.index_eq done e hget, Lists.take_succ_of_getElem? hget]
    have heq : w.inner.appliedCount = (L.entries.take done).countP Entry.isNormal + 1 := by
      have := congrArg StateMachineInner.appliedCount hinner
      simp only [hupTo, spec] at this
      simpa [List.countP_append, hnormal] using this
    rw [hcount] at heq
    simp only [spec] at heq
    omega
  · intro hcurrent
    obtain ⟨hw, _⟩ := hinv.idle hcurrent
    have hcut : L.IsCut J w.inner := ⟨done, hinv.le, hw⟩
    exact hcut.eq_spec

/-- **A snapshot of the locked state is a consistent cut exactly when no entry is in the middle.** -/
theorem consistentCut_iff {w : World} {done : Nat} (hinv : Inv J L w done)
    {order : List (String × ShardId)} (horder : Enumerates order w.inner.shardRoutes) :
    ConsistentCut J K L (StateMachineStore.snapshotOf K order w.inner) ↔ w.current = none := by
  have hdecode := StateMachineStore.fromSlice_snapshotOf K horder
  constructor
  · rintro ⟨⟨data, hdata, hinner, _, _⟩, _⟩
    rw [hdecode, Option.some.injEq] at hdata
    subst hdata
    exact hinv.eq_spec_iff.mp hinner
  · intro hcurrent
    have hstands : StandsFor J K L (StateMachineStore.snapshotOf K order w.inner) :=
      ⟨w.inner.toData, hdecode, hinv.eq_spec_iff.mpr hcurrent, rfl, rfl⟩
    exact ⟨hstands, StandsFor.resumes hstands⟩

/-- The builder does not read the state in the middle of an entry. -/
def BuildsBetweenEntries (w : World) : Label → Prop
  | .build _ => w.current = none
  | _ => True

theorem built_of_step {w w' : World} {l : Label} (h : step J K L w l = some w')
    (hl : ∀ order, l ≠ .build order) : w'.built = w.built := by
  cases l with
  | build order => exact absurd rfl (hl order)
  | call count => simp only [step] at h; split at h <;> cases h; rfl
  | record => simp only [step] at h; split at h <;> cases h; rfl
  | command =>
    simp only [step] at h
    split at h
    · split at h <;> cases h
      rfl
    · cases h
  | count => simp only [step] at h; split at h <;> cases h; rfl
  | cache => simp only [step] at h; split at h <;> cases h; rfl

/-- **Snapshots are consistent cuts, exactly.**  In every state of a run all snapshots built so far
are consistent cuts of the log if and only if the builder never reads the state in the middle of a
Normal entry. -/
theorem consistent_cuts_iff {labels : List Label} {w : World}
    (h : Runs.exec (step J K L) World.start labels = some w) :
    Runs.Throughout (step J K L) (fun w => ∀ snap ∈ w.built, ConsistentCut J K L snap)
        World.start labels ↔
      Runs.Along (step J K L) BuildsBetweenEntries World.start labels := by
  refine Runs.throughout_iff_along (I := fun w => ∃ done, Inv J L w done)
    (fun _ _ _ hI hs => step_inv hI hs) ?_ ⟨0, Inv.start⟩ (fun snap hs => by cases hs) h
  rintro s l s' ⟨done, hI⟩ hP hs
  cases l with
  | build order =>
    simp only [step] at hs
    split at hs
    · rename_i hguard
      cases hs
      simp only [List.forall_mem_append, List.forall_mem_singleton, BuildsBetweenEntries]
      rw [consistentCut_iff hI hguard.2]
      exact and_iff_right hP
    · cases hs
  | call _ | record | command | count | cache =>
    refine iff_of_true ?_ trivial
    rw [built_of_step hs (by simp)]
    exact hP

/-- A route for module `m` is added. -/
def routeAdded : Log :=
  Log.ofPayloads ⟨1, 1⟩ [.normal ⟨encodeShardConfig commandJson (.addRoute "m" 1), 1⟩]

/-- A snapshot built once the entry is done is a consistent cut. -/
theorem consistent_after_entry :
    ∃ w, Runs.exec (step commandJson snapshotJson routeAdded) World.start
        [.call 1, .record, .command, .count, .build [("m", 1)]] = some w ∧
      Runs.Throughout (step commandJson snapshotJson routeAdded)
        (fun w => ∀ snap ∈ w.built, ConsistentCut commandJson snapshotJson routeAdded snap)
        World.start [.call 1, .record, .command, .count, .build [("m", 1)]] := by
  obtain ⟨w, h, _⟩ : ∃ w, Runs.exec (step commandJson snapshotJson routeAdded) World.start
      [.call 1, .record, .command, .count, .build [("m", 1)]] = some w ∧ w.current = none :=
    Runs.exists_exec (by decide +kernel)
  refine ⟨w, h, (consistent_cuts_iff h).mpr ?_⟩
  show Runs.Along _ _ _ ([Label.call 1, .record, .command, .count] ++ [.build [("m", 1)]])
  refine Runs.Along.append (Runs.along_of_forall (by simp [BuildsBetweenEntries])) fun t ht =>
    ⟨?_, fun _ _ => trivial⟩
  exact Runs.exec_check (P := fun w => w.current = none) ht (by decide +kernel)

/-- **A torn snapshot.**  The builder runs after the first section of the entry: its snapshot says
that the entry is applied and has no route. -/
theorem torn_snapshot :
    ∃ w, Runs.exec (step commandJson snapshotJson routeAdded) World.start
        [.call 1, .record, .build []] = some w ∧
      ∃ snap ∈ w.built, ¬ ConsistentCut commandJson snapshotJson routeAdded snap ∧
        ∃ data, snapshotJson.fromSlice snap.bytes = some data ∧
          nextIndex data.lastApplied = 1 ∧ data.shardRoutes = ∅ := by
  obtain ⟨w, h, hidle, hmiddle, hnext, hroutes⟩ : ∃ w,
      Runs.exec (step commandJson snapshotJson routeAdded) World.start [.call 1, .record] = some w ∧
      w.holding = none ∧ w.current ≠ none ∧ nextIndex w.inner.lastApplied = 1 ∧
      w.inner.shardRoutes = ∅ := Runs.exists_exec (by decide +kernel)
  obtain ⟨done, hinv⟩ := Runs.exec_inv (I := fun w => ∃ done, Inv commandJson routeAdded w done)
    (fun _ _ _ hI hs => step_inv hI hs) ⟨0, Inv.start⟩ h
  have horder : Enumerates [] w.inner.shardRoutes := ⟨List.nodup_nil, hroutes.symm⟩
  have hbuild : Runs.exec (step commandJson snapshotJson routeAdded) World.start
      [.call 1, .record, .build []] = some
        { w with
          holding := some (StateMachineStore.snapshotOf snapshotJson [] w.inner)
          built := w.built ++ [StateMachineStore.snapshotOf snapshotJson [] w.inner] } := by
    show Runs.exec _ _ ([Label.call 1, .record] ++ [.build []]) = _
    rw [Runs.exec_append, h, Option.bind_some, Runs.exec, step, if_pos ⟨hidle, horder⟩]
    rfl
  refine ⟨_, hbuild, _, List.mem_append_right _ (List.mem_singleton_self _), ?_, _,
    StateMachineStore.fromSlice_snapshotOf snapshotJson horder, hnext, hroutes⟩
  intro hcut
  exact hmiddle ((consistentCut_iff hinv horder).mp hcut)

end RaftTimeDB.SnapshotCut
