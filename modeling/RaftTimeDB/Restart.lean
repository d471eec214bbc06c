import RaftTimeDB.Forwarder
import RaftTimeDB.JsonFormats
import RaftTimeDB.Lib.Runs
import RaftTimeDB.LogSpec
import RaftTimeDB.LogStore

/-!
# Restarts of a node

One node's share of one shard: the persistent log store, the state machine, the forwarder task, and
what that task has sent to the local SpacetimeDB over the whole run.  A restart keeps the redb tables
and what SpacetimeDB has received; the state machine, its cached snapshot and the forwarder start
afresh.  openraft is the environment:

* it appends and truncates behind `last_applied` and `last_purged`, and purges forward, up to the last
  snapshot built or installed in this lifetime;
* it applies the entries it reads from the store from the later of `last_applied` and `last_purged` on,
  once they are committed, that is, equal to the entries of the committed log `L`;
* it installs snapshots of initial parts of `L` that are not behind `last_applied`.

Principal result: `restart_recovers_iff` — replaying what the store still holds gives back routes,
shards and membership exactly when the entries that decide them are still stored.
-/

set_option autoImplicit false

namespace RaftTimeDB.Restart

open JsonFormats (commandJson snapshotJson logJson)

structure World where
  store : PersistentLogStore
  sm : StateMachineStore
  task : Forwarder
  sent : List ForwarderMsg

def World.start : World :=
  ⟨PersistentLogStore.new, StateMachineStore.new, Forwarder.spawn, []⟩

/-- The process is started again. -/
def World.restarted (w : World) : World :=
  { w with sm := StateMachineStore.new, task := Forwarder.spawn }

/-- Number of log entries behind `last_applied`. -/
def World.applied (w : World) : Nat := nextIndex w.sm.inner.lastApplied

/-- Number of log entries behind `last_purged`. -/
def World.purged (D : LogJson) (w : World) : Nat :=
  match w.store.lastPurged D with
  | .ok id => nextIndex id
  | .error _ => 0

/-- Where openraft goes on applying. -/
def World.resume (D : LogJson) (w : World) : Nat := max w.applied (w.purged D)

/-- Messages on the forwarder channel. -/
def World.queue (w : World) : List ForwarderMsg := w.sm.forwarder.getD []

inductive Label where
  | append (entries : List Entry)
  | truncate (logId : LogId)
  | purge (logId : LogId)
  | apply (count : Nat)
  | build (order : List (String × ShardId))
  | install (upTo : Nat) (builtOrder replayOrder encodeOrder : List (String × ShardId))
  /-- `set_forwarder` and `spawn_forwarder`, after the Raft group has been started -/
  | attach
  /-- `send_db_path` -/
  | broadcast (path : String)
  | forward (event : ForwarderEvent)
  | restart
  deriving DecidableEq

variable (nodeId : NodeId) (J : CommandJson) (K : SnapshotCodec) (D : LogJson) (L : Log)

def step (w : World) : Label → Option World
  | .append entries =>
      if ∀ e ∈ entries, w.resume D ≤ e.logId.index then
        some { w with store := w.store.append D entries }
      else none
  | .truncate logId =>
      if w.resume D ≤ logId.index then some { w with store := w.store.truncate logId } else none
  | .purge logId =>
      match w.sm.getCurrentSnapshot with
      | some snap =>
          if logId.index < nextIndex snap.snapMeta.lastLogId ∧ w.purged D ≤ logId.index + 1 then
            some { w with store := w.store.purge D logId }
          else none
      | none => none
  | .apply count =>
      let range k := decide (w.resume D ≤ k ∧ k < w.resume D + count)
      match w.store.tryGetLogEntries D range with
      | .ok entries =>
          if entries = (L.entries.drop (w.resume D)).take count then
            some { w with sm := (w.sm.apply J entries).1 }
          else none
      | .error _ => none
  | .build order =>
      if Enumerates order w.sm.inner.shardRoutes then
        some { w with sm := (w.sm.buildSnapshot K order).1 }
      else none
  | .install upTo builtOrder replayOrder encodeOrder =>
      let inner := spec J (L.entries.take upTo)
      if w.applied ≤ upTo ∧ upTo ≤ L.entries.length ∧ Enumerates builtOrder inner.shardRoutes ∧
          Enumerates replayOrder inner.shardRoutes ∧ Enumerates encodeOrder inner.shardRoutes then
        match w.sm.installSnapshot K replayOrder encodeOrder
            (StateMachineStore.snapshotOf K builtOrder inner) with
        | .ok sm => some { w with sm := sm }
        | .error _ => none
      else none
  | .attach =>
      match w.sm.forwarder with
      | none => some { w with sm := w.sm.setForwarder, task := Forwarder.spawn }
      | some _ => none
  | .broadcast path => some { w with task := w.task.broadcast path }
  | .forward event =>
      match w.sm.forwarder with
      | some queue =>
          match w.task.step nodeId queue event with
          | some r =>
              some { w with
                sm := { w.sm with forwarder := some r.queue }
                task := r.task
                sent := w.sent ++ (r.sent.map Prod.snd).toList }
          | none => none
      | none => none
  | .restart => some w.restarted

variable {nodeId J K D L}

/-! ## What each move does -/

theorem purge_cases {w w' : World} {logId : LogId}
    (h : step nodeId J K D L w (.purge logId) = some w') :
    ∃ snap, w.sm.cachedSnapshot = some snap ∧
      logId.index < nextIndex snap.snapMeta.lastLogId ∧ w.purged D ≤ logId.index + 1 ∧
      w' = { w with store := w.store.purge D logId } := by
  simp only [step] at h
  split at h
  · rename_i snap hsnap
    split at h
    · rename_i hguard
      cases h
      exact ⟨snap, hsnap, hguard.1, hguard.2, rfl⟩
    · cases h
  · cases h

theorem apply_cases {w w' : World} {count : Nat}
    (h : step nodeId J K D L w (.apply count) = some w') :
    w' = { w with sm := (w.sm.apply J ((L.entries.drop (w.resume D)).take count)).1 } := by
  simp only [step] at h
  split at h
  · split at h
    · rename_i heq
      cases h
      rw [heq]
    · cases h
  · cases h

/-- An installed snapshot decodes, so the install succeeds. -/
theorem install_cases {w w' : World} {upTo : Nat}
    {builtOrder replayOrder encodeOrder : List (String × ShardId)}
    (h : step nodeId J K D L w (.install upTo builtOrder replayOrder encodeOrder) = some w') :
    w.applied ≤ upTo ∧ upTo ≤ L.entries.length ∧
      ∃ tx bytes, w' = { w with sm :=
        { inner := spec J (L.entries.take upTo)
          forwarder := w.sm.forwarder
          shardConfigTx := tx
          cachedSnapshot := some
            ⟨(StateMachineStore.snapshotOf K builtOrder (spec J (L.entries.take upTo))).snapMeta,
              bytes⟩ } } := by
  simp only [step] at h
  split at h
  · rename_i hguard
    obtain ⟨happlied, hlen, hbuilt, _, _⟩ := hguard
    have hdecode := K.roundtrip builtOrder (spec J (L.entries.take upTo)).toData hbuilt
    simp only [StateMachineStore.installSnapshot, StateMachineStore.snapshotOf, hdecode,
      StateMachineInner.toInner_toData] at h
    cases h
    exact ⟨happlied, hlen, _, _, rfl⟩
  · cases h

theorem forward_cases {w w' : World} {event : ForwarderEvent}
    (h : step nodeId J K D L w (.forward event) = some w') :
    ∃ queue r, w.sm.forwarder = some queue ∧ w.task.step nodeId queue event = some r ∧
      w' = { w with
        sm := { w.sm with forwarder := some r.queue }
        task := r.task
        sent := w.sent ++ (r.sent.map Prod.snd).toList } := by
  simp only [step] at h
  split at h
  · rename_i queue hqueue
    split at h
    · rename_i r hr
      cases h
      exact ⟨queue, r, hqueue, hr, rfl⟩
    · cases h
  · cases h

/-! ## One lifetime -/

/-- Before the first restart the state machine is a cut of the log, the store is well formed, and
nothing is purged beyond the last snapshot. -/
structure Inv (J : CommandJson) (D : LogJson) (L : Log) (w : World) : Prop where
  cut : L.IsCut J w.sm.inner
  wellFormed : w.store.WellFormed D
  cached : ∀ snap, w.sm.cachedSnapshot = some snap → nextIndex snap.snapMeta.lastLogId ≤ w.applied
  purged : w.purged D ≤ w.applied

theorem Inv.start : Inv J D L World.start :=
  ⟨Log.IsCut.new L J, PersistentLogStore.WellFormed.new, fun snap h => (by cases h), Nat.le_refl _⟩

theorem Inv.resume_eq {w : World} (h : Inv J D L w) : w.resume D = w.applied :=
  Nat.max_eq_left h.purged

/-- **Every move but a restart keeps the invariant.** -/
theorem step_inv {w w' : World} {l : Label} (hinv : Inv J D L w) (hl : l ≠ .restart)
    (h : step nodeId J K D L w l = some w') : Inv J D L w' := by
  cases l with
  | append entries =>
    simp only [step] at h
    split at h
    · cases h
      exact ⟨hinv.cut, hinv.wellFormed.append entries, hinv.cached, hinv.purged⟩
    · cases h
  | truncate logId =>
    simp only [step] at h
    split at h
    · cases h
      exact ⟨hinv.cut, hinv.wellFormed.truncate logId, hinv.cached, hinv.purged⟩
    · cases h
  | purge logId =>
    obtain ⟨snap, hsnap, hlt, _, rfl⟩ := purge_cases h
    refine ⟨hinv.cut, hinv.wellFormed.purge logId, hinv.cached, ?_⟩
    have hcached := hinv.cached snap hsnap
    have hpurged : World.purged D { w with store := w.store.purge D logId } = logId.index + 1 := by
      simp [World.purged]
    rw [hpurged]
    exact Nat.le_trans hlt hcached
  | apply count =>
    have hw' := apply_cases h
    rw [hinv.resume_eq] at hw'
    subst hw'
    rw [StateMachineStore.apply_spec]
    obtain ⟨k, hk, hinner⟩ := hinv.cut
    have happlied : w.applied = k := by
      rw [World.applied, hinner, L.nextIndex_spec J hk]
    have hgrow : w.applied ≤
        nextIndex (((L.entries.drop w.applied).take count).foldl (applyInner J)
          w.sm.inner).lastApplied := by
      rw [happlied, hinner, ← spec_append, ← List.take_add, List.take_eq_take_min,
        L.nextIndex_spec J (Nat.min_le_right _ _)]
      omega
    refine ⟨Log.IsCut.foldl ⟨k, hk, hinner⟩ count, hinv.wellFormed, ?_, ?_⟩
    · intro snap hsnap
      exact Nat.le_trans (hinv.cached snap hsnap) hgrow
    · exact Nat.le_trans hinv.purged hgrow
  | build order =>
    simp only [step] at h
    split at h
    · cases h
      refine ⟨hinv.cut, hinv.wellFormed, ?_, hinv.purged⟩
      intro snap hsnap
      cases hsnap
      exact Nat.le_refl _
    · cases h
  | install upTo builtOrder replayOrder encodeOrder =>
    obtain ⟨hle, hlen, tx, bytes, rfl⟩ := install_cases h
    have happlied : nextIndex (spec J (L.entries.take upTo)).lastApplied = upTo :=
      L.nextIndex_spec J hlen
    refine ⟨⟨upTo, hlen, rfl⟩, hinv.wellFormed, ?_, ?_⟩
    · intro snap hsnap
      cases hsnap
      exact Nat.le_refl _
    · exact Nat.le_trans (Nat.le_trans hinv.purged hle) (Nat.le_of_eq happlied.symm)
  | attach =>
    simp only [step] at h
    split at h
    · cases h
      exact ⟨hinv.cut, hinv.wellFormed, hinv.cached, hinv.purged⟩
    · cases h
  | broadcast path =>
    simp only [step, Option.some.injEq] at h
    subst h
    exact ⟨hinv.cut, hinv.wellFormed, hinv.cached, hinv.purged⟩
  | forward event =>
    obtain ⟨queue, r, _, _, rfl⟩ := forward_cases h
    exact ⟨hinv.cut, hinv.wellFormed, hinv.cached, hinv.purged⟩
  | restart => exact absurd rfl hl

theorem exec_inv {labels : List Label} {w : World} (hno : ∀ l ∈ labels, l ≠ .restart)
    (h : Runs.exec (step nodeId J K D L) World.start labels = some w) : Inv J D L w := by
  refine Runs.exec_inv_along (C := fun _ l => l ≠ .restart) ?_ Inv.start
    (Runs.along_of_forall fun l hl _ => hno l hl) h
  intro s l s' hI hl hs
  exact step_inv hI hl hs

/-! ## Recovery -/

/-- What openraft starts from: the current snapshot, if the store has one. -/
def bootStore (K : SnapshotCodec) (order : List (String × ShardId)) (sm : StateMachineStore) :
    Except StorageError StateMachineStore :=
  match sm.getCurrentSnapshot with
  | some snap => sm.installSnapshot K order order snap
  | none => .ok sm

/-- The stored committed entries with an index in the given range. -/
def World.storedCommitted (D : LogJson) (L : Log) (w : World) (first upTo : Nat) :
    Except StorageError (List Entry) :=
  match w.store.tryGetLogEntries D fun k => decide (first ≤ k ∧ k < upTo) with
  | .ok entries => .ok (entries.filter fun e => decide (L.entries[e.logId.index]? = some e))
  | .error err => .error err

/-- `apply`, batch after batch. -/
def replay (J : CommandJson) (sm : StateMachineStore) (batches : List (List Entry)) :
    StateMachineStore :=
  batches.foldl (fun sm entries => (sm.apply J entries).1) sm

/-- Two states agree on routes, shards and membership. -/
structure SameConfig (a b : StateMachineInner) : Prop where
  shardRoutes : a.shardRoutes = b.shardRoutes
  activeShards : a.activeShards = b.activeShards
  lastMembership : a.lastMembership = b.lastMembership

/-- After a restart in `w`, re-applying the stored entries up to the `last_applied` of `w`, in
whatever batches, gives back the configuration of `w`. -/
def Recovers (J : CommandJson) (K : SnapshotCodec) (D : LogJson) (L : Log) (w : World) : Prop :=
  ∀ order, ∃ sm stored, bootStore K order w.restarted.sm = .ok sm ∧
    w.restarted.storedCommitted D L (nextIndex sm.appliedState.1) w.applied = .ok stored ∧
    ∀ batches, batches.flatten = stored → SameConfig (replay J sm batches).inner w.sm.inner

theorem replay_inner (J : CommandJson) (sm : StateMachineStore) (batches : List (List Entry)) :
    (replay J sm batches).inner = batches.flatten.foldl (applyInner J) sm.inner := by
  unfold replay
  induction batches generalizing sm with
  | nil => rfl
  | cons entries batches ih =>
    rw [List.foldl_cons, ih, StateMachineStore.apply_spec, List.flatten_cons, List.foldl_append]

instance (D : LogJson) (store : PersistentLogStore) (e : Entry) : Decidable (store.Holds D e) :=
  inferInstanceAs (Decidable ((e.logId.index, D.entryToVec e) ∈ store.logTable.rows))

/-- The applied entries that the store still holds. -/
def World.retained (D : LogJson) (L : Log) (w : World) : List Entry :=
  (L.entries.take w.applied).filter fun e => decide (w.store.Holds D e)

/-- Reading the store gives the applied entries that are still held, in log order. -/
theorem storedCommitted_eq {w : World} (hwf : w.store.WellFormed D) :
    w.storedCommitted D L 0 w.applied = .ok (w.retained D L) := by
  obtain ⟨entries, hread, hpair, hmem⟩ := PersistentLogStore.tryGetLogEntries_spec hwf
    fun k => decide (0 ≤ k ∧ k < w.applied)
  simp only [World.storedCommitted, hread, Except.ok.injEq]
  refine Lists.eq_of_increasing (fun e => e.logId.index) (hpair.filter _)
    ((L.increasing.sublist (List.take_sublist _ _)).filter _) ?_
  intro e
  rw [World.retained, List.mem_filter, List.mem_filter, hmem, L.mem_take_iff]
  simp only [decide_eq_true_eq]
  constructor
  · rintro ⟨⟨hholds, _, hlt⟩, hget⟩
    exact ⟨⟨hlt, hget⟩, hholds⟩
  · rintro ⟨⟨hlt, hget⟩, hholds⟩
    exact ⟨⟨hholds, Nat.zero_le _, hlt⟩, hget⟩

/-! ### Membership -/

/-- The last Membership entry of a list. -/
def lastMembershipEntry (es : List Entry) : Option Entry :=
  (es.filter fun e => e.membership?.isSome).getLast?

theorem membership?_logId {e : Entry} {m : StoredMembership} (h : e.membership? = some m) :
    m.logId = some e.logId := by
  unfold Entry.membership? at h
  split at h
  · cases h
    rfl
  · cases h

/-- A membership that is not the default one comes from an entry with its log id. -/
theorem membershipOf_logId {es : List Entry} {id : LogId} (h : (membershipOf es).logId = some id) :
    ∃ e ∈ es, e.logId = id := by
  induction es using List.reverseRecOn with
  | nil => cases h
  | append_singleton es e ih =>
    rw [membershipOf_snoc] at h
    cases hmem : e.membership? with
    | none =>
      rw [hmem] at h
      obtain ⟨e', he', hid⟩ := ih h
      exact ⟨e', List.mem_append_left _ he', hid⟩
    | some m =>
      rw [hmem] at h
      refine ⟨e, List.mem_append_right _ (List.mem_singleton_self e), ?_⟩
      simpa [membership?_logId hmem] using h

/-- Dropping entries from a log keeps its membership exactly when the last Membership entry is
kept. -/
theorem membershipOf_filter_iff {es : List Entry}
    (hinc : es.Pairwise fun a b => a.logId.index < b.logId.index) (keep : Entry → Bool) :
    membershipOf (es.filter keep) = membershipOf es ↔
      ∀ e, lastMembershipEntry es = some e → keep e = true := by
  induction es using List.reverseRecOn with
  | nil => simp [lastMembershipEntry]
  | append_singleton es e ih =>
    obtain ⟨hes, _, hlast⟩ := List.pairwise_append.mp hinc
    rw [List.filter_append, membershipOf_snoc]
    cases hmem : e.membership? with
    | none =>
      -- an entry without a membership changes neither side
      have hfilter : membershipOf (es.filter keep ++ [e].filter keep) =
          membershipOf (es.filter keep) := by
        by_cases hkeep : keep e = true
        · simp [hkeep, membershipOf_snoc, hmem]
        · simp [hkeep]
      have hentry : lastMembershipEntry (es ++ [e]) = lastMembershipEntry es := by
        simp [lastMembershipEntry, List.filter_append, hmem]
      rw [hfilter, hentry, Option.getD_none]
      exact ih hes
    | some m =>
      have hentry : lastMembershipEntry (es ++ [e]) = some e := by
        simp [lastMembershipEntry, List.filter_append, hmem]
      simp only [hentry, Option.some.injEq, forall_eq', Option.getD_some]
      by_cases hkeep : keep e = true
      · simp [hkeep, membershipOf_snoc, hmem]
      · -- the kept entries end before `e`, so their membership has another log id
        refine iff_of_false ?_ hkeep
        intro heq
        have hid : (membershipOf (es.filter keep)).logId = some e.logId := by
          rw [← membership?_logId hmem, ← heq]
          simp [hkeep]
        obtain ⟨e', he', hlogId⟩ := membershipOf_logId hid
        have hlt := hlast e' (List.mem_filter.mp he').1 e (List.mem_singleton_self e)
        rw [hlogId] at hlt
        exact Nat.lt_irrefl _ hlt

/-! ### The exact condition -/

/-- The entries that decide routes, shards and membership are still stored: the last Membership
entry; for each module a stored last command with the same target as the last command in the log;
for each created shard a CreateShard command, in the same order of first creation. -/
structure Retained (J : CommandJson) (D : LogJson) (L : Log) (w : World) : Prop where
  membership : ∀ e, lastMembershipEntry (L.entries.take w.applied) = some e → w.store.Holds D e
  routes : ∀ name, lastTarget (commandsOf J (w.retained D L)) name =
    lastTarget (commandsOf J (L.entries.take w.applied)) name
  shards : ∀ id ∈ createdOf (commandsOf J (L.entries.take w.applied)),
    id ∈ createdOf (commandsOf J (w.retained D L))
  order : ∀ a ∈ createdOf (commandsOf J (L.entries.take w.applied)),
    ∀ b ∈ createdOf (commandsOf J (L.entries.take w.applied)),
      (createdOf (commandsOf J (L.entries.take w.applied))).idxOf a <
          (createdOf (commandsOf J (L.entries.take w.applied))).idxOf b →
        (createdOf (commandsOf J (w.retained D L))).idxOf a <
          (createdOf (commandsOf J (w.retained D L))).idxOf b

theorem retained_created_subset (w : World) {id : ShardId}
    (h : id ∈ createdOf (commandsOf J (w.retained D L))) :
    id ∈ createdOf (commandsOf J (L.entries.take w.applied)) := by
  have hsub : (w.retained D L).Sublist (L.entries.take w.applied) := List.filter_sublist
  exact ((hsub.filterMap _).filterMap _).mem h

theorem sameConfig_retained_iff (w : World) :
    SameConfig (spec J (w.retained D L)) (spec J (L.entries.take w.applied)) ↔
      Retained J D L w := by
  have hinc : (L.entries.take w.applied).Pairwise fun a b => a.logId.index < b.logId.index :=
    L.increasing.sublist (List.take_sublist _ _)
  have hmembership := membershipOf_filter_iff hinc fun e => decide (w.store.Holds D e)
  have hshards : shardsOf (commandsOf J (L.entries.take w.applied)) =
      shardsOf (commandsOf J (w.retained D L)) ↔ _ := Lists.eraseDups_eq_iff
  simp only [decide_eq_true_eq] at hmembership
  constructor
  · rintro ⟨hroutes, hactive, hmem⟩
    obtain ⟨hsame, horder⟩ := hshards.mp hactive.symm
    refine ⟨hmembership.mp hmem, ?_, fun id hid => (hsame id).mp hid, horder⟩
    intro name
    rw [← routesOf_lookup, ← routesOf_lookup]
    exact congrArg (fun m : RouteMap => m.lookup name) hroutes
  · intro h
    refine ⟨Finmap.ext_lookup ?_, Eq.symm (hshards.mpr ⟨?_, h.order⟩), hmembership.mpr h.membership⟩
    · intro name
      show (routesOf _).lookup name = (routesOf _).lookup name
      rw [routesOf_lookup, routesOf_lookup]
      exact h.routes name
    · intro id
      exact ⟨h.shards id, retained_created_subset w⟩

/-- A node that has purged nothing it applied retains everything. -/
theorem Retained.of_holds {w : World} (h : ∀ e ∈ L.entries.take w.applied, w.store.Holds D e) :
    Retained J D L w := by
  have hretained : w.retained D L = L.entries.take w.applied :=
    List.filter_eq_self.mpr fun e he => decide_eq_true (h e he)
  refine (sameConfig_retained_iff w).mp ?_
  rw [hretained]
  exact ⟨rfl, rfl, rfl⟩

/-- **Restart recovery, exactly.**  After every run of one lifetime, a restart followed by
re-applying the stored entries gives back routes, shards and membership if and only if the entries
that decide them are still stored. -/
theorem restart_recovers_iff {labels : List Label} {w : World}
    (hno : ∀ l ∈ labels, l ≠ .restart)
    (h : Runs.exec (step nodeId J K D L) World.start labels = some w) :
    Recovers J K D L w ↔ Retained J D L w := by
  have hinv := exec_inv hno h
  have hread : w.restarted.storedCommitted D L 0 w.applied = .ok (w.retained D L) :=
    storedCommitted_eq hinv.wellFormed
  have hinner : w.sm.inner = spec J (L.entries.take w.applied) := hinv.cut.eq_spec
  have hreplay : ∀ batches : List (List Entry), batches.flatten = w.retained D L →
      (replay J w.restarted.sm batches).inner = spec J (w.retained D L) := by
    intro batches hbatches
    rw [replay_inner, hbatches]
    exact foldl_applyInner_new J _
  rw [← sameConfig_retained_iff, ← hinner]
  constructor
  · intro hrec
    obtain ⟨sm, stored, hboot, hstored, hall⟩ := hrec []
    cases hboot
    obtain rfl : w.retained D L = stored := Except.ok.inj (hread.symm.trans hstored)
    have hsame := hall [w.retained D L] (by simp)
    rwa [hreplay _ (by simp)] at hsame
  · intro hsame order
    refine ⟨w.restarted.sm, w.retained D L, rfl, hread, ?_⟩
    intro batches hbatches
    rw [hreplay batches hbatches]
    exact hsame

/-! ### A log that is stored, applied, part of a snapshot, and purged -/

theorem apply_enabled {w : World} (hwf : w.store.WellFormed D)
    (hholds : ∀ e, w.store.Holds D e ↔ e ∈ L.entries) (count : Nat) :
    step nodeId J K D L w (.apply count) = some
      { w with sm := (w.sm.apply J ((L.entries.drop (w.resume D)).take count)).1 } := by
  obtain ⟨entries, hread, hpair, hmem⟩ := PersistentLogStore.tryGetLogEntries_spec hwf
    fun k => decide (w.resume D ≤ k ∧ k < w.resume D + count)
  have hentries : entries = (L.entries.drop (w.resume D)).take count := by
    refine Lists.eq_of_increasing (fun e => e.logId.index) hpair
      (L.increasing.sublist ((List.take_sublist _ _).trans (List.drop_sublist _ _))) ?_
    intro e
    rw [hmem, hholds, L.mem_segment_iff, L.mem_iff_getElem?]
    simp only [decide_eq_true_eq]
    exact and_comm
  simp only [step, hread]
  rw [if_pos hentries, hentries]

theorem append_enabled :
    step nodeId J K D L World.start (.append L.entries) =
      some { World.start with store := PersistentLogStore.new.append D L.entries } := by
  simp [step, World.resume, World.applied, World.purged, World.start, StateMachineStore.new,
    StateMachineInner.new]

/-- A node that has stored and applied the whole log. -/
def World.upToDate (J : CommandJson) (D : LogJson) (L : Log) : World :=
  { World.start with
    store := PersistentLogStore.new.append D L.entries
    sm := (StateMachineStore.new.apply J L.entries).1 }

theorem exec_upToDate :
    Runs.exec (step nodeId J K D L) World.start
      [.append L.entries, .apply L.entries.length] = some (World.upToDate J D L) := by
  let stored : World := { World.start with store := PersistentLogStore.new.append D L.entries }
  have happend : step nodeId J K D L World.start (.append L.entries) = some stored :=
    append_enabled
  have happly : step nodeId J K D L stored (.apply L.entries.length) = _ :=
    apply_enabled (PersistentLogStore.WellFormed.new.append L.entries)
      (PersistentLogStore.holds_append_new L.increasing) L.entries.length
  have hall : (L.entries.drop (stored.resume D)).take L.entries.length = L.entries := by
    rw [show stored.resume D = 0 from rfl, List.drop_zero, List.take_length]
  rw [hall] at happly
  exact Runs.exec_cons_some.mpr ⟨_, happend, Runs.exec_cons_some.mpr ⟨_, happly, rfl⟩⟩

theorem upToDate_inner : (World.upToDate J D L).sm.inner = spec J L.entries := by
  rw [World.upToDate, StateMachineStore.apply_spec]
  exact foldl_applyInner_new J L.entries

/-- A node may build a snapshot and purge all it has applied. -/
theorem exec_build_purge {w : World} {order : List (String × ShardId)} {id : LogId}
    (horder : Enumerates order w.sm.inner.shardRoutes) (hlast : w.sm.inner.lastApplied = some id)
    (hpurged : w.purged D ≤ id.index + 1) :
    Runs.exec (step nodeId J K D L) w [.build order, .purge id] = some
      { w with
        store := w.store.purge D id
        sm := (w.sm.buildSnapshot K order).1 } := by
  refine Runs.exec_cons_some.mpr ⟨_, if_pos horder, Runs.exec_cons_some.mpr ⟨_, if_pos ?_, rfl⟩⟩
  refine ⟨?_, hpurged⟩
  show id.index < nextIndex w.sm.inner.lastApplied
  rw [hlast]
  exact Nat.lt_succ_self _

/-- Once a snapshot covers the log, all of it may be purged. -/
theorem exec_purged {order : List (String × ShardId)} {id : LogId}
    (horder : Enumerates order (spec J L.entries).shardRoutes)
    (hid : lastLogId L.entries = some id) :
    ∃ w, Runs.exec (step nodeId J K D L) World.start
        [.append L.entries, .apply L.entries.length, .build order, .purge id] = some w ∧
      w.sm.inner = spec J L.entries ∧ w.retained D L = [] := by
  have hlast : (World.upToDate J D L).sm.inner.lastApplied = some id := by
    rw [upToDate_inner]
    exact hid
  have horder' : Enumerates order (World.upToDate J D L).sm.inner.shardRoutes := by
    rwa [upToDate_inner]
  refine ⟨_, Runs.exec_append_some.mpr ⟨_, exec_upToDate, exec_build_purge horder' hlast
    (Nat.zero_le _)⟩, upToDate_inner, List.filter_eq_nil_iff.mpr ?_⟩
  intro e he
  -- what was applied lies behind the purge mark
  have hlt : e.logId.index < nextIndex (World.upToDate J D L).sm.inner.lastApplied :=
    ((L.mem_take_iff _ e).mp he).1
  rw [hlast, nextIndex_some] at hlt
  rw [decide_eq_true_eq]
  intro hholds
  have hgt := ((PersistentLogStore.mem_purge_rows id _).mp hholds).2
  omega

/-- A route for module `m` is added. -/
def routeAdded : Log :=
  Log.ofPayloads ⟨1, 1⟩ [.normal ⟨encodeShardConfig commandJson (.addRoute "m" 1), 1⟩]

/-- A node that still stores the entry recovers the route. -/
theorem recovers_unpurged :
    ∃ w, Runs.exec (step 1 commandJson snapshotJson logJson routeAdded) World.start
        [.append routeAdded.entries, .apply 1] = some w ∧
      w.sm.inner.shardRoutes.lookup "m" = some 1 ∧
      Recovers commandJson snapshotJson logJson routeAdded w := by
  have hexec : Runs.exec (step 1 commandJson snapshotJson logJson routeAdded) World.start
      [.append routeAdded.entries, .apply 1] = some _ := exec_upToDate
  have hroute : (spec commandJson routeAdded.entries).shardRoutes.lookup "m" = some 1 := by
    decide +kernel
  refine ⟨_, hexec, by rw [upToDate_inner, hroute],
    (restart_recovers_iff (by decide) hexec).mpr (Retained.of_holds fun e he => ?_)⟩
  exact (PersistentLogStore.holds_append_new routeAdded.increasing e).mpr (List.mem_of_mem_take he)

/-- **A purged route is lost.**  Once openraft has purged the entry that the snapshot covers, a
restart finds neither the entry nor the snapshot. -/
theorem purged_route_lost :
    ∃ w, Runs.exec (step 1 commandJson snapshotJson logJson routeAdded) World.start
        [.append routeAdded.entries, .apply 1, .build [("m", 1)], .purge ⟨⟨1, 1⟩, 0⟩] = some w ∧
      w.sm.inner.shardRoutes.lookup "m" = some 1 ∧
      ¬ Recovers commandJson snapshotJson logJson routeAdded w := by
  have hroute : (spec commandJson routeAdded.entries).shardRoutes.lookup "m" = some 1 := by
    decide +kernel
  obtain ⟨w, h, hinner, hretained⟩ : ∃ w,
      Runs.exec (step 1 commandJson snapshotJson logJson routeAdded) World.start
        [.append routeAdded.entries, .apply 1, .build [("m", 1)], .purge ⟨⟨1, 1⟩, 0⟩] = some w ∧
      w.sm.inner = spec commandJson routeAdded.entries ∧ w.retained logJson routeAdded = [] :=
    exec_purged (by decide +kernel) rfl
  refine ⟨w, h, by rw [hinner, hroute], fun hrec => ?_⟩
  obtain ⟨sm, stored, hboot, hstored, hall⟩ := hrec []
  cases hboot
  have hread : w.restarted.storedCommitted logJson routeAdded 0 w.applied = .ok [] := by
    rw [← hretained]
    exact storedCommitted_eq (exec_inv (by decide) h).wellFormed
  obtain rfl : [] = stored := Except.ok.inj (hread.symm.trans hstored)
  have hlost := (hall [] rfl).shardRoutes
  rw [hinner] at hlost
  rw [← hlost, show (replay commandJson w.restarted.sm []).inner.shardRoutes = ∅ from rfl,
    Finmap.lookup_empty] at hroute
  cases hroute

end RaftTimeDB.Restart
