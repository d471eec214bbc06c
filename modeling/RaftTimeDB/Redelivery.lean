import RaftTimeDB.Restart

/-!
# Delivery across restarts

`last_applied` lives in memory only, so after a restart openraft applies every entry the log store
still holds once more, and the forwarder sends the writes among them to SpacetimeDB once more.  Within
a lifetime nothing is applied twice, and a purged entry is never applied again.

`no_redelivery` — over a whole run no write is sent twice, provided that every restart happens when
all writes sent so far have been purged.
-/

set_option autoImplicit false

namespace RaftTimeDB.Restart

open JsonFormats (commandJson snapshotJson logJson)

variable {nodeId : NodeId} {J : CommandJson} {K : SnapshotCodec} {D : LogJson} {L : Log}

/-- A restart finds every write the forwarder has sent purged from the log. -/
def RestartsPurged (D : LogJson) (w : World) : Label → Prop
  | .restart => ∀ msg ∈ w.sent, msg.logIndex < w.purged D
  | _ => True

/-- Log indices of the writes the forwarder has sent or still has before it. -/
def World.handed (w : World) : List Nat := (w.sent ++ w.queue).map (·.logIndex)

/-- What has been handed to the forwarder is distinct and lies behind the point where openraft goes
on applying. -/
structure Fresh (D : LogJson) (w : World) : Prop where
  nodup : w.handed.Nodup
  behind : ∀ i ∈ w.handed, i < w.resume D

/-- The point where openraft goes on applying never moves back within a lifetime. -/
theorem Fresh.mono {w w' : World} (h : Fresh D w) (hhanded : w'.handed = w.handed)
    (hresume : w.resume D ≤ w'.resume D) : Fresh D w' := by
  refine ⟨hhanded ▸ h.nodup, ?_⟩
  intro i hi
  rw [hhanded] at hi
  exact Nat.lt_of_lt_of_le (h.behind i hi) hresume

theorem Fresh.start : Fresh D World.start := ⟨List.nodup_nil, fun i hi => by cases hi⟩

/-- Where openraft goes on after a batch. -/
theorem resume_apply (w : World) (count : Nat) :
    let es := (L.entries.drop (w.resume D)).take count
    let w' : World := { w with sm := (w.sm.apply J es).1 }
    w.resume D ≤ w'.resume D ∧ ∀ e ∈ es, e.logId.index < w'.resume D := by
  intro es w'
  have hresume : w'.resume D =
      max (nextIndex ((lastLogId es).or w.sm.inner.lastApplied)) (w.purged D) := by
    rw [World.resume, World.applied, ← foldl_applyInner_lastApplied J]
    simp only [w', StateMachineStore.apply_spec]
    rfl
  have hle : nextIndex w.sm.inner.lastApplied ≤ w.resume D := Nat.le_max_left _ _
  obtain ⟨hgrow, hall⟩ := L.segment_next count hle
  rw [hresume]
  exact ⟨max_le_max hgrow (Nat.le_refl _),
    fun e he => Nat.lt_of_lt_of_le (hall e he) (Nat.le_max_left _ _)⟩

/-- Applying a batch hands over new writes only. -/
theorem Fresh.apply {w : World} (h : Fresh D w) (count : Nat) :
    Fresh D
      { w with sm := (w.sm.apply J ((L.entries.drop (w.resume D)).take count)).1 } := by
  obtain ⟨hgrow, hall⟩ := resume_apply (J := J) (D := D) (L := L) w count
  cases hqueue : w.sm.forwarder with
  | none =>
    refine h.mono ?_ hgrow
    simp [World.handed, World.queue, StateMachineStore.apply_spec, hqueue]
  | some queue =>
    have hhanded : World.handed
        { w with sm := (w.sm.apply J ((L.entries.drop (w.resume D)).take count)).1 } =
        w.handed ++ (((L.entries.drop (w.resume D)).take count).filterMap Entry.forward?).map
          (·.logIndex) := by
      simp [World.handed, World.queue, StateMachineStore.apply_spec, hqueue]
    have hinc : ((L.entries.drop (w.resume D)).take count).Pairwise
        fun a b => a.logId.index < b.logId.index :=
      L.increasing.sublist ((List.take_sublist _ _).trans (List.drop_sublist _ _))
    refine ⟨?_, ?_⟩
    · rw [hhanded]
      refine List.nodup_append.mpr ⟨h.nodup, (forwards_increasing hinc).imp Nat.ne_of_lt, ?_⟩
      intro i hi j hj heq
      obtain ⟨e, he, rfl⟩ := mem_forwards hj
      have hbehind := h.behind i hi
      have hahead := (L.segment_bounds he).1
      omega
    · intro i hi
      rw [hhanded, List.mem_append] at hi
      rcases hi with hold | hnew
      · exact Nat.lt_of_lt_of_le (h.behind i hold) hgrow
      · obtain ⟨e, he, rfl⟩ := mem_forwards hnew
        exact hall e he

/-- The forwarder moves its first message from the channel to SpacetimeDB, or drops it. -/
theorem Fresh.forward {w w' : World} {event : ForwarderEvent} (h : Fresh D w)
    (hstep : step nodeId J K D L w (.forward event) = some w') : Fresh D w' := by
  obtain ⟨queue, r, hqueue, hr, rfl⟩ := forward_cases hstep
  have hsub : List.Sublist (World.handed { w with
      sm := { w.sm with forwarder := some r.queue }
      task := r.task
      sent := w.sent ++ (r.sent.map Prod.snd).toList }) w.handed := by
    refine List.Sublist.map _ ?_
    simp only [World.queue, hqueue, Option.getD_some, List.append_assoc]
    refine List.Sublist.append_left ?_ _
    rcases Forwarder.step_queue hr with ⟨hq, hsent⟩ | ⟨msg, hq, hsent | ⟨dbPath, hsent, _⟩⟩
    · simp [hq, hsent]
    · simp [hq, hsent]
    · simp [hq, hsent]
  exact ⟨h.nodup.sublist hsub, fun i hi => h.behind i (hsub.subset hi)⟩

/-- **Every move that meets the condition keeps what was handed over fresh.** -/
theorem fresh_step {w w' : World} {l : Label} (h : Fresh D w) (hl : RestartsPurged D w l)
    (hstep : step nodeId J K D L w l = some w') : Fresh D w' := by
  cases l with
  | append entries =>
    simp only [step] at hstep
    split at hstep
    · cases hstep
      exact h.mono rfl (Nat.le_refl _)
    · cases hstep
  | truncate logId =>
    simp only [step] at hstep
    split at hstep
    · cases hstep
      exact h.mono rfl (Nat.le_refl _)
    · cases hstep
  | purge logId =>
    obtain ⟨_, _, _, hforward, rfl⟩ := purge_cases hstep
    refine h.mono rfl ?_
    have hpurged : World.purged D { w with store := w.store.purge D logId } = logId.index + 1 := by
      simp [World.purged]
    rw [World.resume, World.resume, hpurged]
    exact max_le_max (Nat.le_refl _) hforward
  | apply count =>
    rw [apply_cases hstep]
    exact h.apply count
  | build order =>
    simp only [step] at hstep
    split at hstep
    · cases hstep
      exact h.mono rfl (Nat.le_refl _)
    · cases hstep
  | install upTo builtOrder replayOrder encodeOrder =>
    obtain ⟨hle, hlen, tx, bytes, rfl⟩ := install_cases hstep
    refine h.mono rfl ?_
    rw [World.resume, World.resume, World.applied, World.applied, L.nextIndex_spec J hlen]
    exact max_le_max hle (Nat.le_refl _)
  | attach =>
    simp only [step] at hstep
    split at hstep
    · rename_i hnone
      cases hstep
      refine h.mono ?_ (Nat.le_refl _)
      simp [World.handed, World.queue, StateMachineStore.setForwarder, hnone]
    · cases hstep
  | broadcast path =>
    simp only [step, Option.some.injEq] at hstep
    subst hstep
    exact h.mono rfl (Nat.le_refl _)
  | forward event => exact h.forward hstep
  | restart =>
    simp only [step, Option.some.injEq] at hstep
    subst hstep
    have hhanded : w.restarted.handed = w.sent.map (·.logIndex) := by
      simp [World.handed, World.queue, World.restarted, StateMachineStore.new]
    have hsub : List.Sublist (w.sent.map (·.logIndex)) w.handed :=
      (List.sublist_append_left _ _).map _
    refine ⟨hhanded ▸ h.nodup.sublist hsub, ?_⟩
    intro i hi
    rw [hhanded, List.mem_map] at hi
    obtain ⟨msg, hmsg, rfl⟩ := hi
    exact Nat.lt_of_lt_of_le (hl msg hmsg) (Nat.le_max_right _ _)

/-- **No re-delivery.**  In every run, over any number of lifetimes, whose restarts all find the
writes sent so far purged, no committed entry is sent to SpacetimeDB twice by the forwarder. -/
theorem no_redelivery {labels : List Label} {w : World}
    (hrestarts : Runs.Along (step nodeId J K D L) (RestartsPurged D) World.start labels)
    (h : Runs.exec (step nodeId J K D L) World.start labels = some w) :
    (w.sent.map (·.logIndex)).Nodup := by
  have hfresh : Fresh D w := by
    refine Runs.exec_inv_along ?_ Fresh.start hrestarts h
    intro s l s' hI hl hs
    exact fresh_step hI hl hs
  exact hfresh.nodup.sublist ((List.sublist_append_left _ _).map _)

/-! ### Two lifetimes of a node -/

/-- A write that node 2 has proposed. -/
def foreignWrite : Log := Log.ofPayloads ⟨1, 2⟩ [.normal ⟨[3], 2⟩]

/-- One lifetime of node 1: a client's path is broadcast, the write is applied, and the forwarder
connects and sends it. -/
def lifetime : List Label :=
  [.attach, .broadcast "/database/subscribe/m", .apply 1, .forward .pathChanged, .forward .latch,
    .forward (.connect true), .forward (.recv true)]

/-- A fresh forwarder that learns of a path connects and sends a foreign write. -/
theorem exec_forwards {w : World} {path : String} {msg : ForwarderMsg}
    (hqueue : w.sm.forwarder = some [msg]) (htask : w.task = Forwarder.spawn.broadcast path)
    (hpath : path ≠ "") (horigin : msg.originNodeId ≠ nodeId) :
    Runs.exec (step nodeId J K D L) w [.forward .pathChanged, .forward .latch,
        .forward (.connect true), .forward (.recv true)] = some
      { w with
        sm := { w.sm with forwarder := some [] }
        task := ⟨.connected path, path, false⟩
        sent := w.sent ++ [msg] } := by
  simp [Runs.exec, step, hqueue, htask, Forwarder.step, Forwarder.broadcast, Forwarder.spawn, hpath,
    horigin]

/-- A node that starts with the write in its store sends it. -/
theorem exec_lifetime {store : PersistentLogStore} (hwf : store.WellFormed logJson)
    (hholds : ∀ e, store.Holds logJson e ↔ e ∈ foreignWrite.entries)
    (hpurged : store.lastPurged logJson = .ok none) (sent : List ForwarderMsg) :
    ∃ w, Runs.exec (step 1 commandJson snapshotJson logJson foreignWrite)
        ⟨store, StateMachineStore.new, Forwarder.spawn, sent⟩ lifetime = some w ∧
      w.store = store ∧ w.sent = sent ++ [⟨0, 2, [3]⟩] ∧ w.sm.inner.shardRoutes = ∅ ∧
      w.sm.inner.lastApplied = some ⟨⟨1, 2⟩, 0⟩ := by
  let attached : World := ⟨store, StateMachineStore.new.setForwarder,
    Forwarder.spawn.broadcast "/database/subscribe/m", sent⟩
  have hresume : attached.resume logJson = 0 := by
    simp [World.resume, World.applied, World.purged, attached, hpurged, StateMachineStore.new,
      StateMachineInner.new, StateMachineStore.setForwarder]
  have happly : step 1 commandJson snapshotJson logJson foreignWrite attached (.apply 1) = _ :=
    apply_enabled hwf hholds 1
  rw [hresume] at happly
  refine ⟨_, Runs.exec_cons_some.mpr ⟨_, rfl, Runs.exec_cons_some.mpr ⟨_, rfl,
    Runs.exec_cons_some.mpr ⟨_, happly, exec_forwards rfl rfl (by decide) (by decide)⟩⟩⟩, rfl, rfl,
    rfl, rfl⟩

/-- Node 1 stores the write and lives its first lifetime. -/
def firstLifetime : List Label := .append foreignWrite.entries :: lifetime

theorem exec_firstLifetime :
    ∃ w, Runs.exec (step 1 commandJson snapshotJson logJson foreignWrite) World.start
        firstLifetime = some w ∧
      w.store = PersistentLogStore.new.append logJson foreignWrite.entries ∧
      w.sent = [⟨0, 2, [3]⟩] ∧ w.sm.inner.shardRoutes = ∅ ∧
      w.sm.inner.lastApplied = some ⟨⟨1, 2⟩, 0⟩ := by
  obtain ⟨w, h, hw⟩ := exec_lifetime
    (PersistentLogStore.WellFormed.new.append foreignWrite.entries)
    (PersistentLogStore.holds_append_new foreignWrite.increasing) rfl []
  exact ⟨w, Runs.exec_cons_some.mpr ⟨_, append_enabled, h⟩, hw⟩

/-- A snapshot is built and what it covers is purged. -/
def purgeWrite : List Label := [.build [], .purge ⟨⟨1, 2⟩, 0⟩]

/-- A write that is purged before the node restarts is sent once. -/
theorem purged_write_sent_once :
    ∃ w, Runs.exec (step 1 commandJson snapshotJson logJson foreignWrite) World.start
        (firstLifetime ++ purgeWrite ++ [Label.restart]) = some w ∧
      w.sent = [⟨0, 2, [3]⟩] ∧ (w.sent.map (·.logIndex)).Nodup := by
  obtain ⟨w, h, hstore, hsent, hroutes, hlast⟩ := exec_firstLifetime
  have hpurged : w.purged logJson ≤ 1 := by
    simp [World.purged, hstore]
  have hpurge : Runs.exec (step 1 commandJson snapshotJson logJson foreignWrite) w
      purgeWrite = some _ :=
    exec_build_purge ⟨List.nodup_nil, hroutes.symm⟩ hlast hpurged
  have hbefore := Runs.exec_append_some.mpr ⟨w, h, hpurge⟩
  have hexec : Runs.exec (step 1 commandJson snapshotJson logJson foreignWrite) World.start
      (firstLifetime ++ purgeWrite ++ [Label.restart]) = some _ :=
    Runs.exec_append_some.mpr ⟨_, hbefore, Runs.exec_cons_some.mpr ⟨_, rfl, rfl⟩⟩
  refine ⟨_, hexec, hsent, no_redelivery ?_ hexec⟩
  have hquiet : ∀ l ∈ firstLifetime ++ purgeWrite, ∀ t, RestartsPurged logJson t l := by
    simp [RestartsPurged, firstLifetime, lifetime, purgeWrite]
  refine Runs.Along.append (Runs.along_of_forall hquiet) fun t ht =>
    ⟨?_, fun _ _ => trivial⟩
  intro msg hmsg
  obtain rfl := Option.some.inj (ht.symm.trans hbefore)
  rw [show World.sent _ = w.sent from rfl, hsent, List.mem_singleton] at hmsg
  simp [World.purged, hmsg]

/-- **A restarted node sends a write again.**  The write is still stored, so it is applied and sent
once more in the second lifetime. -/
theorem restart_resends_write :
    ∃ w, Runs.exec (step 1 commandJson snapshotJson logJson foreignWrite) World.start
        (firstLifetime ++ Label.restart :: lifetime) = some w ∧
      w.sent = [⟨0, 2, [3]⟩, ⟨0, 2, [3]⟩] ∧ ¬ (w.sent.map (·.logIndex)).Nodup := by
  obtain ⟨w, h, hstore, hsent, _⟩ := exec_firstLifetime
  obtain ⟨w', h', _, hsent', _⟩ := exec_lifetime
    (PersistentLogStore.WellFormed.new.append foreignWrite.entries)
    (PersistentLogStore.holds_append_new foreignWrite.increasing) rfl w.sent
  rw [← hstore] at h'
  rw [hsent] at hsent'
  refine ⟨w', Runs.exec_append_some.mpr ⟨w, h, Runs.exec_cons_some.mpr ⟨_, rfl, h'⟩⟩, hsent', ?_⟩
  rw [hsent']
  decide

end RaftTimeDB.Restart
