import RaftTimeDB.Cluster

/-!
# What a move of the cluster can do

`Core` is the part of the state that delivery depends on: logs, connections, what each inbound loop
has in hand, proposals and their entries, the shard states, and what SpacetimeDBs have received.
`step_effect` says once what each move does to it; every invariant of delivery is derived from there.
-/

set_option autoImplicit false

namespace RaftTimeDB.Cluster

variable {J : CommandJson} {K : SnapshotCodec}

structure Core where
  log : ShardId → List Entry
  conns : Nat → Option Conn
  pc : Nat → InboundPc
  props : Nat → Option Proposal
  entry : Nat → Option Nat
  state : NodeId × ShardId → ShardState
  sent : List Delivery

def World.core (w : World) : Core :=
  ⟨w.log, w.conns, w.pc, w.props, w.entry, w.state, w.sent⟩

/-- Moves that only touch calls and answers, outbound tasks or pools. -/
def Label.offCore : Label → Bool
  | .outboundEnd _ => true
  | .postDelivered _ _ => true
  | .served _ _ => true
  | .config _ _ _ => true
  | _ => false

/-- The proposal an inbound loop gives up with a move: `propose_write` returns an error, or the
upstream send fails. -/
def World.givesUp (w : World) : Label → Option Nat
  | .clientWrite c result =>
      match w.pc c, result with
      | .clientWrite p, .forwardToLeader none => some p
      | .clientWrite p, .otherError => some p
      | _, _ => none
  | .response c =>
      match w.pc c with
      | .posting p => if afterPost (w.answer p) then none else some p
      | _ => none
  | .postFail c =>
      match w.pc c with
      | .posting p => some p
      | _ => none
  | .send c false => (w.pc c).holds
  | _ => none

/-- A message may be sent upstream: a write only for a committed proposal with that data. -/
def SendOk (x : Core) (msg : Message) : Option Nat → Prop
  | some p => ∃ prop i, x.props p = some prop ∧ x.entry p = some i ∧ msg = .binary prop.data
  | none => classifyMessage msg ≠ .write

/-- A shard state moves on along the log: the forwardable entries it passes, or some of them, are
added to the forwarder channel. -/
structure Advance (log : List Entry) (st st' : ShardState) : Prop where
  task : st'.task = st.task
  applied : st.applied ≤ st'.applied
  queue : ∃ new, st'.queue = st.queue ++ new ∧
    (new.map (·.logIndex)).Pairwise (· < ·) ∧
    ∀ m ∈ new, st.applied ≤ m.logIndex ∧ m.logIndex < st'.applied ∧
      ∃ e, log[m.logIndex]? = some e ∧ e.forward? = some m

/-- Everything a move can do to the core. -/
inductive Effect (w : World) : Label → Core → Prop where
  | frame {l : Label} (hl : l.offCore = true) : Effect w l w.core
  | accept {c : Nat} {n : NodeId} {path : String} (hnew : w.conns c = none) :
      Effect w (.accept c n path)
        { w.core with
          conns := Function.update w.conns c
            (some ⟨n, path, (w.pool n).router.shardOfPath path⟩)
          pc := Function.update w.pc c .routed }
  | broadcast {c : Nat} {conn : Conn} (hconn : w.conns c = some conn) (hpc : w.pc c = .routed) :
      Effect w (.broadcast c)
        { w.core with
          pc := Function.update w.pc c .connecting
          state := Function.update w.state (conn.node, conn.shard)
            { w.state (conn.node, conn.shard) with
              task := (w.state (conn.node, conn.shard)).task.broadcast conn.path } }
  /-- an inbound loop goes on with what it has in hand -/
  | keep {l : Label} {c : Nat} {pc : InboundPc} (hl : w.givesUp l = none)
      (hcommit : ∀ p leaderId, l ≠ .commit p leaderId)
      (hpc : w.pc c ≠ .ended) (hholds : pc.holds = (w.pc c).holds)
      (hsend : ∀ msg q, pc = .sending msg q → SendOk w.core msg q) :
      Effect w l { w.core with pc := Function.update w.pc c pc }
  /-- an inbound loop goes on without it -/
  | drop {l : Label} {c p : Nat} {pc : InboundPc} (hl : w.givesUp l = some p)
      (hheld : (w.pc c).holds = some p) (hpc : pc = .idle ∨ pc = .ended) :
      Effect w l { w.core with pc := Function.update w.pc c pc }
  | propose {c p : Nat} {conn : Conn} {data : Bytes} (hconn : w.conns c = some conn)
      (hpc : w.pc c = .idle) (hnew : w.props p = none) (hentry : w.entry p = none)
      (hwrite : classifyMessage (.binary data) = .write) :
      Effect w (.recv c (.binary data) p)
        { w.core with
          pc := Function.update w.pc c (.clientWrite p)
          props := Function.update w.props p (some ⟨c, conn.node, conn.shard, data⟩) }
  | send {c : Nat} {conn : Conn} {msg : Message} {q : Option Nat} (hconn : w.conns c = some conn)
      (hpc : w.pc c = .sending msg q) :
      Effect w (.send c true)
        { w.core with
          pc := Function.update w.pc c .idle
          sent := w.sent ++
            [⟨conn.node, conn.shard, .handler, conn.path, msg, q.bind w.entry⟩] }
  | commit {p : Nat} {prop : Proposal} {leaderId : LeaderId} (hprop : w.props p = some prop)
      (hentry : w.entry p = none) :
      Effect w (.commit p leaderId)
        { w.core with
          log := appendEntry w.log prop.shard leaderId
            (.normal (proposeRequest prop.node prop.data))
          entry := Function.update w.entry p (some (w.log prop.shard).length) }
  | commitOther {s : ShardId} {leaderId : LeaderId} {payload : EntryPayload}
      (hpayload : ∀ i, (Entry.mk ⟨leaderId, i⟩ payload).forward? = none) :
      Effect w (.commitOther s leaderId payload)
        { w.core with log := appendEntry w.log s leaderId payload }
  | advance {l : Label} {n : NodeId} {s : ShardId} {st : ShardState} (hl : w.givesUp l = none)
      (hcommit : ∀ p leaderId, l ≠ .commit p leaderId)
      (hst : Advance (w.log s) (w.state (n, s)) st) :
      Effect w l { w.core with state := Function.update w.state (n, s) st }
  | forward {n : NodeId} {s : ShardId} {event : ForwarderEvent} {queue : List ForwarderMsg}
      {r : ForwarderResult} (hqueue : (w.state (n, s)).stateMachine.forwarder = some queue)
      (hr : (w.state (n, s)).task.step n queue event = some r) :
      Effect w (.forward n s event)
        { w.core with
          state := Function.update w.state (n, s)
            ⟨{ (w.state (n, s)).stateMachine with forwarder := some r.queue }, r.task⟩
          sent := w.sent ++ r.sent.toList.map fun m =>
            ⟨n, s, .forwarder, m.1, .binary m.2.rawMessage, some m.2.logIndex⟩ }

/-! ## Moving along the log -/

theorem advance_apply (L : Log) (st : ShardState) (count : Nat) :
    Advance L.entries st
      { st with
        stateMachine := (st.stateMachine.apply J ((L.entries.drop st.applied).take count)).1 } := by
  obtain ⟨hgrow, hall⟩ := L.segment_next count (Nat.le_refl st.applied)
  rw [← foldl_applyInner_lastApplied J] at hgrow hall
  rw [StateMachineStore.apply_spec]
  refine ⟨rfl, hgrow, ?_⟩
  cases hqueue : st.stateMachine.forwarder with
  | none => exact ⟨[], by simp [ShardState.queue, hqueue], List.Pairwise.nil, by simp⟩
  | some queue =>
    refine ⟨((L.entries.drop st.applied).take count).filterMap Entry.forward?,
      by simp [ShardState.queue, hqueue], ?_, fun m hm => ?_⟩
    · exact forwards_increasing
        (L.increasing.sublist ((List.take_sublist _ _).trans (List.drop_sublist _ _)))
    · obtain ⟨e, he, hforward⟩ := List.mem_filterMap.mp hm
      rw [Entry.forward?_logIndex hforward]
      refine ⟨(L.segment_bounds he).1, hall e he, e, ?_, hforward⟩
      exact (L.mem_iff_getElem? e).mp (List.mem_of_mem_drop (List.mem_of_mem_take he))

theorem forward?_payload {id id' : LogId} {payload : EntryPayload}
    (h : (Entry.mk id payload).forward? = none) : (Entry.mk id' payload).forward? = none := by
  unfold Entry.forward? at h ⊢
  cases payload with
  | blank => rfl
  | membership m => rfl
  | normal request =>
    simp only at h ⊢
    split at h
    · rename_i htag
      rw [if_pos htag]
    · cases h

theorem live?_request {attempt : Attempt} {r : ReducerCallRequest} (h : attempt.live? = some r) :
    attempt.request? = some r := by
  cases attempt with
  | closed => cases h
  | clientWrite request => exact h
  | posted request => cases h
  | serving request => exact h

/-- A message from the client: a write is proposed, anything else goes on to be sent. -/
theorem effect_recv {w w' : World} {c : Nat} {msg : Message} {p : Nat}
    (hinv : NetInv w) (h : step J K w (.recv c msg p) = some w') :
    Effect w (.recv c msg p) w'.core := by
  simp only [step] at h
  split at h
  · rename_i conn hconn hpc
    split at h
    · rename_i data hkind
      split at h
      · split at h
        · rename_i hnew
          cases h
          exact .propose hconn hpc hnew (hinv.fresh p hnew).2.2 hkind
        · cases h
      · cases h
        refine .keep rfl (by simp) (by simp [hpc]) ?_ ?_
        · simp [hpc, afterPropose, InboundPc.holds]
        · simp [afterPropose]
    · rename_i hkind
      cases h
      refine .keep rfl (by simp) (by simp [hpc]) ?_ ?_
      · simp [hpc, InboundPc.holds]
      · intro msg' q hsend
        cases hsend
        intro hwrite
        obtain ⟨tag, rest, rfl, _⟩ := classifyMessage_eq_write_iff.mp hwrite
        exact hkind _ hwrite rfl
  · cases h

theorem effect_clientWrite {w w' : World} {c : Nat} {result : ClientWriteResult}
    (h : step J K w (.clientWrite c result) = some w') :
    Effect w (.clientWrite c result) w'.core := by
  simp only [step] at h
  split at h
  · rename_i p hpc
    split at h
    · rename_i prop hprop
      split at h
      · rename_i hallowed
        cases result with
        | ok =>
          cases h
          obtain ⟨i, hi⟩ := Option.isSome_iff_exists.mp hallowed
          refine .keep (by simp [World.givesUp]) (by simp) (by simp [hpc]) ?_ ?_
          · simp [hpc, afterPropose, InboundPc.holds]
          · intro msg q hsend
            cases hsend
            exact ⟨prop, i, hprop, hi, rfl⟩
        | forwardToLeader leaderNode =>
          cases leaderNode with
          | none =>
            cases h
            exact .drop (p := p) (by simp [World.givesUp, hpc])
              (by simp [hpc, InboundPc.holds]) (Or.inl rfl)
          | some leaderNode =>
            cases h
            refine .keep (by simp [World.givesUp]) (by simp) (by simp [hpc]) ?_ (by simp)
            simp [hpc, InboundPc.holds]
        | otherError =>
          cases h
          exact .drop (p := p) (by simp [World.givesUp, hpc])
            (by simp [hpc, InboundPc.holds]) (Or.inl rfl)
      · cases h
    · cases h
  · cases h

/-- The answer of the leader decides whether the write is sent or given up. -/
theorem effect_response {w w' : World} {c : Nat}
    (hinv : NetInv w) (h : step J K w (.response c) = some w') :
    Effect w (.response c) w'.core := by
  simp only [step] at h
  split at h
  · rename_i p hpc
    split at h
    · rename_i prop status hprop hanswer
      cases h
      cases hok : afterPost (some status) with
      | true =>
        obtain ⟨i, hi⟩ := Option.isSome_iff_exists.mp (hinv.answer p status hanswer hok)
        refine .keep (by simp [World.givesUp, hpc, hanswer, hok]) (by simp) (by simp [hpc]) ?_ ?_
        · simp [hpc, afterPropose, InboundPc.holds]
        · intro msg q hsend
          cases hsend
          exact ⟨prop, i, hprop, hi, rfl⟩
      | false =>
        exact .drop (p := p) (by simp [World.givesUp, hpc, hanswer, hok])
          (by simp [hpc, InboundPc.holds]) (Or.inl rfl)
    · cases h
  · cases h

theorem effect_send {w w' : World} {c : Nat} {ok : Bool}
    (h : step J K w (.send c ok) = some w') :
    Effect w (.send c ok) w'.core := by
  simp only [step] at h
  split at h
  · rename_i conn msg q hconn hpc
    split at h
    · rename_i hok
      subst hok
      cases h
      exact .send hconn hpc
    · rename_i hok
      cases h
      obtain rfl : ok = false := by simpa using hok
      cases q with
      | none =>
        refine .keep (by simp [World.givesUp, hpc, InboundPc.holds]) (by simp) (by simp [hpc]) ?_
          (by simp)
        simp [hpc, InboundPc.holds]
      | some p =>
        exact .drop (p := p) (by simp [World.givesUp, hpc, InboundPc.holds])
          (by simp [hpc, InboundPc.holds]) (Or.inr rfl)
  · cases h

theorem effect_install {w w' : World} {n : NodeId} {s : ShardId}
    {replayOrder encodeOrder : List (String × ShardId)} {snap : Snapshot}
    (h : step J K w (.install n s replayOrder encodeOrder snap) = some w') :
    Effect w (.install n s replayOrder encodeOrder snap) w'.core := by
  simp only [step] at h
  split at h
  · rename_i sm hsm
    split at h
    · rename_i hle
      cases h
      refine .advance rfl (by simp) ⟨rfl, hle, [], ?_, List.Pairwise.nil, by simp⟩
      simp only [StateMachineStore.installSnapshot] at hsm
      split at hsm
      · cases hsm
      · cases hsm
        simp [ShardState.queue]
    · cases h
  · cases h

/-- **What a move can do.** -/
theorem step_effect {w w' : World} {l : Label} (hinv : NetInv w) (h : step J K w l = some w') :
    Effect w l w'.core := by
  cases l with
  | accept c n path =>
    simp only [step] at h
    split at h
    · rename_i hnew
      cases h
      exact .accept hnew
    · cases h
  | broadcast c =>
    simp only [step] at h
    split at h
    · rename_i conn hconn hpc
      split at h
      · cases h
        exact .broadcast hconn hpc
      · cases h
        exact .keep rfl (by simp) (by simp [hpc]) (by simp [hpc, InboundPc.holds]) (by simp)
    · cases h
  | upstream c ok =>
    simp only [step] at h
    split at h
    · rename_i hpc
      cases h
      refine .keep rfl (by simp) (by simp [hpc]) ?_ ?_
      · cases ok <;> simp [hpc, InboundPc.holds]
      · cases ok <;> simp
    · cases h
  | recv c msg p => exact effect_recv hinv h
  | close c =>
    simp only [step] at h
    split at h
    · rename_i hpc
      cases h
      exact .keep rfl (by simp) (by simp [hpc]) (by simp [hpc, InboundPc.holds]) (by simp)
    · cases h
  | outboundEnd c =>
    simp only [step, Option.some.injEq] at h
    subst h
    exact .frame rfl
  | clientWrite c result => exact effect_clientWrite h
  | response c => exact effect_response hinv h
  | postFail c =>
    simp only [step] at h
    split at h
    · rename_i p hpc
      split at h
      · cases h
        exact .drop (p := p) (by simp [World.givesUp, hpc]) (by simp [hpc, InboundPc.holds])
          (Or.inl rfl)
      · cases h
    · cases h
  | send c ok => exact effect_send h
  | commit p leaderId =>
    simp only [step] at h
    split at h
    · rename_i prop request hprop hlive hentry
      cases h
      rw [hinv.request p prop request hprop (live?_request hlive)]
      exact .commit hprop hentry
    · cases h
  | commitOther s leaderId payload =>
    simp only [step] at h
    split at h
    · rename_i hpayload
      cases h
      exact .commitOther fun i => forward?_payload hpayload
    · cases h
  | postDelivered p found =>
    simp only [step] at h
    split at h
    · split at h <;> cases h <;> exact .frame rfl
    · cases h
  | served p result =>
    simp only [step] at h
    split at h
    · split at h
      · cases h
        exact .frame rfl
      · cases h
    · cases h
  | attach n s =>
    simp only [step] at h
    split at h
    · rename_i hnone
      cases h
      refine .advance rfl (by simp) ⟨rfl, Nat.le_refl _, [], ?_, List.Pairwise.nil, by simp⟩
      simp [ShardState.queue, StateMachineStore.setForwarder, hnone]
    · cases h
  | apply n s count =>
    simp only [step, Option.some.injEq] at h
    subst h
    exact .advance rfl (by simp) (advance_apply ⟨w.log s, hinv.index s⟩ _ count)
  | install n s replayOrder encodeOrder snap => exact effect_install h
  | forward n s event =>
    simp only [step] at h
    split at h
    · rename_i queue hqueue
      split at h
      · rename_i r hr
        cases h
        exact .forward hqueue hr
      · cases h
    · cases h
  | config n created cmd =>
    simp only [step, Option.some.injEq] at h
    subst h
    exact .frame rfl

end RaftTimeDB.Cluster
