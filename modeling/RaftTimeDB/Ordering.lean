import RaftTimeDB.Integrity

/-!
# The order in which a SpacetimeDB receives the writes of a shard

Handlers send the writes of their own clients as soon as `propose_write` returns; the forwarder sends
the writes of other nodes as it takes them off its channel.  Nothing synchronises the two, nor the
handlers of different connections.

`writes_in_log_order` — if every handler happens to send in its turn (`InTurn`: the forwarder has taken
the foreign writes that precede the handler's write and no later one, and no other handler of the node
holds an earlier write), then every node receives the writes of every shard in log order, and any
two nodes receive their common writes in the same order.
-/

set_option autoImplicit false

namespace RaftTimeDB.Cluster

open JsonFormats (commandJson snapshotJson)

variable {J : CommandJson} {K : SnapshotCodec}

/-- Entry `j` is a write of another node that the forwarder has not taken yet: it is not applied, or
still on the channel. -/
def Core.Pending (x : Core) (n : NodeId) (s : ShardId) (j : Nat) : Prop :=
  ∃ (e : Entry) (m : ForwarderMsg), (x.log s)[j]? = some e ∧ e.forward? = some m ∧
    m.originNodeId ≠ n ∧ ((x.state (n, s)).applied ≤ j ∨ m ∈ (x.state (n, s)).queue)

/-- The handler of connection `c` on a node holds committed write `j` of the shard. -/
def Core.Holds (x : Core) (c : Nat) (n : NodeId) (s : ShardId) (j : Nat) : Prop :=
  ∃ conn p, x.conns c = some conn ∧ conn.node = n ∧ conn.shard = s ∧
    (x.pc c).holds = some p ∧ x.entry p = some j

/-- A handler sends a write in its turn: the forwarder has taken the foreign writes before it and
none after it, and no other handler of the node holds an earlier write of the shard. -/
def InTurn (w : World) : Label → Prop
  | .send c true => ∀ conn i, w.conns c = some conn → w.core.Holds c conn.node conn.shard i →
      (∀ j, w.core.Foreign conn.node conn.shard j →
        (w.core.Pending conn.node conn.shard j ↔ i < j)) ∧
      ∀ c' j, c' ≠ c → w.core.Holds c' conn.node conn.shard j → i < j
  | _ => True

structure Ordered (x : Core) : Prop where
  increasing : ∀ n s, (delivered n s x.sent).Pairwise (· < ·)
  /-- what the forwarder has yet to take comes after what handlers have sent -/
  pending : ∀ n s, ∀ i ∈ sentBy .handler n s x.sent, ∀ j, x.Pending n s j → i < j
  /-- so does what handlers still hold -/
  held : ∀ n s, ∀ i ∈ sentBy .handler n s x.sent, ∀ c j, x.Holds c n s j → i < j

theorem Ordered.start : Ordered World.start.core := by
  refine ⟨fun n s => List.Pairwise.nil, fun n s i h => ?_, fun n s i h => ?_⟩ <;>
  cases h

/-- A move that sends nothing keeps the order if whatever is new to the forwarder or in a hand is
new to the log. -/
theorem Ordered.mono {x x' : Core} (h : Ordered x) (hinv : HandlerInv x) (hsent : x'.sent = x.sent)
    (hpending : ∀ n s j, x'.Pending n s j → x.Pending n s j ∨ (x.log s).length ≤ j)
    (hheld : ∀ c n s j, x'.Holds c n s j → x.Holds c n s j ∨ (x.log s).length ≤ j) :
    Ordered x' := by
  refine ⟨fun n s => hsent ▸ h.increasing n s, ?_, ?_⟩
  · intro n s i hi j hj
    rw [hsent] at hi
    rcases hpending n s j hj with hold | hnew
    · exact h.pending n s i hi j hold
    · exact Nat.lt_of_lt_of_le (hinv.sent_lt hi) hnew
  · intro n s i hi c j hj
    rw [hsent] at hi
    rcases hheld c n s j hj with hold | hnew
    · exact h.held n s i hi c j hold
    · exact Nat.lt_of_lt_of_le (hinv.sent_lt hi) hnew

/-! ## What stays pending and in hand -/

/-- A shard state that has moved on has no more pending. -/
theorem Core.Pending.of_later {x x' : Core} {n : NodeId} {s : ShardId} {j : Nat}
    (h : x'.Pending n s j)
    (hindex : ∀ (i : Nat) (e : Entry), (x.log s)[i]? = some e → e.logId.index = i)
    (hlog : x'.log = x.log) (happlied : (x.state (n, s)).applied ≤ (x'.state (n, s)).applied)
    (hqueue : ∀ m ∈ (x'.state (n, s)).queue,
      m ∈ (x.state (n, s)).queue ∨ (x.state (n, s)).applied ≤ m.logIndex) :
    x.Pending n s j := by
  obtain ⟨e, m, he, hforward, horigin, hwhere⟩ := h
  rw [hlog] at he
  refine ⟨e, m, he, hforward, horigin, ?_⟩
  rcases hwhere with hunapplied | hqueued
  · exact Or.inl (Nat.le_trans happlied hunapplied)
  · rcases hqueue m hqueued with hold | hlate
    · exact Or.inr hold
    · rw [Entry.forward?_logIndex hforward, hindex j e he] at hlate
      exact Or.inl hlate

/-- A new entry is the only one that can become pending. -/
theorem Core.Pending.of_append {x : Core} {leaderId : LeaderId} {payload : EntryPayload}
    {s' : ShardId} {n : NodeId} {s : ShardId} {j : Nat}
    (h : Core.Pending { x with log := appendEntry x.log s' leaderId payload } n s j) :
    x.Pending n s j ∨ (x.log s).length ≤ j := by
  obtain ⟨e, m, he, hforward, horigin, hwhere⟩ := h
  rcases getElem?_appendEntry he with hold | ⟨rfl, rfl, _⟩
  · exact Or.inl ⟨e, m, hold, hforward, horigin, hwhere⟩
  · exact Or.inr (Nat.le_refl _)

/-- A handler that moves on holds no more than before. -/
theorem Core.Holds.of_setPc {x : Core} {c c' : Nat} {pc : InboundPc} {n : NodeId} {s : ShardId}
    {j : Nat} (hpc : pc.holds = none ∨ pc.holds = (x.pc c).holds)
    (h : Core.Holds { x with pc := Function.update x.pc c pc } c' n s j) : x.Holds c' n s j := by
  obtain ⟨conn, p, hconn, hnode, hshard, hheld, hentry⟩ := h
  refine ⟨conn, p, hconn, hnode, hshard, ?_, hentry⟩
  by_cases hc : c' = c
  · subst hc
    simp only [Function.update_self] at hheld
    rcases hpc with hnone | hsame
    · rw [hnone] at hheld
      cases hheld
    · rwa [← hsame]
  · simpa only [Function.update_of_ne hc] using hheld

/-- A handler holds writes of its own node only. -/
theorem HandlerInv.holds_not_foreign {x : Core} (hinv : HandlerInv x) {c : Nat} {n : NodeId}
    {s : ShardId} {i : Nat} (h : x.Holds c n s i) : ¬ x.Foreign n s i := by
  obtain ⟨conn, p, hconn, rfl, rfl, hheld, hentry⟩ := h
  obtain ⟨prop, hprop, _⟩ := hinv.held c p hheld
  obtain ⟨hnode, hshard⟩ := hinv.held_shard hconn hheld hprop
  rw [← hnode, ← hshard]
  exact hinv.own_not_foreign hprop hentry

/-! ## Deliveries -/

theorem delivered_snoc {sent : List Delivery} {n : NodeId} {s : ShardId} {d : Delivery} :
    delivered n s (sent ++ [d]) = delivered n s sent ++ (d.entryFor n s).toList := by
  cases h : d.entryFor n s <;> simp [delivered, h]

/-- What a node has received was sent by one of the two senders. -/
theorem mem_delivered {sent : List Delivery} {n : NodeId} {s : ShardId} {i : Nat}
    (h : i ∈ delivered n s sent) :
    i ∈ sentBy .handler n s sent ∨ i ∈ sentBy .forwarder n s sent := by
  obtain ⟨d, hd, hentry⟩ := List.mem_filterMap.mp h
  unfold Delivery.entryFor at hentry
  split at hentry
  · rename_i hguard
    cases hsender : d.sender with
    | handler => exact Or.inl (mem_sentBy.mpr ⟨d, hd, hsender, hguard.1, hguard.2, hentry⟩)
    | forwarder => exact Or.inr (mem_sentBy.mpr ⟨d, hd, hsender, hguard.1, hguard.2, hentry⟩)
  · cases hentry

/-- What a forwarder has sent is foreign and no longer pending. -/
theorem ForwarderInv.taken {w : World} (hnet : NetInv w) (hinv : ForwarderInv w.core) {n : NodeId}
    {s : ShardId} {i : Nat} (h : i ∈ sentBy .forwarder n s w.sent) :
    w.core.Foreign n s i ∧ ¬ w.core.Pending n s i := by
  have hbehind : i < (w.state (n, s)).applied :=
    hinv.behind n s i (List.mem_append_left _ h)
  obtain ⟨d, hd, hsender, hnode, hshard, hentry⟩ := mem_sentBy.mp h
  obtain ⟨m, e, hm, _, he, hforward, horigin⟩ := hinv.sent d hd hsender
  rw [hentry, Option.some.injEq] at hm
  rw [hshard, ← hm] at he
  rw [hnode] at horigin
  refine ⟨⟨e, m, he, hforward, horigin⟩, ?_⟩
  rintro ⟨e', m', he', hforward', _, hunapplied | hqueued⟩
  · exact Nat.lt_irrefl _ (Nat.lt_of_lt_of_le hbehind hunapplied)
  · -- a message on the channel comes after everything sent
    have hidx : m'.logIndex = i := by
      rw [Entry.forward?_logIndex hforward', hnet.index s i e' he']
    have hlt := (List.pairwise_append.mp (hinv.increasing n s)).2.2 i h m'.logIndex
      (List.mem_map_of_mem hqueued)
    omega

/-- A handler that sends in its turn keeps the order. -/
theorem Ordered.send {w : World} (hinv : Inv w) (h : Ordered w.core) {c : Nat} {conn : Conn}
    {msg : Message} {q : Option Nat} (hconn : w.conns c = some conn)
    (hpc : w.pc c = .sending msg q) (hturn : InTurn w (.send c true)) :
    Ordered { w.core with
      pc := Function.update w.pc c .idle
      sent := w.sent ++
        [⟨conn.node, conn.shard, .handler, conn.path, msg, q.bind w.entry⟩] } := by
  -- the sending handler holds what it sends, and nothing afterwards
  have hturn' : ∀ i, q.bind w.entry = some i →
      w.core.Holds c conn.node conn.shard i := by
    intro i hi
    cases q with
    | none => cases hi
    | some p => exact ⟨conn, p, hconn, rfl, rfl, by simp [World.core, hpc, InboundPc.holds], hi⟩
  have hholds : ∀ c' n s j, Core.Holds { w.core with
      pc := Function.update w.pc c .idle
      sent := w.sent ++
        [⟨conn.node, conn.shard, .handler, conn.path, msg, q.bind w.entry⟩] } c' n s j →
      c' ≠ c ∧ w.core.Holds c' n s j := by
    rintro c' n s j ⟨conn', p, hconn', hnode, hshard, hheld, hentry⟩
    have hc : c' ≠ c := by
      rintro rfl
      simp [InboundPc.holds] at hheld
    simp only [Function.update_of_ne hc] at hheld
    exact ⟨hc, conn', p, hconn', hnode, hshard, hheld, hentry⟩
  have hby : ∀ n s i, i ∈ sentBy .handler n s (w.sent ++
      [⟨conn.node, conn.shard, .handler, conn.path, msg, q.bind w.entry⟩]) →
      i ∈ sentBy .handler n s w.sent ∨
        n = conn.node ∧ s = conn.shard ∧ q.bind w.entry = some i := by
    intro n s i hi
    rw [sentBy_snoc, List.mem_append, Option.mem_toList] at hi
    rcases hi with hold | hnew
    · exact Or.inl hold
    · obtain ⟨_, hnode, hshard, hentry⟩ := entryBy_eq_some hnew
      exact Or.inr ⟨hnode.symm, hshard.symm, hentry⟩
  refine ⟨?_, ?_, ?_⟩
  · intro n s
    rw [delivered_snoc]
    refine List.pairwise_append.mpr ⟨h.increasing n s, ?_, ?_⟩
    · cases Delivery.entryFor n s _ <;> simp
    · intro k hk i hi
      rw [Option.mem_toList] at hi
      unfold Delivery.entryFor at hi
      split at hi
      · rename_i hguard
        obtain ⟨rfl, rfl⟩ := hguard
        obtain ⟨hforeign, _⟩ := hturn conn i hconn (hturn' i hi)
        rcases mem_delivered hk with hhandler | hforwarder
        · exact h.held _ _ k hhandler c i (hturn' i hi)
        · obtain ⟨hkforeign, htaken⟩ := ForwarderInv.taken hinv.net hinv.forwarders hforwarder
          have hle : ¬ i < k := fun hlt => htaken ((hforeign k hkforeign).mpr hlt)
          have hne : k ≠ i := by
            rintro rfl
            exact hinv.handlers.holds_not_foreign (hturn' k hi) hkforeign
          omega
      · cases hi
  · intro n s i hi j hj
    rcases hby n s i hi with hold | ⟨rfl, rfl, hnew⟩
    · exact h.pending n s i hold j hj
    · obtain ⟨hforeign, _⟩ := hturn conn i hconn (hturn' i hnew)
      obtain ⟨e, m, he, hforward, horigin, hwhere⟩ := hj
      exact (hforeign j ⟨e, m, he, hforward, horigin⟩).mp ⟨e, m, he, hforward, horigin, hwhere⟩
  · intro n s i hi c' j hj
    obtain ⟨hc, hj⟩ := hholds c' n s j hj
    rcases hby n s i hi with hold | ⟨rfl, rfl, hnew⟩
    · exact h.held n s i hold c' j hj
    · exact (hturn conn i hconn (hturn' i hnew)).2 c' j hc hj

/-- The forwarder sends the first message of its channel, which handlers have not overtaken. -/
theorem Ordered.forward {w : World} (hinv : Inv w) (h : Ordered w.core) {n : NodeId} {s : ShardId}
    {event : ForwarderEvent} {queue : List ForwarderMsg} {r : ForwarderResult}
    (hqueue : (w.state (n, s)).stateMachine.forwarder = some queue)
    (hr : (w.state (n, s)).task.step n queue event = some r) :
    Ordered { w.core with
      state := Function.update w.state (n, s) ((w.state (n, s)).after r)
      sent := w.sent ++ deliveries n s r } := by
  have hqueue' : (w.state (n, s)).queue = queue := by simp [ShardState.queue, hqueue]
  have hcases := Forwarder.step_queue hr
  have hpending : ∀ n' s' j, Core.Pending { w.core with
      state := Function.update w.state (n, s) ((w.state (n, s)).after r)
      sent := w.sent ++ deliveries n s r } n' s' j → w.core.Pending n' s' j := by
    intro n' s' j hj
    refine hj.of_later (hinv.net.index s') rfl ?_ ?_
    · by_cases hk : (n', s') = (n, s)
      · obtain ⟨rfl, rfl⟩ := Prod.mk.inj hk
        simp [World.core, ShardState.applied]
      · simp [World.core, Function.update_of_ne hk]
    · intro m hm
      refine Or.inl ?_
      by_cases hk : (n', s') = (n, s)
      · obtain ⟨rfl, rfl⟩ := Prod.mk.inj hk
        simp only [Function.update_self] at hm
        show m ∈ (w.state (n', s')).queue
        rw [hqueue']
        rcases hcases with ⟨hq, _⟩ | ⟨msg, hq, _⟩
        · rw [← hq]
          exact hm
        · rw [hq]
          exact List.mem_cons_of_mem _ hm
      · simpa [World.core, Function.update_of_ne hk] using hm
  have hby : ∀ n' s', sentBy .handler n' s' (w.sent ++ deliveries n s r) =
      sentBy .handler n' s' w.sent := by
    intro n' s'
    cases hsent : r.sent <;> simp [sentBy, hsent, Delivery.entryBy]
  refine ⟨?_, ?_, ?_⟩
  · intro n' s'
    cases hsent : r.sent with
    | none => simpa [deliveries, hsent, World.core] using h.increasing n' s'
    | some m =>
      have hdeliver : deliveries n s r =
          [⟨n, s, .forwarder, m.1, .binary m.2.rawMessage, some m.2.logIndex⟩] := by simp [hsent]
      rw [hdeliver, delivered_snoc]
      refine List.pairwise_append.mpr ⟨h.increasing n' s', ?_, ?_⟩
      · cases Delivery.entryFor n' s' _ <;> simp
      · intro k hk i hi
        rw [Option.mem_toList] at hi
        unfold Delivery.entryFor at hi
        split at hi
        · rename_i hguard
          obtain ⟨rfl, rfl⟩ := hguard
          cases hi
          -- the message sent was the first one on the channel
          rcases hcases with ⟨_, hnone⟩ | ⟨msg, hq, hnone | ⟨dbPath, hsome, horigin⟩⟩
          · rw [hsent] at hnone
            cases hnone
          · rw [hsent] at hnone
            cases hnone
          · rw [hsent, Option.some.injEq] at hsome
            subst hsome
            have hmem : msg ∈ (w.state (n, s)).queue := by rw [hqueue', hq]; simp
            rcases mem_delivered hk with hhandler | hforwarder
            · obtain ⟨e, he, hforward⟩ := hinv.forwarders.queued n s msg hmem
              exact h.pending n s k hhandler _ ⟨e, msg, he, hforward, horigin, Or.inr hmem⟩
            · exact (List.pairwise_append.mp (hinv.forwarders.increasing n s)).2.2 k hforwarder _
                (List.mem_map_of_mem hmem)
        · cases hi
  · intro n' s' i hi j hj
    rw [hby] at hi
    exact h.pending n' s' i hi j (hpending n' s' j hj)
  · intro n' s' i hi c j hj
    rw [hby] at hi
    exact h.held n' s' i hi c j hj

/-- **Every move in turn keeps the order.** -/
theorem ordered_effect {w : World} {l : Label} {x : Core} (heff : Effect w l x) (hinv : Inv w)
    (hturn : InTurn w l) (h : Ordered w.core) : Ordered x := by
  cases heff with
  | frame => exact h
  | @accept c n path hnew =>
    refine h.mono hinv.handlers rfl (fun _ _ _ hj => Or.inl hj) fun c' n' s' j hj => Or.inl ?_
    obtain ⟨conn, p, hconn, hnode, hshard, hheld, hentry⟩ := hj
    have hc : c' ≠ c := by
      rintro rfl
      simp [InboundPc.holds] at hheld
    simp only [Function.update_of_ne hc] at hconn hheld
    exact ⟨conn, p, hconn, hnode, hshard, hheld, hentry⟩
  | @broadcast c conn hconn hpc =>
    refine h.mono hinv.handlers rfl (fun n s j hj => Or.inl ?_) fun c' n s j hj => Or.inl ?_
    · refine hj.of_later (hinv.net.index s) rfl ?_ (fun m hm => Or.inl ?_)
      · by_cases hk : (n, s) = (conn.node, conn.shard)
        · rw [hk]
          simp [World.core, ShardState.applied]
        · simp [World.core, Function.update_of_ne hk]
      · by_cases hk : (n, s) = (conn.node, conn.shard)
        · rw [hk] at hm ⊢
          simpa [World.core, ShardState.queue] using hm
        · simpa [World.core, Function.update_of_ne hk] using hm
    · exact Core.Holds.of_setPc (x := w.core) (c := c) (Or.inl (by rfl)) hj
  | keep _ _ _ hholds _ =>
    exact h.mono hinv.handlers rfl (fun _ _ _ hj => Or.inl hj) fun _ _ _ _ hj =>
      Or.inl (Core.Holds.of_setPc (Or.inr hholds) hj)
  | drop _ _ hpc =>
    refine h.mono hinv.handlers rfl (fun _ _ _ hj => Or.inl hj) fun _ _ _ _ hj =>
      Or.inl (Core.Holds.of_setPc (Or.inl ?_) hj)
    rcases hpc with rfl | rfl <;> rfl
  | @propose c p conn data hconn hpc hnew hentry _ =>
    refine h.mono hinv.handlers rfl (fun _ _ _ hj => Or.inl hj) fun c' n s j hj => Or.inl ?_
    obtain ⟨conn', q, hconn', hnode, hshard, hheld, hq⟩ := hj
    have hc : c' ≠ c := by
      rintro rfl
      simp only [Function.update_self, InboundPc.holds, Option.some.injEq] at hheld
      subst hheld
      rw [show w.core.entry p = none from hentry] at hq
      cases hq
    simp only [Function.update_of_ne hc] at hheld
    exact ⟨conn', q, hconn', hnode, hshard, hheld, hq⟩
  | send hconn hpc => exact h.send hinv hconn hpc hturn
  | @commit p prop leaderId hprop hentry =>
    refine h.mono hinv.handlers rfl (fun _ _ _ hj => Core.Pending.of_append hj)
      ?_
    intro c n s j hj
    obtain ⟨conn, q, hconn, rfl, rfl, hheld, hq⟩ := hj
    by_cases hqp : q = p
    · subst hqp
      simp only [Function.update_self, Option.some.injEq] at hq
      rw [← (hinv.handlers.held_shard hconn hheld hprop).2, ← hq]
      exact Or.inr (Nat.le_refl _)
    · simp only [Function.update_of_ne hqp] at hq
      exact Or.inl ⟨conn, q, hconn, rfl, rfl, hheld, hq⟩
  | commitOther _ =>
    exact h.mono hinv.handlers rfl (fun _ _ _ hj => Core.Pending.of_append hj)
      fun _ _ _ _ hj => Or.inl hj
  | @advance _ n s st _ _ hst =>
    refine h.mono hinv.handlers rfl (fun n' s' j hj => Or.inl ?_) fun _ _ _ _ hj => Or.inl hj
    obtain ⟨new, hqueue, _, hnew⟩ := hst.queue
    refine hj.of_later (hinv.net.index s') rfl ?_ ?_
    · by_cases hk : (n', s') = (n, s)
      · obtain ⟨rfl, rfl⟩ := Prod.mk.inj hk
        simpa [World.core] using hst.applied
      · simp [World.core, Function.update_of_ne hk]
    · intro m hm
      by_cases hk : (n', s') = (n, s)
      · obtain ⟨rfl, rfl⟩ := Prod.mk.inj hk
        simp only [Function.update_self, hqueue, List.mem_append] at hm
        rcases hm with hold | hadded
        · exact Or.inl hold
        · exact Or.inr (hnew m hadded).1
      · simp only [Function.update_of_ne hk] at hm
        exact Or.inl hm
  | forward hqueue hr => exact h.forward hinv hqueue hr

/-- **Order agreement.**  In every run whose handlers send their writes in turn, every node receives
the writes of every shard in log order; hence any two nodes receive the writes they have in common
in the same order. -/
theorem writes_in_log_order {labels : List Label} {w : World}
    (hturns : Runs.Along (step J K) InTurn World.start labels)
    (h : Runs.exec (step J K) World.start labels = some w) :
    (∀ n s, (delivered n s w.sent).Pairwise (· < ·)) ∧
    ∀ n m s, (delivered n s w.sent).filter (· ∈ delivered m s w.sent) =
      (delivered m s w.sent).filter (· ∈ delivered n s w.sent) := by
  have hboth : Inv w ∧ Ordered w.core := by
    refine Runs.exec_inv_along (I := fun w => Inv w ∧ Ordered w.core) ?_
      ⟨Inv.start, Ordered.start⟩ hturns h
    rintro s l s' ⟨hI, hO⟩ hl hs
    exact ⟨step_inv hI hs, ordered_effect (step_effect hI.net hs) hI hl hO⟩
  have hinc := hboth.2.increasing
  refine ⟨hinc, ?_⟩
  intro n m s
  refine Lists.eq_of_increasing id ((hinc n s).filter _) ((hinc m s).filter _) ?_
  intro i
  simp only [List.mem_filter, decide_eq_true_eq]
  exact and_comm

/-- Two hands never hold one entry. -/
theorem HandlerInv.holds_unique {x : Core} (hinv : HandlerInv x) {c c' : Nat} {n : NodeId}
    {s : ShardId} {j : Nat} (h : x.Holds c n s j) (h' : x.Holds c' n s j) : c = c' := by
  obtain ⟨conn, p, hconn, _, hshard, hheld, hp⟩ := h
  obtain ⟨conn', q, hconn', _, hshard', hheld', hq⟩ := h'
  obtain ⟨prop, hprop, rfl⟩ := hinv.held c p hheld
  obtain ⟨prop', hprop', rfl⟩ := hinv.held c' q hheld'
  have hsame : prop.shard = prop'.shard := by
    rw [(hinv.held_shard hconn hheld hprop).2, (hinv.held_shard hconn' hheld' hprop').2, hshard,
      hshard']
  obtain rfl := hinv.unique p q prop prop' j hprop hprop' hsame hp hq
  rw [hprop, Option.some.injEq] at hprop'
  rw [hprop']

/-- Node 1 sends in turn, and receives the two writes in log order. -/
theorem ordered_on_node1 :
    ∃ w, Runs.exec (step commandJson snapshotJson) World.start (twoWrites ++ sendOnNode1) = some w ∧
      delivered 1 0 w.sent = [0, 1] ∧ (delivered 1 0 w.sent).Pairwise (· < ·) := by
  obtain ⟨w, h, hdelivered⟩ : ∃ w,
      Runs.exec (step commandJson snapshotJson) World.start (twoWrites ++ sendOnNode1) = some w ∧
      delivered 1 0 w.sent = [0, 1] := Runs.exists_exec (by decide +kernel)
  refine ⟨w, h, hdelivered, (writes_in_log_order ?_ h).1 1 0⟩
  refine Runs.Along.append (Runs.along_of_forall (by simp [twoWrites, connect, InTurn]))
    fun t ht => ⟨fun conn i hconn hi => ?_, fun u _ => Runs.along_of_forall
      (by simp [startForwarder, InTurn])⟩
  -- the handler of connection 1 holds entry 0, and node 1 has applied nothing yet
  obtain ⟨hheld, hentry, hnode, happlied, hfirst⟩ : (t.pc 1).holds = some 1 ∧ t.entry 1 = some 0 ∧
      t.conns 1 = some ⟨1, "/database/subscribe/m", 0⟩ ∧ (t.state (1, 0)).applied = 0 ∧
      (t.log 0)[0]? = some ⟨⟨⟨1, 1⟩, 0⟩, .normal ⟨[3, 1], 1⟩⟩ :=
    Runs.exec_check (P := fun t => (t.pc 1).holds = some 1 ∧ t.entry 1 = some 0 ∧
      t.conns 1 = some ⟨1, "/database/subscribe/m", 0⟩ ∧ (t.state (1, 0)).applied = 0 ∧
      (t.log 0)[0]? = some ⟨⟨⟨1, 1⟩, 0⟩, .normal ⟨[3, 1], 1⟩⟩) ht (by decide +kernel)
  rw [hconn, Option.some.injEq] at hnode
  subst hnode
  obtain rfl : i = 0 := by
    obtain ⟨_, p, _, _, _, hp, hi⟩ := hi
    obtain rfl : 1 = p := Option.some.inj (hheld.symm.trans hp)
    exact Option.some.inj (hi.symm.trans hentry)
  refine ⟨?_, ?_⟩
  · intro j hj
    obtain ⟨e, m, he, hforward, horigin⟩ := hj
    have hpos : 0 < j := by
      rcases Nat.eq_zero_or_pos j with rfl | hpos
      · rw [show t.core.log = t.log from rfl, hfirst, Option.some.injEq] at he
        subst he
        cases hforward
        exact absurd rfl horigin
      · exact hpos
    exact iff_of_true ⟨e, m, he, hforward, horigin,
      Or.inl (Nat.le_trans (Nat.le_of_eq happlied) (Nat.zero_le j))⟩ hpos
  · intro c' j hne hheld'
    rcases Nat.eq_zero_or_pos j with rfl | hpos
    · exact absurd ((exec_inv ht).handlers.holds_unique hheld' hi) hne
    · exact hpos

/-- Node 2's handler sends the second write before its forwarder sends the first. -/
def sendOnNode2 : List Label :=
  List.flatten
    [[.send 2 true, .apply 2 0 2], startForwarder 2, [.forward 2 0 (.recv true)]]

/-- **Two nodes receive two writes in opposite orders.**  No step of the run fails. -/
theorem crossed_writes :
    ∃ w, Runs.exec (step commandJson snapshotJson) World.start
        (twoWrites ++ (sendOnNode2 ++ sendOnNode1)) = some w ∧
      delivered 1 0 w.sent = [0, 1] ∧ delivered 2 0 w.sent = [1, 0] :=
  Runs.exists_exec (by decide +kernel)

end RaftTimeDB.Cluster
