import RaftTimeDB.Effects
import RaftTimeDB.JsonFormats

/-!
# Integrity of write delivery

Two senders feed each SpacetimeDB: handlers, for the writes of their own clients, and the forwarder,
for the writes of other nodes.  `HandlerInv` and `ForwarderInv` say what each of them has sent and
may still send; every effect of a move keeps them.

`write_integrity` — every write that reaches a SpacetimeDB is the raw message of a committed entry
of its shard, no entry reaches a node twice, handlers send only entries of their own node and
forwarders only entries of others.
-/

set_option autoImplicit false

namespace RaftTimeDB.Cluster

open JsonFormats (commandJson snapshotJson)

variable {J : CommandJson} {K : SnapshotCodec}

/-- The log index of a write of `sender` for a node and a shard. -/
def Delivery.entryBy (sender : Sender) (n : NodeId) (s : ShardId) (d : Delivery) : Option Nat :=
  if d.sender = sender ∧ d.node = n ∧ d.shard = s then d.entry else none

/-- Log indices of the writes `sender` has sent for a node and a shard, in order. -/
def sentBy (sender : Sender) (n : NodeId) (s : ShardId) (sent : List Delivery) : List Nat :=
  sent.filterMap (Delivery.entryBy sender n s)

theorem mem_sentBy {sent : List Delivery} {sender : Sender} {n : NodeId} {s : ShardId} {i : Nat} :
    i ∈ sentBy sender n s sent ↔
      ∃ d ∈ sent, d.sender = sender ∧ d.node = n ∧ d.shard = s ∧ d.entry = some i := by
  simp only [sentBy, List.mem_filterMap, Delivery.entryBy]
  constructor
  · rintro ⟨d, hd, h⟩
    split at h
    · rename_i hguard
      exact ⟨d, hd, hguard.1, hguard.2.1, hguard.2.2, h⟩
    · cases h
  · rintro ⟨d, hd, hsender, hnode, hshard, hentry⟩
    exact ⟨d, hd, by rw [if_pos ⟨hsender, hnode, hshard⟩, hentry]⟩

/-! ## Handlers -/

structure HandlerInv (x : Core) : Prop where
  /-- an inbound loop holds only its own proposals -/
  held : ∀ c p, (x.pc c).holds = some p → ∃ prop, x.props p = some prop ∧ prop.conn = c
  /-- what is about to be sent upstream may be sent -/
  sending : ∀ c msg q, x.pc c = .sending msg q → SendOk x msg q
  conn : ∀ p prop, x.props p = some prop →
    ∃ conn, x.conns prop.conn = some conn ∧ conn.node = prop.node ∧ conn.shard = prop.shard
  entry : ∀ p prop i, x.props p = some prop → x.entry p = some i →
    ∃ e : Entry, (x.log prop.shard)[i]? = some e ∧
      e.payload = .normal (proposeRequest prop.node prop.data)
  unique : ∀ p q prop prop' i, x.props p = some prop → x.props q = some prop' →
    prop.shard = prop'.shard → x.entry p = some i → x.entry q = some i → p = q
  /-- a write that was sent belongs to a proposal that is no longer held -/
  write : ∀ d ∈ x.sent, d.sender = .handler → ∀ i, d.entry = some i →
    ∃ p prop, x.props p = some prop ∧ x.entry p = some i ∧ prop.node = d.node ∧
      prop.shard = d.shard ∧ d.message = .binary prop.data ∧
      (x.pc prop.conn).holds ≠ some p
  plain : ∀ d ∈ x.sent, d.sender = .handler → d.entry = none → classifyMessage d.message ≠ .write
  once : ∀ n s, (sentBy .handler n s x.sent).Nodup

theorem HandlerInv.start : HandlerInv World.start.core := by
  refine ⟨fun c p h => ?_, fun c msg q h => ?_, fun p prop h => ?_, fun p prop i h => ?_,
    fun p q prop prop' i h => ?_, fun d h => ?_, fun d h => ?_, fun n s => List.nodup_nil⟩ <;>
  cases h

theorem SendOk.mono {x x' : Core} {msg : Message} {q : Option Nat} (h : SendOk x msg q)
    (hprops : ∀ p prop, x.props p = some prop → x'.props p = some prop)
    (hentry : ∀ p i, x.entry p = some i → x'.entry p = some i) : SendOk x' msg q := by
  cases q with
  | none => exact h
  | some p =>
    obtain ⟨prop, i, hprop, hi, hmsg⟩ := h
    exact ⟨prop, i, hprops p prop hprop, hentry p i hi, hmsg⟩

/-- An inbound loop moves on, with what it has in hand or without. -/
theorem HandlerInv.setPc {x : Core} (hinv : HandlerInv x) {c : Nat} {pc : InboundPc}
    (hholds : pc.holds = none ∨ pc.holds = (x.pc c).holds)
    (hsend : ∀ msg q, pc = .sending msg q → SendOk x msg q) :
    HandlerInv { x with pc := Function.update x.pc c pc } := by
  have hsub : ∀ c' p, (Function.update x.pc c pc c').holds = some p →
      (x.pc c').holds = some p := by
    intro c' p h
    by_cases hc : c' = c
    · subst hc
      simp only [Function.update_self] at h
      rcases hholds with hnone | hsame
      · rw [hnone] at h
        cases h
      · rwa [← hsame]
    · simpa only [Function.update_of_ne hc] using h
  refine ⟨fun c' p h => hinv.held c' p (hsub c' p h), ?_, hinv.conn, hinv.entry,
    hinv.unique, ?_, hinv.plain, hinv.once⟩
  · intro c' msg q h
    by_cases hc : c' = c
    · subst hc
      simp only [Function.update_self] at h
      exact hsend msg q h
    · simp only [Function.update_of_ne hc] at h
      exact hinv.sending c' msg q h
  · intro d hd hsender i hi
    obtain ⟨p, prop, hprop, hentry, hnode, hshard, hmsg, hfree⟩ := hinv.write d hd hsender i hi
    exact ⟨p, prop, hprop, hentry, hnode, hshard, hmsg, fun h => hfree (hsub _ p h)⟩

/-- A proposal in use belongs to a connection in use. -/
theorem HandlerInv.conn_ne {x : Core} (hinv : HandlerInv x) {c p : Nat} {prop : Proposal}
    (hnew : x.conns c = none) (hprop : x.props p = some prop) : prop.conn ≠ c := by
  intro heq
  obtain ⟨conn, hconn, _⟩ := hinv.conn p prop hprop
  rw [heq, hnew] at hconn
  cases hconn

theorem HandlerInv.accept {x : Core} (hinv : HandlerInv x) {c : Nat} (hnew : x.conns c = none)
    (conn : Conn) :
    HandlerInv { x with
      conns := Function.update x.conns c (some conn)
      pc := Function.update x.pc c .routed } := by
  have hpc : HandlerInv { x with pc := Function.update x.pc c .routed } :=
    hinv.setPc (Or.inl rfl) (fun msg q h => by cases h)
  refine ⟨hpc.held, hpc.sending, ?_, hpc.entry, hpc.unique, hpc.write, hpc.plain, hpc.once⟩
  intro p prop hprop
  obtain ⟨conn', hconn', hnode, hshard⟩ := hinv.conn p prop hprop
  refine ⟨conn', ?_, hnode, hshard⟩
  simp only [Function.update_of_ne (hinv.conn_ne hnew hprop)]
  exact hconn'

theorem HandlerInv.propose {x : Core} (hinv : HandlerInv x) {c p : Nat} {conn : Conn}
    {data : Bytes} (hconn : x.conns c = some conn) (hpc : x.pc c = .idle)
    (hnew : x.props p = none) (hentry : x.entry p = none) :
    HandlerInv { x with
      pc := Function.update x.pc c (.clientWrite p)
      props := Function.update x.props p (some ⟨c, conn.node, conn.shard, data⟩) } := by
  have hold : ∀ q prop, x.props q = some prop →
      Function.update x.props p (some ⟨c, conn.node, conn.shard, data⟩) q = some prop := by
    intro q prop hq
    have hne : q ≠ p := by
      rintro rfl
      rw [hnew] at hq
      cases hq
    rw [Function.update_of_ne hne]
    exact hq
  -- a proposal with an entry is an old one
  have hprev : ∀ q prop i,
      Function.update x.props p (some ⟨c, conn.node, conn.shard, data⟩) q = some prop →
      x.entry q = some i → x.props q = some prop := by
    intro q prop i hq hi
    have hne : q ≠ p := by
      rintro rfl
      rw [hentry] at hi
      cases hi
    rwa [Function.update_of_ne hne] at hq
  refine ⟨?_, ?_, ?_, ?_, ?_, ?_, hinv.plain, hinv.once⟩
  · intro c' q h
    by_cases hc : c' = c
    · subst hc
      simp only [Function.update_self] at h
      cases h
      exact ⟨_, Function.update_self .., rfl⟩
    · simp only [Function.update_of_ne hc] at h
      obtain ⟨prop, hprop, hpropconn⟩ := hinv.held c' q h
      exact ⟨prop, hold q prop hprop, hpropconn⟩
  · intro c' msg q h
    by_cases hc : c' = c
    · subst hc
      simp only [Function.update_self] at h
      cases h
    · simp only [Function.update_of_ne hc] at h
      exact (hinv.sending c' msg q h).mono hold fun _ _ hi => hi
  · intro q prop hq
    by_cases hqp : q = p
    · subst hqp
      simp only [Function.update_self, Option.some.injEq] at hq
      subst hq
      exact ⟨conn, hconn, rfl, rfl⟩
    · simp only [Function.update_of_ne hqp] at hq
      exact hinv.conn q prop hq
  · intro q prop i hq hi
    exact hinv.entry q prop i (hprev q prop i hq hi) hi
  · intro q q' prop prop' i hq hq' hshard hi hi'
    exact hinv.unique q q' prop prop' i (hprev q prop i hq hi) (hprev q' prop' i hq' hi') hshard
      hi hi'
  · intro d hd hsender i hi
    obtain ⟨q, prop, hprop, hqentry, hnode, hshard, hmsg, hfree⟩ := hinv.write d hd hsender i hi
    refine ⟨q, prop, hold q prop hprop, hqentry, hnode, hshard, hmsg, ?_⟩
    intro hheld
    by_cases hc : prop.conn = c
    · simp only [hc, Function.update_self, InboundPc.holds, Option.some.injEq] at hheld
      subst hheld
      rw [hnew] at hprop
      cases hprop
    · simp only [Function.update_of_ne hc] at hheld
      exact hfree hheld

theorem sentBy_snoc {sent : List Delivery} {sender : Sender} {n : NodeId} {s : ShardId}
    {d : Delivery} :
    sentBy sender n s (sent ++ [d]) = sentBy sender n s sent ++ (d.entryBy sender n s).toList := by
  cases h : d.entryBy sender n s <;> simp [sentBy, h]

theorem entryBy_eq_some {sender : Sender} {n : NodeId} {s : ShardId} {d : Delivery} {i : Nat}
    (h : d.entryBy sender n s = some i) :
    d.sender = sender ∧ d.node = n ∧ d.shard = s ∧ d.entry = some i := by
  unfold Delivery.entryBy at h
  split at h
  · rename_i hguard
    exact ⟨hguard.1, hguard.2.1, hguard.2.2, h⟩
  · cases h

/-- A handler sends what it has in hand and goes on without it. -/
theorem HandlerInv.send {x : Core} (hinv : HandlerInv x) {c : Nat} {conn : Conn} {msg : Message}
    {q : Option Nat} (hconn : x.conns c = some conn) (hpc : x.pc c = .sending msg q) :
    HandlerInv { x with
      pc := Function.update x.pc c .idle
      sent := x.sent ++ [⟨conn.node, conn.shard, .handler, conn.path, msg, q.bind x.entry⟩] } := by
  have hsend := hinv.sending c msg q hpc
  have hset : HandlerInv { x with pc := Function.update x.pc c .idle } :=
    hinv.setPc (Or.inl rfl) (fun msg q h => by cases h)
  -- the proposal of a write, as the delivery shows it
  have hwrite : ∀ i, q.bind x.entry = some i →
      ∃ p prop, q = some p ∧ x.props p = some prop ∧ x.entry p = some i ∧
        prop.node = conn.node ∧ prop.shard = conn.shard ∧ msg = .binary prop.data ∧
        prop.conn = c := by
    intro i hi
    cases q with
    | none => cases hi
    | some p =>
      obtain ⟨prop, _, hprop, _, hmsg⟩ := hsend
      obtain ⟨prop', hprop', hown⟩ := hinv.held c p (by rw [hpc]; rfl)
      rw [hprop, Option.some.injEq] at hprop'
      subst hprop'
      obtain ⟨conn', hconn', hnode, hshard⟩ := hinv.conn p prop hprop
      rw [hown, hconn, Option.some.injEq] at hconn'
      subst hconn'
      exact ⟨p, prop, rfl, hprop, hi, hnode.symm, hshard.symm, hmsg, hown⟩
  refine ⟨hset.held, hset.sending, hinv.conn, hinv.entry, hinv.unique, ?_, ?_, ?_⟩
  · intro d hd hsender i hi
    rcases List.mem_append.mp hd with hold | hnew
    · exact hset.write d hold hsender i hi
    · rw [List.mem_singleton] at hnew
      subst hnew
      obtain ⟨p, prop, rfl, hprop, hentry, hnode, hshard, hmsg, hown⟩ := hwrite i hi
      refine ⟨p, prop, hprop, hentry, hnode, hshard, hmsg, ?_⟩
      simp [hown, InboundPc.holds]
  · intro d hd hsender hi
    rcases List.mem_append.mp hd with hold | hnew
    · exact hinv.plain d hold hsender hi
    · rw [List.mem_singleton] at hnew
      subst hnew
      cases q with
      | none => exact hsend
      | some p =>
        obtain ⟨_, i, _, hentry, _⟩ := hsend
        simp [hentry] at hi
  · intro n s
    rw [sentBy_snoc]
    cases hkey : Delivery.entryBy .handler n s
        ⟨conn.node, conn.shard, .handler, conn.path, msg, q.bind x.entry⟩ with
    | none => simpa using hinv.once n s
    | some i =>
      obtain ⟨_, rfl, rfl, hi⟩ := entryBy_eq_some hkey
      refine List.nodup_append.mpr ⟨hinv.once _ _, by simp, fun j hj k hk heq => ?_⟩
      simp only [Option.toList_some, List.mem_singleton] at hk
      subst hk
      subst heq
      -- an earlier delivery of the same entry is one of the same proposal, which is still held
      obtain ⟨p, prop, rfl, hprop, hentry, hnode, hshard, _, hown⟩ := hwrite j hi
      obtain ⟨d, hd, hsender, hdnode, hdshard, hdentry⟩ := mem_sentBy.mp hj
      obtain ⟨p', prop', hprop', hentry', hnode', hshard', _, hfree⟩ :=
        hinv.write d hd hsender j hdentry
      obtain rfl : p = p' := by
        refine hinv.unique p p' prop prop' j hprop hprop' ?_ hentry hentry'
        rw [hshard, hshard', hdshard]
      rw [hprop, Option.some.injEq] at hprop'
      subst hprop'
      rw [hown, hpc] at hfree
      exact hfree rfl

/-- A committed entry lies below the end of the log. -/
theorem HandlerInv.entry_lt {x : Core} (hinv : HandlerInv x) {p i : Nat} {prop : Proposal}
    (hprop : x.props p = some prop) (hi : x.entry p = some i) : i < (x.log prop.shard).length := by
  obtain ⟨e, he, _⟩ := hinv.entry p prop i hprop hi
  exact (List.getElem?_eq_some_iff.mp he).1

/-- What handlers have sent is in the log. -/
theorem HandlerInv.sent_lt {x : Core} (hinv : HandlerInv x) {n : NodeId} {s : ShardId} {i : Nat}
    (h : i ∈ sentBy .handler n s x.sent) : i < (x.log s).length := by
  obtain ⟨d, hd, hsender, _, hshard, hentry⟩ := mem_sentBy.mp h
  obtain ⟨p, prop, hprop, hi, _, hpshard, _⟩ := hinv.write d hd hsender i hentry
  rw [← hshard, ← hpshard]
  exact hinv.entry_lt hprop hi

theorem HandlerInv.append {x : Core} (hinv : HandlerInv x) (s : ShardId) (leaderId : LeaderId)
    (payload : EntryPayload) :
    HandlerInv { x with log := appendEntry x.log s leaderId payload } := by
  refine ⟨hinv.held, hinv.sending, hinv.conn, ?_, hinv.unique, hinv.write, hinv.plain, hinv.once⟩
  intro p prop i hprop hi
  obtain ⟨e, he, hpayload⟩ := hinv.entry p prop i hprop hi
  exact ⟨e, appendEntry_old he, hpayload⟩

theorem HandlerInv.commit {x : Core} (hinv : HandlerInv x) {p : Nat} {prop : Proposal}
    (hprop : x.props p = some prop) (hentry : x.entry p = none) (leaderId : LeaderId) :
    HandlerInv { x with
      log := appendEntry x.log prop.shard leaderId (.normal (proposeRequest prop.node prop.data))
      entry := Function.update x.entry p (some (x.log prop.shard).length) } := by
  have hold : ∀ q i, x.entry q = some i →
      Function.update x.entry p (some (x.log prop.shard).length) q = some i := by
    intro q i hq
    have hne : q ≠ p := by
      rintro rfl
      rw [hentry] at hq
      cases hq
    rw [Function.update_of_ne hne]
    exact hq
  -- an entry is the new one or an old one below it
  have hcases : ∀ q prop' i, x.props q = some prop' →
      Function.update x.entry p (some (x.log prop.shard).length) q = some i →
      (q = p ∧ prop' = prop ∧ i = (x.log prop.shard).length) ∨
        (x.entry q = some i ∧ i < (x.log prop'.shard).length) := by
    intro q prop' i hq hi
    by_cases hqp : q = p
    · subst hqp
      rw [Function.update_self, Option.some.injEq] at hi
      rw [hprop, Option.some.injEq] at hq
      exact Or.inl ⟨rfl, hq.symm, hi.symm⟩
    · rw [Function.update_of_ne hqp] at hi
      exact Or.inr ⟨hi, hinv.entry_lt hq hi⟩
  refine ⟨hinv.held, fun c msg q h => (hinv.sending c msg q h).mono (fun _ _ h => h) hold,
    hinv.conn, ?_, ?_, ?_, hinv.plain, hinv.once⟩
  · intro q prop' i hq hi
    rcases hcases q prop' i hq hi with ⟨_, rfl, rfl⟩ | ⟨hi, _⟩
    · exact ⟨_, appendEntry_new .., rfl⟩
    · obtain ⟨e, he, hpayload⟩ := hinv.entry q prop' i hq hi
      exact ⟨e, appendEntry_old he, hpayload⟩
  · intro q q' prop₁ prop₂ i hq hq' hshard hi hi'
    rcases hcases q prop₁ i hq hi with ⟨hqp, hp₁, hin⟩ | ⟨hio, hlt⟩ <;>
    rcases hcases q' prop₂ i hq' hi' with ⟨hqp', hp₂, hin'⟩ | ⟨hio', hlt'⟩
    · rw [hqp, hqp']
    · rw [← hshard, hp₁] at hlt'
      omega
    · rw [hshard, hp₂] at hlt
      omega
    · exact hinv.unique q q' prop₁ prop₂ i hq hq' hshard hio hio'
  · intro d hd hsender i hi
    obtain ⟨q, prop', hq, hi', hrest⟩ := hinv.write d hd hsender i hi
    exact ⟨q, prop', hq, hold q i hi', hrest⟩

/-- Deliveries of a forwarder are none of the handlers' business. -/
theorem HandlerInv.deliver {x : Core} (hinv : HandlerInv x) {ds : List Delivery}
    (hds : ∀ d ∈ ds, d.sender = .forwarder) : HandlerInv { x with sent := x.sent ++ ds } := by
  have hmem : ∀ d ∈ x.sent ++ ds, d.sender = .handler → d ∈ x.sent := by
    intro d hd hsender
    rcases List.mem_append.mp hd with hold | hnew
    · exact hold
    · rw [hds d hnew] at hsender
      cases hsender
  refine ⟨hinv.held, hinv.sending, hinv.conn, hinv.entry, hinv.unique,
    fun d hd hsender => hinv.write d (hmem d hd hsender) hsender,
    fun d hd hsender => hinv.plain d (hmem d hd hsender) hsender, ?_⟩
  intro n s
  have hnone : ds.filterMap (Delivery.entryBy .handler n s) = [] := by
    refine List.filterMap_eq_nil_iff.mpr ?_
    intro d hd
    simp [Delivery.entryBy, hds d hd]
  simpa [sentBy, List.filterMap_append, hnone] using hinv.once n s

/-- Handlers do not look at shard states. -/
theorem HandlerInv.setState {x : Core} (hinv : HandlerInv x)
    (state : NodeId × ShardId → ShardState) : HandlerInv { x with state := state } :=
  ⟨hinv.held, hinv.sending, hinv.conn, hinv.entry, hinv.unique, hinv.write, hinv.plain, hinv.once⟩

/-- **Every effect keeps the handlers' side.** -/
theorem handler_effect {w : World} {l : Label} {x : Core} (heff : Effect w l x)
    (hinv : HandlerInv w.core) : HandlerInv x := by
  cases heff with
  | frame => exact hinv
  | accept hnew => exact hinv.accept hnew _
  | broadcast hconn hpc =>
    exact (hinv.setPc (Or.inl rfl) (fun msg q h => by cases h)).setState _
  | keep _ _ _ hholds hsend => exact hinv.setPc (Or.inr hholds) hsend
  | drop _ _ hpc =>
    refine hinv.setPc (Or.inl ?_) ?_
    · rcases hpc with rfl | rfl <;> rfl
    · intro msg q h
      rcases hpc with rfl | rfl <;> cases h
  | propose hconn hpc hnew hentry _ => exact hinv.propose hconn hpc hnew hentry
  | send hconn hpc => exact hinv.send hconn hpc
  | commit hprop hentry => exact hinv.commit hprop hentry _
  | commitOther _ => exact hinv.append _ _ _
  | advance _ _ _ => exact hinv.setState _
  | forward hqueue hr =>
    refine (hinv.deliver ?_).setState _
    intro d hd
    obtain ⟨m, _, rfl⟩ := List.mem_map.mp hd
    rfl

/-! ## Forwarders -/

/-- Log indices of what a forwarder has sent, followed by what is on its channel. -/
def Core.handed (x : Core) (n : NodeId) (s : ShardId) : List Nat :=
  sentBy .forwarder n s x.sent ++ (x.state (n, s)).queue.map (·.logIndex)

structure ForwarderInv (x : Core) : Prop where
  increasing : ∀ n s, (x.handed n s).Pairwise (· < ·)
  behind : ∀ n s, ∀ i ∈ x.handed n s, i < (x.state (n, s)).applied
  queued : ∀ n s, ∀ m ∈ (x.state (n, s)).queue,
    ∃ e : Entry, (x.log s)[m.logIndex]? = some e ∧ e.forward? = some m
  sent : ∀ d ∈ x.sent, d.sender = .forwarder → ∃ (m : ForwarderMsg) (e : Entry),
    d.entry = some m.logIndex ∧ d.message = .binary m.rawMessage ∧
      (x.log d.shard)[m.logIndex]? = some e ∧ e.forward? = some m ∧ m.originNodeId ≠ d.node

theorem ForwarderInv.start : ForwarderInv World.start.core := by
  refine ⟨fun n s => List.Pairwise.nil, fun n s i h => ?_, fun n s m h => ?_, fun d h => ?_⟩ <;>
  cases h

/-- Forwarders look at their shard states, the logs and their own deliveries only. -/
theorem ForwarderInv.congr {x x' : Core} (hinv : ForwarderInv x) (hlog : x'.log = x.log)
    (hqueue : ∀ k, (x'.state k).queue = (x.state k).queue)
    (happlied : ∀ k, (x'.state k).applied = (x.state k).applied)
    (hsent : ∀ d, d.sender = .forwarder → (d ∈ x'.sent ↔ d ∈ x.sent))
    (hby : ∀ n s, sentBy .forwarder n s x'.sent = sentBy .forwarder n s x.sent) :
    ForwarderInv x' := by
  have hhanded : ∀ n s, x'.handed n s = x.handed n s := by
    intro n s
    rw [Core.handed, Core.handed, hby, hqueue]
  refine ⟨?_, ?_, ?_, ?_⟩
  · intro n s
    rw [hhanded]
    exact hinv.increasing n s
  · intro n s i hi
    rw [hhanded] at hi
    rw [happlied]
    exact hinv.behind n s i hi
  · intro n s m hm
    rw [hqueue] at hm
    rw [hlog]
    exact hinv.queued n s m hm
  · intro d hd hsender
    rw [hlog]
    exact hinv.sent d ((hsent d hsender).mp hd) hsender

/-- A change to what one node hands on of one shard. -/
theorem ForwarderInv.update {x x' : Core} (hinv : ForwarderInv x) {n : NodeId} {s : ShardId}
    (hlog : x'.log = x.log) (hstate : ∀ k, k ≠ (n, s) → x'.state k = x.state k)
    (hhanded : ∀ n' s', (n', s') ≠ (n, s) → x'.handed n' s' = x.handed n' s')
    (hincreasing : (x'.handed n s).Pairwise (· < ·))
    (hbehind : ∀ i ∈ x'.handed n s, i < (x'.state (n, s)).applied)
    (hqueued : ∀ m ∈ (x'.state (n, s)).queue,
      ∃ e : Entry, (x.log s)[m.logIndex]? = some e ∧ e.forward? = some m)
    (hsent : ∀ d ∈ x'.sent, d.sender = .forwarder → ∃ (m : ForwarderMsg) (e : Entry),
      d.entry = some m.logIndex ∧ d.message = .binary m.rawMessage ∧
        (x.log d.shard)[m.logIndex]? = some e ∧ e.forward? = some m ∧ m.originNodeId ≠ d.node) :
    ForwarderInv x' := by
  refine ⟨?_, ?_, ?_, hlog ▸ hsent⟩
  · intro n' s'
    by_cases hk : (n', s') = (n, s)
    · obtain ⟨rfl, rfl⟩ := Prod.mk.inj hk
      exact hincreasing
    · rw [hhanded n' s' hk]
      exact hinv.increasing n' s'
  · intro n' s' i hi
    by_cases hk : (n', s') = (n, s)
    · obtain ⟨rfl, rfl⟩ := Prod.mk.inj hk
      exact hbehind i hi
    · rw [hhanded n' s' hk] at hi
      rw [hstate _ hk]
      exact hinv.behind n' s' i hi
  · intro n' s' m hm
    rw [hlog]
    by_cases hk : (n', s') = (n, s)
    · obtain ⟨rfl, rfl⟩ := Prod.mk.inj hk
      exact hqueued m hm
    · rw [hstate _ hk] at hm
      exact hinv.queued n' s' m hm

theorem ForwarderInv.append {x : Core} (hinv : ForwarderInv x) (s : ShardId) (leaderId : LeaderId)
    (payload : EntryPayload) :
    ForwarderInv { x with log := appendEntry x.log s leaderId payload } := by
  refine ⟨hinv.increasing, hinv.behind, ?_, ?_⟩
  · intro n s' m hm
    obtain ⟨e, he, hforward⟩ := hinv.queued n s' m hm
    exact ⟨e, appendEntry_old he, hforward⟩
  · intro d hd hsender
    obtain ⟨m, e, hentry, hmsg, he, hforward⟩ := hinv.sent d hd hsender
    exact ⟨m, e, hentry, hmsg, appendEntry_old he, hforward⟩

theorem ForwarderInv.advance {x : Core} (hinv : ForwarderInv x) {n : NodeId} {s : ShardId}
    {st : ShardState} (hst : Advance (x.log s) (x.state (n, s)) st) :
    ForwarderInv { x with state := Function.update x.state (n, s) st } := by
  obtain ⟨new, hqueue, hnew, hmem⟩ := hst.queue
  have hhanded : (Core.handed { x with state := Function.update x.state (n, s) st } n s) =
      x.handed n s ++ new.map (·.logIndex) := by
    simp [Core.handed, sentBy, hqueue]
  have hother : ∀ n' s', (n', s') ≠ (n, s) →
      Core.handed { x with state := Function.update x.state (n, s) st } n' s' = x.handed n' s' := by
    intro n' s' hne
    simp [Core.handed, sentBy, Function.update_of_ne hne]
  refine hinv.update rfl (fun k hk => Function.update_of_ne hk _ _) hother ?_ ?_ ?_ hinv.sent
  · rw [hhanded]
    refine List.pairwise_append.mpr ⟨hinv.increasing _ _, hnew, ?_⟩
    intro i hi j hj
    obtain ⟨m, hm, rfl⟩ := List.mem_map.mp hj
    exact Nat.lt_of_lt_of_le (hinv.behind _ _ i hi) (hmem m hm).1
  · intro i hi
    rw [hhanded, List.mem_append] at hi
    simp only [Function.update_self]
    rcases hi with hold | hadded
    · exact Nat.lt_of_lt_of_le (hinv.behind _ _ i hold) hst.applied
    · obtain ⟨m, hm, rfl⟩ := List.mem_map.mp hadded
      exact (hmem m hm).2.1
  · intro m hm
    simp only [Function.update_self, hqueue, List.mem_append] at hm
    rcases hm with hold | hadded
    · exact hinv.queued _ _ m hold
    · exact (hmem m hadded).2.2

/-- The state of a shard after a forwarder event. -/
abbrev ShardState.after (st : ShardState) (r : ForwarderResult) : ShardState :=
  ⟨{ st.stateMachine with forwarder := some r.queue }, r.task⟩

/-- What a forwarder event sends to SpacetimeDB. -/
abbrev deliveries (n : NodeId) (s : ShardId) (r : ForwarderResult) : List Delivery :=
  r.sent.toList.map fun m =>
    ⟨n, s, .forwarder, m.1, .binary m.2.rawMessage, some m.2.logIndex⟩

theorem entryBy_deliveries {n n' : NodeId} {s s' : ShardId} {r : ForwarderResult} :
    (deliveries n s r).filterMap (Delivery.entryBy .forwarder n' s') =
      if n = n' ∧ s = s' then r.sent.toList.map (·.2.logIndex) else [] := by
  cases h : r.sent with
  | none => simp [h]
  | some m =>
    by_cases hk : n = n' ∧ s = s'
    · simp [h, Delivery.entryBy, hk]
    · simp [h, Delivery.entryBy, hk]

theorem ForwarderInv.forward {x : Core} (hinv : ForwarderInv x) {n : NodeId} {s : ShardId}
    {event : ForwarderEvent} {queue : List ForwarderMsg} {r : ForwarderResult}
    (hqueue : (x.state (n, s)).stateMachine.forwarder = some queue)
    (hr : (x.state (n, s)).task.step n queue event = some r) :
    ForwarderInv { x with
      state := Function.update x.state (n, s) ((x.state (n, s)).after r)
      sent := x.sent ++ deliveries n s r } := by
  have hqueue' : (x.state (n, s)).queue = queue := by simp [ShardState.queue, hqueue]
  have hcases := Forwarder.step_queue hr
  have hself : List.Sublist (Core.handed { x with
      state := Function.update x.state (n, s) ((x.state (n, s)).after r)
      sent := x.sent ++ deliveries n s r } n s) (x.handed n s) := by
    simp only [Core.handed, sentBy, List.filterMap_append, entryBy_deliveries, and_self,
      if_true, Function.update_self, hqueue', List.append_assoc]
    refine List.Sublist.append_left ?_ _
    rcases hcases with ⟨hq, hsent⟩ | ⟨msg, hq, hsent | ⟨dbPath, hsent, _⟩⟩
    · simp [ShardState.queue, hq, hsent]
    · simp [ShardState.queue, hq, hsent]
    · simp [ShardState.queue, hq, hsent]
  have hother : ∀ n' s', (n', s') ≠ (n, s) → Core.handed { x with
      state := Function.update x.state (n, s) ((x.state (n, s)).after r)
      sent := x.sent ++ deliveries n s r } n' s' = x.handed n' s' := by
    intro n' s' hne
    have hne' : ¬ (n = n' ∧ s = s') := by
      rintro ⟨rfl, rfl⟩
      exact hne rfl
    simp only [Core.handed, sentBy, List.filterMap_append, entryBy_deliveries, if_neg hne',
      Function.update_of_ne hne, List.append_nil]
  refine hinv.update rfl (fun k hk => Function.update_of_ne hk _ _) hother
    ((hinv.increasing _ _).sublist hself) ?_ ?_ ?_
  · intro i hi
    simp only [Function.update_self]
    exact hinv.behind _ _ i (hself.subset hi)
  · intro m hm
    simp only [Function.update_self] at hm
    refine hinv.queued n s m ?_
    rw [hqueue']
    rcases hcases with ⟨hq, _⟩ | ⟨msg, hq, _⟩
    · rw [← hq]
      exact hm
    · rw [hq]
      exact List.mem_cons_of_mem _ hm
  · intro d hd hsender
    rcases List.mem_append.mp hd with hold | hnew
    · exact hinv.sent d hold hsender
    · -- what is sent was the first message on the channel
      obtain ⟨m, hm, rfl⟩ := List.mem_map.mp hnew
      rw [Option.mem_toList] at hm
      rcases hcases with ⟨_, hsent⟩ | ⟨msg, hq, hsent | ⟨dbPath, hsent, horigin⟩⟩
      · rw [hsent] at hm
        cases hm
      · rw [hsent] at hm
        cases hm
      · rw [hsent] at hm
        cases hm
        obtain ⟨e, he, hforward⟩ := hinv.queued n s msg (by rw [hqueue', hq]; simp)
        exact ⟨msg, e, rfl, rfl, he, hforward, horigin⟩

/-- **Every effect keeps the forwarders' side.** -/
theorem forwarder_effect {w : World} {l : Label} {x : Core} (heff : Effect w l x)
    (hinv : ForwarderInv w.core) : ForwarderInv x := by
  cases heff with
  | frame => exact hinv
  | accept hnew =>
    exact hinv.congr rfl (fun _ => rfl) (fun _ => rfl) (fun _ _ => Iff.rfl) (fun _ _ => rfl)
  | @broadcast c conn hconn hpc =>
    refine hinv.congr rfl ?_ ?_ (fun _ _ => Iff.rfl) (fun _ _ => rfl)
    · intro k
      by_cases hk : k = (conn.node, conn.shard)
      · subst hk
        simp [ShardState.queue, World.core]
      · simp [Function.update_of_ne hk, World.core]
    · intro k
      by_cases hk : k = (conn.node, conn.shard)
      · subst hk
        simp [ShardState.applied, World.core]
      · simp [Function.update_of_ne hk, World.core]
  | keep _ _ _ _ _ =>
    exact hinv.congr rfl (fun _ => rfl) (fun _ => rfl) (fun _ _ => Iff.rfl) (fun _ _ => rfl)
  | drop _ _ _ =>
    exact hinv.congr rfl (fun _ => rfl) (fun _ => rfl) (fun _ _ => Iff.rfl) (fun _ _ => rfl)
  | propose _ _ _ _ _ =>
    exact hinv.congr rfl (fun _ => rfl) (fun _ => rfl) (fun _ _ => Iff.rfl) (fun _ _ => rfl)
  | send hconn hpc =>
    refine hinv.congr rfl (fun _ => rfl) (fun _ => rfl) (fun d hd => ?_)
      (fun n s => by simp [sentBy_snoc, Delivery.entryBy, World.core])
    rw [List.mem_append, List.mem_singleton]
    refine or_iff_left ?_
    intro heq
    rw [heq] at hd
    cases hd
  | commit hprop hentry =>
    exact (hinv.append _ _ _).congr rfl (fun _ => rfl) (fun _ => rfl) (fun _ _ => Iff.rfl)
      (fun _ _ => rfl)
  | commitOther _ => exact hinv.append _ _ _
  | advance _ _ hst => exact hinv.advance hst
  | forward hqueue hr => exact hinv.forward hqueue hr

/-! ## Both together -/

/-- The invariants of calls, handlers and forwarders. -/
structure Inv (w : World) : Prop where
  net : NetInv w
  handlers : HandlerInv w.core
  forwarders : ForwarderInv w.core

theorem Inv.start : Inv World.start := ⟨NetInv.start, HandlerInv.start, ForwarderInv.start⟩

theorem step_inv {w w' : World} {l : Label} (hinv : Inv w) (h : step J K w l = some w') :
    Inv w' := by
  have heff := step_effect hinv.net h
  exact ⟨net_step hinv.net h, handler_effect heff hinv.handlers,
    forwarder_effect heff hinv.forwarders⟩

theorem exec_inv {labels : List Label} {w : World}
    (h : Runs.exec (step J K) World.start labels = some w) : Inv w := by
  refine Runs.exec_inv ?_ Inv.start h
  intro s l s' hI hs
  exact step_inv hI hs

/-- The log index of a write for a node and a shard, whoever sends it. -/
def Delivery.entryFor (n : NodeId) (s : ShardId) (d : Delivery) : Option Nat :=
  if d.node = n ∧ d.shard = s then d.entry else none

/-- Log indices of the writes of a shard that reached the SpacetimeDB of a node, in order. -/
def delivered (n : NodeId) (s : ShardId) (sent : List Delivery) : List Nat :=
  sent.filterMap (Delivery.entryFor n s)

theorem forward?_origin {e : Entry} {m : ForwarderMsg} (h : e.forward? = some m) :
    e.payload = .normal ⟨m.rawMessage, m.originNodeId⟩ := by
  unfold Entry.forward? at h
  split at h
  · rename_i request hpayload
    split at h
    · cases h
    · cases h
      exact hpayload
  · cases h

/-- Entry `j` is a write of another node, which the forwarder of `n` does not skip. -/
def Core.Foreign (x : Core) (n : NodeId) (s : ShardId) (j : Nat) : Prop :=
  ∃ (e : Entry) (m : ForwarderMsg), (x.log s)[j]? = some e ∧ e.forward? = some m ∧
    m.originNodeId ≠ n

/-- A node's own writes are the ones its forwarder skips. -/
theorem HandlerInv.own_not_foreign {x : Core} (hinv : HandlerInv x) {p i : Nat} {prop : Proposal}
    (hprop : x.props p = some prop) (hi : x.entry p = some i) :
    ¬ x.Foreign prop.node prop.shard i := by
  obtain ⟨e, he, hpayload⟩ := hinv.entry p prop i hprop hi
  rintro ⟨e', m, he', hforward, horigin⟩
  rw [he', Option.some.injEq] at he
  subst he
  rw [forward?_origin hforward, EntryPayload.normal.injEq] at hpayload
  exact horigin (congrArg ReducerCallRequest.originNodeId hpayload)

/-- The shard of a held proposal is the shard of its connection. -/
theorem HandlerInv.held_shard {x : Core} (hinv : HandlerInv x) {c p : Nat} {conn : Conn}
    {prop : Proposal} (hconn : x.conns c = some conn) (hheld : (x.pc c).holds = some p)
    (hprop : x.props p = some prop) : prop.node = conn.node ∧ prop.shard = conn.shard := by
  obtain ⟨prop', hprop', hown⟩ := hinv.held c p hheld
  rw [hprop, Option.some.injEq] at hprop'
  subst hprop'
  obtain ⟨conn', hconn', hnode, hshard⟩ := hinv.conn p prop hprop
  rw [hown, hconn, Option.some.injEq] at hconn'
  subst hconn'
  exact ⟨hnode.symm, hshard.symm⟩

/-- The entry behind a write that was sent, with the origin rule of its sender. -/
theorem Inv.delivery {w : World} (hinv : Inv w) {d : Delivery} (hd : d ∈ w.sent) {i : Nat}
    (hi : d.entry = some i) :
    ∃ (e : Entry) (request : ReducerCallRequest), (w.log d.shard)[i]? = some e ∧
      e.payload = .normal request ∧ d.message = .binary request.rawMessage ∧
      (d.sender = .handler ↔ request.originNodeId = d.node) := by
  cases hsender : d.sender with
  | handler =>
    obtain ⟨p, prop, hprop, hentry, hnode, hshard, hmsg, _⟩ :=
      hinv.handlers.write d hd hsender i hi
    obtain ⟨e, he, hpayload⟩ := hinv.handlers.entry p prop i hprop hentry
    rw [hshard] at he
    exact ⟨e, _, he, hpayload, hmsg, iff_of_true rfl hnode⟩
  | forwarder =>
    obtain ⟨m, e, hentry, hmsg, he, hforward, horigin⟩ := hinv.forwarders.sent d hd hsender
    rw [hi, Option.some.injEq] at hentry
    subst hentry
    exact ⟨e, _, he, forward?_origin hforward, hmsg, iff_of_false (by simp) horigin⟩

/-- The origin of an entry picks its sender on a node. -/
theorem Inv.sender_eq {w : World} (hinv : Inv w) {a b : Delivery} (ha : a ∈ w.sent)
    (hb : b ∈ w.sent) (hnode : a.node = b.node) (hshard : a.shard = b.shard) {i : Nat}
    (hi : a.entry = some i) (hj : b.entry = some i) : a.sender = b.sender := by
  obtain ⟨e, request, he, hpayload, _, horigin⟩ := hinv.delivery ha hi
  obtain ⟨e', request', he', hpayload', _, horigin'⟩ := hinv.delivery hb hj
  rw [hshard, he', Option.some.injEq] at he
  subst he
  rw [hpayload, EntryPayload.normal.injEq] at hpayload'
  subst hpayload'
  rw [hnode, ← horigin'] at horigin
  cases ha' : a.sender <;> cases hb' : b.sender <;> simp [ha', hb'] at horigin ⊢

/-- No entry reaches a node twice: a sender never repeats itself, and two senders never share an
entry because its origin picks the sender. -/
theorem Inv.delivered_nodup {w : World} (hinv : Inv w) (n : NodeId) (s : ShardId) :
    (delivered n s w.sent).Nodup := by
  have hsender : ∀ sender, w.sent.Pairwise fun a b =>
      ∀ i, a.entryBy sender n s = some i → ∀ j, b.entryBy sender n s = some j → i ≠ j := by
    intro sender
    rw [← List.pairwise_filterMap]
    cases sender with
    | handler => exact hinv.handlers.once n s
    | forwarder =>
      have hinc := hinv.forwarders.increasing n s
      exact (hinc.sublist (List.sublist_append_left _ _)).imp Nat.ne_of_lt
  refine List.pairwise_filterMap.mpr ?_
  refine ((hsender .handler).and (hsender .forwarder)).imp_of_mem ?_
  rintro a b ha hb ⟨hhandler, hforwarder⟩ i hi j hj rfl
  unfold Delivery.entryFor at hi hj
  split at hi
  · rename_i haguard
    split at hj
    · rename_i hbguard
      have hsame : a.sender = b.sender := hinv.sender_eq ha hb (haguard.1.trans hbguard.1.symm)
        (haguard.2.trans hbguard.2.symm) hi hj
      cases hs : a.sender with
      | handler =>
        refine hhandler i ?_ i ?_ rfl
        · simp [Delivery.entryBy, hs, haguard, hi]
        · simp [Delivery.entryBy, ← hsame, hs, hbguard, hj]
      | forwarder =>
        refine hforwarder i ?_ i ?_ rfl
        · simp [Delivery.entryBy, hs, haguard, hi]
        · simp [Delivery.entryBy, ← hsame, hs, hbguard, hj]
    · cases hj
  · cases hi

/-- **Integrity of write delivery.**  After every run:

* every write that was sent to a SpacetimeDB is byte for byte the raw message of a committed entry
  of the shard;
* no committed entry was sent to a node twice, and each one was sent by a handler if it comes from
  the node and by the forwarder otherwise. -/
theorem write_integrity {labels : List Label} {w : World}
    (h : Runs.exec (step J K) World.start labels = some w) :
    (∀ d ∈ w.sent, classifyMessage d.message = .write →
      ∃ i, d.entry = some i ∧ ∃ (e : Entry) (request : ReducerCallRequest),
        (w.log d.shard)[i]? = some e ∧ e.payload = .normal request ∧
        d.message = .binary request.rawMessage) ∧
    (∀ n s, (delivered n s w.sent).Nodup) ∧
    (∀ d ∈ w.sent, ∀ i, d.entry = some i → ∃ (e : Entry) (request : ReducerCallRequest),
      (w.log d.shard)[i]? = some e ∧ e.payload = .normal request ∧
      (d.sender = .handler ↔ request.originNodeId = d.node)) := by
  have hinv := exec_inv h
  refine ⟨?_, hinv.delivered_nodup, ?_⟩
  · intro d hd hwrite
    cases hentry : d.entry with
    | none =>
      cases hsender : d.sender with
      | handler => exact absurd hwrite (hinv.handlers.plain d hd hsender hentry)
      | forwarder =>
        obtain ⟨m, _, hm, _⟩ := hinv.forwarders.sent d hd hsender
        rw [hentry] at hm
        cases hm
    | some i =>
      obtain ⟨e, request, he, hpayload, hmsg, _⟩ := hinv.delivery hd hentry
      exact ⟨i, rfl, e, request, he, hpayload, hmsg⟩
  · intro d hd i hi
    obtain ⟨e, request, he, hpayload, _, horigin⟩ := hinv.delivery hd hi
    exact ⟨e, request, he, hpayload, horigin⟩

/-! ### Two clients write to one shard -/

/-- A client connects. -/
def connect (c : Nat) (n : NodeId) (path : String) : List Label :=
  [.accept c n path, .broadcast c, .upstream c true]

/-- The forwarder of shard 0 on a node takes up a path and connects. -/
def startForwarder (n : NodeId) : List Label :=
  [.forward n 0 .pathChanged, .forward n 0 .latch, .forward n 0 (.connect true)]

/-- A client of node 1, which leads the shard, and a client of node 2 write to one module.  Both
writes are committed, the second one through the leader, and neither has been sent yet. -/
def twoWrites : List Label :=
  List.flatten
    [[.attach 1 0, .attach 2 0],
      connect 1 1 "/database/subscribe/m",
      connect 2 2 "/database/subscribe/m",
      [.recv 1 (.binary [3, 1]) 1, .commit 1 ⟨1, 1⟩, .clientWrite 1 .ok,
        .recv 2 (.binary [3, 2]) 2, .clientWrite 2 (.forwardToLeader (some ⟨"node1"⟩)),
        .postDelivered 2 true, .commit 2 ⟨1, 1⟩, .served 2 .ok, .response 2]]

/-- Node 1 applies both writes and sends them: its handler the first, its forwarder the second. -/
def sendOnNode1 : List Label :=
  List.flatten
    [[.send 1 true, .apply 1 0 2], startForwarder 1,
      [.forward 1 0 (.recv true), .forward 1 0 (.recv true)]]

/-- Both writes reach node 1, each once. -/
theorem integrity_on_node1 :
    ∃ w, Runs.exec (step commandJson snapshotJson) World.start (twoWrites ++ sendOnNode1) = some w ∧
      w.sent.map (·.message) = [.binary [3, 1], .binary [3, 2]] ∧
      w.sent.map (·.sender) = [.handler, .forwarder] ∧ (delivered 1 0 w.sent).Nodup := by
  obtain ⟨w, h, hmessages, hsenders⟩ : ∃ w,
      Runs.exec (step commandJson snapshotJson) World.start (twoWrites ++ sendOnNode1) = some w ∧
      w.sent.map (·.message) = [.binary [3, 1], .binary [3, 2]] ∧
      w.sent.map (·.sender) = [.handler, .forwarder] := Runs.exists_exec (by decide +kernel)
  exact ⟨w, h, hmessages, hsenders, (write_integrity h).2.1 1 0⟩

end RaftTimeDB.Cluster
