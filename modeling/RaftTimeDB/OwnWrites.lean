import RaftTimeDB.Integrity

/-!
# A node's own writes

The forwarder of a node skips the writes of that node, because the handler that proposed them sends
them itself.  The handler does so only if `propose_write` reports success and the upstream connection
takes the message, while the entry may be committed all the same.

`own_writes_iff` — in a run no committed write of a handler is ever left unsent once the handler has
gone past it, if and only if no move of the run loses one: `propose_write` never fails for a
committed proposal, no upstream send of a committed write fails, and nothing is committed after its
handler has gone on.
-/

set_option autoImplicit false

namespace RaftTimeDB.Cluster

open JsonFormats (commandJson snapshotJson)

variable {J : CommandJson} {K : SnapshotCodec}

/-- Every committed write whose handler has gone past it was sent by the handler, or is one that the
node's forwarder sends. -/
def NoMiss (x : Core) : Prop :=
  ∀ p prop i, x.props p = some prop → x.entry p = some i → (x.pc prop.conn).holds ≠ some p →
    i ∈ sentBy .handler prop.node prop.shard x.sent ∨ x.Foreign prop.node prop.shard i

/-- A move loses no committed write: a proposal that its handler gives up is not committed, and a
proposal that is committed is still in its handler's hand. -/
def LosesNoWrite (w : World) (l : Label) : Prop :=
  (∀ p, w.givesUp l = some p → w.entry p = none) ∧
  ∀ p leaderId prop, l = .commit p leaderId → w.props p = some prop →
    (w.pc prop.conn).holds = some p

theorem NoMiss.start : NoMiss World.start.core := by
  intro p prop i h
  cases h

/-- Moves that neither give up a proposal nor commit one lose nothing. -/
theorem losesNoWrite_of_ne {w : World} {l : Label} (hl : w.givesUp l = none)
    (hcommit : ∀ p leaderId, l ≠ .commit p leaderId) : LosesNoWrite w l := by
  refine ⟨?_, fun p leaderId _ h => absurd h (hcommit p leaderId)⟩
  intro p hp
  rw [hl] at hp
  cases hp

/-- More deliveries and longer logs keep `NoMiss` if hands do not empty and entries do not change. -/
theorem NoMiss.mono {x x' : Core} (h : NoMiss x)
    (hprops : ∀ p prop i, x'.props p = some prop → x'.entry p = some i →
      x.props p = some prop ∧ x.entry p = some i ∧
        ((x'.pc prop.conn).holds ≠ some p → (x.pc prop.conn).holds ≠ some p))
    (hsent : ∀ n s i, i ∈ sentBy .handler n s x.sent → i ∈ sentBy .handler n s x'.sent)
    (hforeign : ∀ n s i, x.Foreign n s i → x'.Foreign n s i) : NoMiss x' := by
  intro p prop i hprop hi hfree
  obtain ⟨hprop, hi, hhand⟩ := hprops p prop i hprop hi
  rcases h p prop i hprop hi (hhand hfree) with hs | hf
  · exact Or.inl (hsent _ _ _ hs)
  · exact Or.inr (hforeign _ _ _ hf)

theorem Core.Foreign.append {x : Core} {n : NodeId} {s : ShardId} {i : Nat} (h : x.Foreign n s i)
    (s' : ShardId) (leaderId : LeaderId) (payload : EntryPayload) :
    Core.Foreign { x with log := appendEntry x.log s' leaderId payload } n s i := by
  obtain ⟨e, m, he, hforward, horigin⟩ := h
  exact ⟨e, m, appendEntry_old he, hforward, horigin⟩

/-- A proposal in hand has not been sent. -/
theorem HandlerInv.not_sent_of_held {x : Core} (hinv : HandlerInv x) {p i : Nat} {prop : Proposal}
    (hprop : x.props p = some prop) (hi : x.entry p = some i)
    (hheld : (x.pc prop.conn).holds = some p) :
    i ∉ sentBy .handler prop.node prop.shard x.sent := by
  intro hmem
  obtain ⟨d, hd, hsender, _, hshard, hentry⟩ := mem_sentBy.mp hmem
  obtain ⟨q, prop', hprop', hq, _, hshard', _, hfree⟩ := hinv.write d hd hsender i hentry
  obtain rfl : p = q := hinv.unique p q prop prop' i hprop hprop' (by rw [hshard', hshard]) hi hq
  rw [hprop, Option.some.injEq] at hprop'
  subst hprop'
  exact hfree hheld

/-- Giving up a proposal loses it exactly when it is committed. -/
theorem noMiss_drop_iff {x : Core} (hinv : HandlerInv x) (h : NoMiss x) {c p : Nat} {pc : InboundPc}
    (hheld : (x.pc c).holds = some p) (hpc : pc.holds = none) :
    NoMiss { x with pc := Function.update x.pc c pc } ↔ x.entry p = none := by
  obtain ⟨prop, hprop, rfl⟩ := hinv.held c p hheld
  constructor
  · intro hmiss
    cases hi : x.entry p with
    | none => rfl
    | some i =>
      rcases hmiss p prop i hprop hi (by simp [hpc]) with hsent | hforeign
      · exact absurd hsent (hinv.not_sent_of_held hprop hi hheld)
      · exact absurd hforeign (hinv.own_not_foreign hprop hi)
  · intro hnone
    refine h.mono (fun q prop' i hq hi => ⟨hq, hi, ?_⟩) (fun _ _ _ hs => hs)
      (fun _ _ _ hf => hf)
    intro hfree hold
    have hqp : q ≠ p := by
      rintro rfl
      rw [hnone] at hi
      cases hi
    by_cases hc : prop'.conn = prop.conn
    · rw [hc, hheld, Option.some.injEq] at hold
      exact hqp hold.symm
    · simp only [Function.update_of_ne hc] at hfree
      exact hfree hold

/-- Committing a proposal loses it exactly when its handler has gone on. -/
theorem noMiss_commit_iff {x : Core} (hinv : HandlerInv x) (h : NoMiss x) {p : Nat}
    {prop : Proposal} {leaderId : LeaderId} (hprop : x.props p = some prop)
    (hentry : x.entry p = none) :
    NoMiss { x with
      log := appendEntry x.log prop.shard leaderId (.normal (proposeRequest prop.node prop.data))
      entry := Function.update x.entry p (some (x.log prop.shard).length) } ↔
      (x.pc prop.conn).holds = some p := by
  have hinv' := hinv.commit hprop hentry leaderId
  constructor
  · intro hmiss
    by_contra hfree
    have hnew : Function.update x.entry p (some (x.log prop.shard).length) p =
        some (x.log prop.shard).length := Function.update_self ..
    rcases hmiss p prop _ hprop hnew hfree with hsent | hforeign
    · exact Nat.lt_irrefl _ (hinv.sent_lt hsent)
    · exact hinv'.own_not_foreign hprop hnew hforeign
  · intro hheld q prop' i hq hi hfree
    by_cases hqp : q = p
    · subst hqp
      rw [show x.props q = some prop' from hq, Option.some.injEq] at hprop
      subst hprop
      exact absurd hheld hfree
    · simp only [Function.update_of_ne hqp] at hi
      rcases h q prop' i hq hi hfree with hs | hf
      · exact Or.inl hs
      · exact Or.inr (hf.append _ _ _)

/-- A hand that was empty, or keeps what it held, frees nothing. -/
theorem holds_of_update {pcs : Nat → InboundPc} {c d p : Nat} {pc : InboundPc}
    (hpc : (pcs c).holds = none ∨ pc.holds = (pcs c).holds)
    (hfree : (Function.update pcs c pc d).holds ≠ some p) : (pcs d).holds ≠ some p := by
  by_cases hd : d = c
  · subst hd
    rw [Function.update_self] at hfree
    rcases hpc with hnone | hsame
    · simp [hnone]
    · rwa [← hsame]
  · rwa [Function.update_of_ne hd] at hfree

/-- A handler that sends a write has it sent. -/
theorem NoMiss.send {x : Core} (hinv : HandlerInv x) (h : NoMiss x) {c : Nat} {conn : Conn}
    {msg : Message} {q : Option Nat} (hconn : x.conns c = some conn)
    (hpc : x.pc c = .sending msg q) :
    NoMiss { x with
      pc := Function.update x.pc c .idle
      sent := x.sent ++ [⟨conn.node, conn.shard, .handler, conn.path, msg, q.bind x.entry⟩] } := by
  intro p prop i hp hi hfree
  by_cases hheld : (x.pc prop.conn).holds = some p
  · -- the proposal was in the hand of the handler that has just sent it
    have hc : prop.conn = c := by
      by_contra hc
      simp only [Function.update_of_ne hc] at hfree
      exact hfree hheld
    have hq : q = some p := by
      rw [hc, hpc] at hheld
      exact hheld
    obtain ⟨hnode, hshard⟩ := hinv.held_shard (c := c) hconn (hc ▸ hheld) hp
    refine Or.inl (mem_sentBy.mpr ⟨_, List.mem_append_right _ (List.mem_singleton_self _), rfl,
      hnode.symm, hshard.symm, ?_⟩)
    rw [hq]
    exact hi
  · rcases h p prop i hp hi hheld with hs | hf
    · refine Or.inl ?_
      rw [sentBy_snoc]
      exact List.mem_append_left _ hs
    · exact Or.inr hf

/-- **A move leaves no own write behind exactly when it loses none.** -/
theorem noMiss_effect_iff {w : World} {l : Label} {x : Core} (heff : Effect w l x) (hinv : Inv w)
    (h : NoMiss w.core) : NoMiss x ↔ LosesNoWrite w l := by
  cases heff with
  | frame hl =>
    refine iff_of_true h (losesNoWrite_of_ne ?_ ?_)
    · cases l <;> first | rfl | cases hl
    · rintro p leaderId rfl
      cases hl
  | @accept c n path hnew =>
    refine iff_of_true ?_ (losesNoWrite_of_ne rfl (by simp))
    refine h.mono (fun p prop i hp hi => ⟨hp, hi, ?_⟩) (fun _ _ _ hs => hs)
      (fun _ _ _ hf => hf)
    intro hfree
    have hc := hinv.handlers.conn_ne hnew hp
    simpa only [World.core, Function.update_of_ne hc] using hfree
  | @broadcast c conn hconn hpc =>
    refine iff_of_true ?_ (losesNoWrite_of_ne rfl (by simp))
    have hnone : (w.pc c).holds = none := by rw [hpc]; rfl
    exact h.mono (fun _ _ _ hp hi => ⟨hp, hi, holds_of_update (Or.inl hnone)⟩) (fun _ _ _ hs => hs)
      (fun _ _ _ hf => hf)
  | @keep _ c pc hl hcommit _ hholds _ =>
    refine iff_of_true ?_ (losesNoWrite_of_ne hl hcommit)
    exact h.mono (fun _ _ _ hp hi => ⟨hp, hi, holds_of_update (Or.inr hholds)⟩)
      (fun _ _ _ hs => hs) (fun _ _ _ hf => hf)
  | @drop _ c p pc hl hheld hpc =>
    have hnone : pc.holds = none := by rcases hpc with rfl | rfl <;> rfl
    have hdrop := noMiss_drop_iff hinv.handlers h (c := c) hheld hnone
    refine Iff.trans hdrop ⟨fun hentry => ⟨?_, ?_⟩, fun hloses => hloses.1 p hl⟩
    · intro q hq
      rw [hl, Option.some.injEq] at hq
      rw [← hq]
      exact hentry
    · rintro q leaderId prop rfl
      cases hl
  | @propose c p conn data hconn hpc hnew hentry _ =>
    refine iff_of_true ?_ (losesNoWrite_of_ne rfl (by simp))
    have hnone : (w.pc c).holds = none := by rw [hpc]; rfl
    refine h.mono ?_ (fun _ _ _ hs => hs) (fun _ _ _ hf => hf)
    intro q prop i hq hi
    have hqp : q ≠ p := by
      rintro rfl
      rw [show w.core.entry q = none from hentry] at hi
      cases hi
    simp only [Function.update_of_ne hqp] at hq
    exact ⟨hq, hi, holds_of_update (Or.inl hnone)⟩
  | send hconn hpc =>
    exact iff_of_true (h.send hinv.handlers hconn hpc) (losesNoWrite_of_ne rfl (by simp))
  | @commit p prop leaderId hprop hentry =>
    refine Iff.trans (noMiss_commit_iff hinv.handlers h hprop hentry)
      ⟨fun hheld => ⟨fun q hq => (by cases hq), ?_⟩, fun hloses => ?_⟩
    · intro q leaderId' prop' heq hq
      cases heq
      rw [hprop, Option.some.injEq] at hq
      subst hq
      exact hheld
    · exact hloses.2 p leaderId prop rfl hprop
  | commitOther _ =>
    refine iff_of_true ?_ (losesNoWrite_of_ne rfl (by simp))
    exact h.mono (fun _ _ _ hp hi => ⟨hp, hi, fun hfree => hfree⟩) (fun _ _ _ hs => hs)
      (fun _ _ _ hf => hf.append _ _ _)
  | advance hl hcommit _ =>
    refine iff_of_true ?_ (losesNoWrite_of_ne hl hcommit)
    exact h.mono (fun _ _ _ hp hi => ⟨hp, hi, fun hfree => hfree⟩) (fun _ _ _ hs => hs)
      (fun _ _ _ hf => hf)
  | forward _ _ =>
    refine iff_of_true ?_ (losesNoWrite_of_ne rfl (by simp))
    refine h.mono (fun _ _ _ hp hi => ⟨hp, hi, fun hfree => hfree⟩) ?_
      (fun _ _ _ hf => hf)
    intro n s i hs
    rw [sentBy, List.filterMap_append]
    exact List.mem_append_left _ hs

/-- **Own writes, exactly.**  In every state of a run each committed write whose handler has gone
past it was sent to the local SpacetimeDB by the handler or is left to the node's forwarder, if and
only if no move of the run loses a committed write. -/
theorem own_writes_iff {labels : List Label} {w : World}
    (h : Runs.exec (step J K) World.start labels = some w) :
    Runs.Throughout (step J K) (fun w => NoMiss w.core) World.start labels ↔
      Runs.Along (step J K) LosesNoWrite World.start labels := by
  refine Runs.throughout_iff_along (I := Inv) ?_ ?_ Inv.start NoMiss.start h
  · intro s l s' hI hs
    exact step_inv hI hs
  · intro s l s' hI hP hs
    exact noMiss_effect_iff (step_effect hI.net hs) hI hP

/-- A client of the leader writes. -/
def proposeOwn : List Label :=
  [.accept 1 1 "/database/subscribe/m", .broadcast 1, .upstream 1 true, .recv 1 (.binary [3]) 1]

/-- The leader commits the write and the handler sends it. -/
def ownWrite : List Label :=
  List.append proposeOwn [.commit 1 ⟨1, 1⟩, .clientWrite 1 .ok, .send 1 true]

/-- This run loses no write. -/
theorem own_write_sent :
    ∃ w, Runs.exec (step commandJson snapshotJson) World.start ownWrite = some w ∧
      w.sent.length = 1 ∧
      Runs.Throughout (step commandJson snapshotJson) (fun w => NoMiss w.core) World.start
        ownWrite := by
  obtain ⟨w, h, hlength⟩ : ∃ w,
      Runs.exec (step commandJson snapshotJson) World.start ownWrite = some w ∧
      w.sent.length = 1 := Runs.exists_exec (by decide +kernel)
  refine ⟨w, h, hlength, (own_writes_iff h).mpr ?_⟩
  refine Runs.Along.append (Runs.along_of_forall fun l hl s => ?_) fun t ht =>
    ⟨⟨fun p hp => (by cases hp), ?_⟩, fun u _ => Runs.along_of_forall fun l hl s => ?_⟩
  · simp only [proposeOwn, List.mem_cons, List.not_mem_nil, or_false] at hl
    rcases hl with rfl | rfl | rfl | rfl <;> exact losesNoWrite_of_ne rfl (by simp)
  · -- the handler has the proposal in hand when it is committed
    rintro p leaderId prop heq hprop
    cases heq
    obtain ⟨hprop', hheld⟩ : t.props 1 = some ⟨1, 1, 0, [3]⟩ ∧ (t.pc 1).holds = some 1 :=
      Runs.exec_check (P := fun t => t.props 1 = some ⟨1, 1, 0, [3]⟩ ∧ (t.pc 1).holds = some 1) ht
        (by decide +kernel)
    rw [hprop', Option.some.injEq] at hprop
    subst hprop
    exact hheld
  · simp only [List.mem_cons, List.not_mem_nil, or_false] at hl
    rcases hl with rfl | rfl
    · refine losesNoWrite_of_ne ?_ (by simp)
      cases hpc : s.pc 1 <;> simp [World.givesUp, hpc]
    · exact losesNoWrite_of_ne rfl (by simp)

/-- A client of node 2 writes.  The leader commits the write, but its answer does not arrive; then
node 2 applies the entry and its forwarder takes it off the channel. -/
def lostAnswer : List Label :=
  List.flatten
    [[.attach 2 0], connect 2 2 "/database/subscribe/m",
      [.recv 2 (.binary [3]) 1, .clientWrite 2 (.forwardToLeader (some ⟨"node1"⟩)),
        .postDelivered 1 true, .commit 1 ⟨1, 1⟩, .postFail 2, .apply 2 0 1],
      startForwarder 2, [.forward 2 0 (.recv true)]]

/-- **A committed write is lost on its own node.**  The handler has dropped the write, and the
forwarder has skipped it. -/
theorem own_write_lost :
    ∃ w, Runs.exec (step commandJson snapshotJson) World.start lostAnswer = some w ∧
      w.sent = [] ∧ (w.state (2, 0)).queue = [] ∧ ¬ NoMiss w.core := by
  obtain ⟨w, h, hsent, hqueue, hprop, hentry, hidle⟩ : ∃ w,
      Runs.exec (step commandJson snapshotJson) World.start lostAnswer = some w ∧
      w.sent = [] ∧ (w.state (2, 0)).queue = [] ∧ w.props 1 = some ⟨2, 2, 0, [3]⟩ ∧
      w.entry 1 = some 0 ∧ (w.pc 2).holds = none := Runs.exists_exec (by decide +kernel)
  refine ⟨w, h, hsent, hqueue, ?_⟩
  intro hmiss
  rcases hmiss 1 _ 0 hprop hentry (by simp [World.core, hidle]) with hs | hforeign
  · rw [show w.core.sent = w.sent from rfl, hsent] at hs
    cases hs
  · exact (exec_inv h).handlers.own_not_foreign hprop hentry hforeign

end RaftTimeDB.Cluster
