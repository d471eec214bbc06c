import RaftTimeDB.Integrity

/-!
# The module of a forwarded write

A log entry carries no module name.  The forwarder of a shard sends every foreign write of the shard
over one connection, opened on the first client path it learnt of on its own node, while several
modules may share a shard.

`forwarded_to_same_module` — forwarded writes of connections that name a module go out on paths naming
the same module, in every run in which (`OneModule`) a forwarder fixes a path only if it names the
module of every committed write of other nodes in its shard, and a write is committed only if
the paths already fixed for its shard on other nodes name its module.
-/

set_option autoImplicit false

namespace RaftTimeDB.Cluster

open JsonFormats (commandJson snapshotJson)

variable {J : CommandJson} {K : SnapshotCodec}

/-- Proposal `p` is committed as entry `i` of shard `s`; it comes from node `origin`, over a connection
whose path names module `m`. -/
def Core.WriteOf (x : Core) (p : Nat) (origin : NodeId) (s : ShardId) (i : Nat) (m : String) : Prop :=
  ∃ prop conn, x.props p = some prop ∧ prop.node = origin ∧ prop.shard = s ∧
    x.entry p = some i ∧ x.conns prop.conn = some conn ∧ extractModuleName conn.path = some m

/-- Every forwarded write of a connection that names a module went out on a path naming it. -/
def SameModule (x : Core) : Prop :=
  ∀ d ∈ x.sent, d.sender = .forwarder → ∀ i, d.entry = some i → ∀ p origin m,
    x.WriteOf p origin d.shard i m → extractModuleName d.path = some m

/-- The moves that decide about modules: a forwarder fixes its path, a write is committed. -/
def OneModule (w : World) : Label → Prop
  | .forward n s .latch => ∀ p origin i m, origin ≠ n → w.core.WriteOf p origin s i m →
      extractModuleName (w.state (n, s)).task.dbPath = some m
  | .commit p _ => ∀ prop conn m, w.props p = some prop → w.conns prop.conn = some conn →
      extractModuleName conn.path = some m → ∀ n path, n ≠ prop.node →
        (w.state (n, prop.shard)).task.latched? = some path → extractModuleName path = some m
  | _ => True

structure Faithful (x : Core) : Prop where
  latched : ∀ n s path, (x.state (n, s)).task.latched? = some path → ∀ p origin i m, origin ≠ n →
    x.WriteOf p origin s i m → extractModuleName path = some m
  sent : SameModule x

theorem Faithful.start : Faithful World.start.core := by
  refine ⟨fun n s path h => ?_, fun d h => ?_⟩ <;>
  cases h

/-- A forwarder fixes its path in one move only. -/
theorem latched_effect {w : World} {l : Label} {x : Core} (heff : Effect w l x)
    {k : NodeId × ShardId} {path : String} (hpath : (x.state k).task.latched? = some path) :
    (w.state k).task.latched? = some path ∨
      (l = .forward k.1 k.2 .latch ∧ path = (w.state k).task.dbPath) := by
  cases heff with
  | @broadcast c conn hconn hpc =>
    by_cases hk : k = (conn.node, conn.shard)
    · subst hk
      simp only [Function.update_self, Forwarder.latched?_broadcast] at hpath
      exact Or.inl hpath
    · simp only [Function.update_of_ne hk] at hpath
      exact Or.inl hpath
  | @advance _ n s st _ _ hst =>
    by_cases hk : k = (n, s)
    · subst hk
      simp only [Function.update_self, hst.task] at hpath
      exact Or.inl hpath
    · simp only [Function.update_of_ne hk] at hpath
      exact Or.inl hpath
  | @forward n s event queue r hqueue hr =>
    by_cases hk : k = (n, s)
    · subst hk
      simp only [Function.update_self] at hpath
      rcases Forwarder.step_latched hr hpath with hold | ⟨rfl, hnew⟩
      · exact Or.inl hold
      · exact Or.inr ⟨rfl, hnew⟩
    · simp only [Function.update_of_ne hk] at hpath
      exact Or.inl hpath
  | _ => exact Or.inl hpath

/-- A move that commits nothing keeps the modules apart if what a forwarder sends goes out on a path
it has fixed. -/
theorem Faithful.mono {w : World} {l : Label} {x : Core} (h : Faithful w.core)
    (heff : Effect w l x) (hone : OneModule w l)
    (hwrite : ∀ p origin s i m, x.WriteOf p origin s i m → w.core.WriteOf p origin s i m)
    (hsent : ∀ d ∈ x.sent, d.sender = .forwarder → d ∈ w.sent ∨
      ∀ i, d.entry = some i → ∀ p origin m, w.core.WriteOf p origin d.shard i m →
        extractModuleName d.path = some m) :
    Faithful x := by
  refine ⟨?_, ?_⟩
  · intro n s path hpath p origin i m horigin hw
    rcases latched_effect heff hpath with hold | ⟨rfl, rfl⟩
    · exact h.latched n s path hold p origin i m horigin (hwrite p origin s i m hw)
    · exact hone p origin i m horigin (hwrite p origin s i m hw)
  · intro d hd hsender i hi p origin m hw
    rcases hsent d hd hsender with hold | hnew
    · exact h.sent d hold hsender i hi p origin m (hwrite p origin d.shard i m hw)
    · exact hnew i hi p origin m (hwrite p origin d.shard i m hw)

/-- The origin of a forwardable entry is the node of its proposal. -/
theorem HandlerInv.origin_eq {x : Core} (hinv : HandlerInv x) {p : Nat} {origin : NodeId}
    {s : ShardId} {i : Nat} {m : String} (h : x.WriteOf p origin s i m) {e : Entry}
    {msg : ForwarderMsg} (he : (x.log s)[i]? = some e) (hforward : e.forward? = some msg) :
    msg.originNodeId = origin := by
  obtain ⟨prop, conn, hprop, rfl, rfl, hi, _⟩ := h
  obtain ⟨e', he', hpayload⟩ := hinv.entry p prop i hprop hi
  rw [he, Option.some.injEq] at he'
  subst he'
  rw [forward?_origin hforward, EntryPayload.normal.injEq] at hpayload
  exact congrArg ReducerCallRequest.originNodeId hpayload

/-- A committed write goes where the fixed paths name its module. -/
theorem Faithful.commit {w : World} (hinv : Inv w) (h : Faithful w.core) {p : Nat}
    {prop : Proposal} {leaderId : LeaderId} (hprop : w.props p = some prop)
    (hentry : w.entry p = none) (hone : OneModule w (.commit p leaderId)) :
    Faithful { w.core with
      log := appendEntry w.log prop.shard leaderId
        (.normal (proposeRequest prop.node prop.data))
      entry := Function.update w.entry p (some (w.log prop.shard).length) } := by
  -- a committed write is the new one or an old one
  have hcases : ∀ q origin s i m, Core.WriteOf { w.core with
      log := appendEntry w.log prop.shard leaderId
        (.normal (proposeRequest prop.node prop.data))
      entry := Function.update w.entry p (some (w.log prop.shard).length) } q origin s i m →
      w.core.WriteOf q origin s i m ∨
        (origin = prop.node ∧ s = prop.shard ∧ i = (w.log prop.shard).length ∧
          ∃ conn, w.conns prop.conn = some conn ∧ extractModuleName conn.path = some m) := by
    rintro q origin s i m ⟨prop', conn, hq, rfl, rfl, hi, hconn, hm⟩
    by_cases hqp : q = p
    · subst hqp
      rw [show w.props q = some prop' from hq, Option.some.injEq] at hprop
      subst hprop
      simp only [Function.update_self, Option.some.injEq] at hi
      exact Or.inr ⟨rfl, rfl, hi.symm, conn, hconn, hm⟩
    · simp only [Function.update_of_ne hqp] at hi
      exact Or.inl ⟨prop', conn, hq, rfl, rfl, hi, hconn, hm⟩
  refine ⟨?_, ?_⟩
  · intro n s path hpath q origin i m horigin hw
    rcases hcases q origin s i m hw with hold | ⟨rfl, rfl, _, conn, hconn, hm⟩
    · exact h.latched n s path hpath q origin i m horigin hold
    · exact hone prop conn m hprop hconn hm n path (Ne.symm horigin) hpath
  · intro d hd hsender i hi q origin m hw
    rcases hcases q origin d.shard i m hw with hold | ⟨_, hshard, hnew, _⟩
    · exact h.sent d hd hsender i hi q origin m hold
    · -- nothing sent so far has the new index
      obtain ⟨msg, e, hmsg, _, he, _⟩ := hinv.forwarders.sent d hd hsender
      rw [hi, Option.some.injEq] at hmsg
      have hlt := (List.getElem?_eq_some_iff.mp he).1
      rw [show w.core.log = w.log from rfl, hshard, ← hmsg, hnew] at hlt
      exact absurd hlt (Nat.lt_irrefl _)

/-- A forwarder sends on the path it has fixed. -/
theorem Faithful.forward {w : World} (hinv : Inv w) (h : Faithful w.core) {n : NodeId}
    {s : ShardId} {event : ForwarderEvent} {queue : List ForwarderMsg} {r : ForwarderResult}
    (hqueue : (w.state (n, s)).stateMachine.forwarder = some queue)
    (hr : (w.state (n, s)).task.step n queue event = some r) {d : Delivery}
    (hd : d ∈ deliveries n s r) {i : Nat} (hi : d.entry = some i) {p : Nat} {origin : NodeId}
    {m : String} (hw : w.core.WriteOf p origin d.shard i m) :
    extractModuleName d.path = some m := by
  obtain ⟨⟨path, msg⟩, hmsg, rfl⟩ := List.mem_map.mp hd
  rw [Option.mem_toList] at hmsg
  cases hi
  obtain ⟨hlatched, hq, hforeign⟩ := Forwarder.step_sent hr hmsg
  obtain ⟨e, he, hforward⟩ := hinv.forwarders.queued n s msg
    (by simp [World.core, ShardState.queue, hqueue, hq])
  rw [hinv.handlers.origin_eq hw he hforward] at hforeign
  exact h.latched n s path hlatched p origin msg.logIndex m hforeign hw

/-- **Every move that keeps to one module keeps forwarded writes on their module.** -/
theorem faithful_effect {w : World} {l : Label} {x : Core} (heff : Effect w l x) (hinv : Inv w)
    (hone : OneModule w l) (h : Faithful w.core) : Faithful x := by
  have heff' := heff
  cases heff with
  | frame => exact h
  | @accept c n path hnew =>
    refine h.mono heff' hone ?_ fun _ hd _ => Or.inl hd
    intro p origin s i m hw
    obtain ⟨prop, conn, hprop, hnode, hshard, hi, hconn, hm⟩ := hw
    simp only [Function.update_of_ne (hinv.handlers.conn_ne hnew hprop)] at hconn
    exact ⟨prop, conn, hprop, hnode, hshard, hi, hconn, hm⟩
  | @propose c p conn data hconn hpc hnew hentry _ =>
    refine h.mono heff' hone ?_ fun _ hd _ => Or.inl hd
    intro q origin s i m hw
    obtain ⟨prop, conn', hprop, hnode, hshard, hi, hconn', hm⟩ := hw
    have hqp : q ≠ p := by
      rintro rfl
      rw [show w.core.entry q = none from hentry] at hi
      cases hi
    simp only [Function.update_of_ne hqp] at hprop
    exact ⟨prop, conn', hprop, hnode, hshard, hi, hconn', hm⟩
  | send hconn hpc =>
    refine h.mono heff' hone (fun _ _ _ _ _ hw => hw) fun d hd hsender => Or.inl ?_
    rcases List.mem_append.mp hd with hold | hnew
    · exact hold
    · rw [List.mem_singleton] at hnew
      rw [hnew] at hsender
      cases hsender
  | commit hprop hentry => exact h.commit hinv hprop hentry hone
  | forward hqueue hr =>
    refine h.mono heff' hone (fun _ _ _ _ _ hw => hw) ?_
    intro d hd _
    rcases List.mem_append.mp hd with hold | hnew
    · exact Or.inl hold
    · exact Or.inr fun i hi p origin m hw => h.forward hinv hqueue hr hnew hi hw
  | broadcast _ _ => exact h.mono heff' hone (fun _ _ _ _ _ hw => hw) fun _ hd _ => Or.inl hd
  | keep _ _ _ _ _ => exact h.mono heff' hone (fun _ _ _ _ _ hw => hw) fun _ hd _ => Or.inl hd
  | drop _ _ _ => exact h.mono heff' hone (fun _ _ _ _ _ hw => hw) fun _ hd _ => Or.inl hd
  | commitOther _ => exact h.mono heff' hone (fun _ _ _ _ _ hw => hw) fun _ hd _ => Or.inl hd
  | advance _ _ _ => exact h.mono heff' hone (fun _ _ _ _ _ hw => hw) fun _ hd _ => Or.inl hd

/-- **Module fidelity.**  In every run that keeps to one module per shard (`OneModule`), whenever a
forwarder sends a committed write issued over a connection whose path names a module, the
connection it uses was opened on a path that names the same module. -/
theorem forwarded_to_same_module {labels : List Label} {w : World}
    (hone : Runs.Along (step J K) OneModule World.start labels)
    (h : Runs.exec (step J K) World.start labels = some w) : SameModule w.core := by
  have hboth : Inv w ∧ Faithful w.core := by
    refine Runs.exec_inv_along (I := fun w => Inv w ∧ Faithful w.core) ?_
      ⟨Inv.start, Faithful.start⟩ hone h
    rintro s l s' ⟨hI, hF⟩ hl hs
    exact ⟨step_inv hI hs, faithful_effect (step_effect hI.net hs) hI hl hF⟩
  exact hboth.2.sent

/-- No forwarder has fixed a path before one takes the step that does. -/
theorem unlatched_of_no_latch {labels : List Label} {w : World}
    (hno : ∀ l ∈ labels, ∀ n s, l ≠ .forward n s .latch)
    (h : Runs.exec (step J K) World.start labels = some w) (k : NodeId × ShardId) :
    (w.state k).task.latched? = none := by
  have hboth : Inv w ∧ ∀ k, (w.state k).task.latched? = none := by
    refine Runs.exec_inv_along (I := fun w => Inv w ∧ ∀ k, (w.state k).task.latched? = none)
      (C := fun _ l => ∀ n s, l ≠ .forward n s .latch) ?_ ⟨Inv.start, fun _ => rfl⟩
      (Runs.along_of_forall fun l hl _ => hno l hl) h
    rintro s l s' ⟨hI, hN⟩ hl hs
    refine ⟨step_inv hI hs, fun k => Option.eq_none_iff_forall_not_mem.mpr ?_⟩
    intro path hpath
    rcases latched_effect (step_effect hI.net hs) hpath with hold | ⟨hlatch, _⟩
    · rw [hN k] at hold
      cases hold
    · exact hl k.1 k.2 hlatch
  exact hboth.2 k

/-- A client of node 1 writes while a client of node 2 is connected. -/
def writeBetween (path₁ path₂ : String) : List Label :=
  List.flatten [[.attach 2 0], connect 1 1 path₁, connect 2 2 path₂, [.recv 1 (.binary [3]) 1]]

/-- The write is committed and applied on node 2, whose forwarder takes up the path of its own
client and sends the write. -/
def forwardBetween (path₁ path₂ : String) : List Label :=
  List.append (writeBetween path₁ path₂)
    [.commit 1 ⟨1, 1⟩, .apply 2 0 1, .forward 2 0 .pathChanged, .forward 2 0 .latch,
      .forward 2 0 (.connect true), .forward 2 0 (.recv true)]

/-- With one module the write goes out on a path that names it. -/
theorem forwarded_within_module :
    ∃ w, Runs.exec (step commandJson snapshotJson) World.start
        (forwardBetween "/database/subscribe/m" "/database/subscribe/m") = some w ∧
      w.sent.length = 1 ∧ SameModule w.core := by
  obtain ⟨w, h, hlength⟩ : ∃ w, Runs.exec (step commandJson snapshotJson) World.start
      (forwardBetween "/database/subscribe/m" "/database/subscribe/m") = some w ∧
      w.sent.length = 1 := Runs.exists_exec (by decide +kernel)
  refine ⟨w, h, hlength, forwarded_to_same_module ?_ h⟩
  refine Runs.Along.append (Runs.along_of_forall (by simp [writeBetween, connect, OneModule]))
    fun t ht => ⟨fun prop conn m _ _ _ n path _ hpath => ?_, fun t₁ ht₁ => ⟨trivial,
      fun t₂ ht₂ => ⟨trivial, fun u hu => ⟨fun p origin i m _ hw => ?_,
        fun _ _ => Runs.along_of_forall (by simp [OneModule])⟩⟩⟩⟩
  · -- no forwarder has fixed a path when the write is committed
    rw [unlatched_of_no_latch (by simp [writeBetween, connect]) ht] at hpath
    cases hpath
  · -- when one does, there is a single write to look at
    have hexec : Runs.exec (step commandJson snapshotJson) World.start
        (List.append (writeBetween "/database/subscribe/m" "/database/subscribe/m")
          [.commit 1 ⟨1, 1⟩, .apply 2 0 1, .forward 2 0 .pathChanged]) = some u :=
      Runs.exec_append_some.mpr ⟨t, ht, Runs.exec_cons_some.mpr ⟨t₁, ht₁,
        Runs.exec_cons_some.mpr ⟨t₂, ht₂, Runs.exec_cons_some.mpr ⟨u, hu, rfl⟩⟩⟩⟩
    obtain ⟨hprop, hentry, hconn, hlog, hpath⟩ : u.props 1 = some ⟨1, 1, 0, [3]⟩ ∧
        u.entry 1 = some 0 ∧ u.conns 1 = some ⟨1, "/database/subscribe/m", 0⟩ ∧
        (u.log 0).length = 1 ∧ (u.state (2, 0)).task.dbPath = "/database/subscribe/m" :=
      Runs.exec_check (P := fun u => u.props 1 = some ⟨1, 1, 0, [3]⟩ ∧
        u.entry 1 = some 0 ∧ u.conns 1 = some ⟨1, "/database/subscribe/m", 0⟩ ∧
        (u.log 0).length = 1 ∧ (u.state (2, 0)).task.dbPath = "/database/subscribe/m") hexec
        (by decide +kernel)
    have hinv := (exec_inv hexec).handlers
    obtain ⟨prop, conn, hp, _, hshard, hi, hc, hm⟩ := hw
    obtain ⟨e, he, _⟩ := hinv.entry p prop i hp hi
    have hlt := (List.getElem?_eq_some_iff.mp he).1
    rw [hshard, show u.core.log = u.log from rfl, hlog] at hlt
    obtain rfl : i = 0 := by omega
    obtain rfl := hinv.unique p 1 prop _ 0 hp hprop hshard hi hentry
    obtain rfl := Option.some.inj (hp.symm.trans hprop)
    obtain rfl := Option.some.inj (hc.symm.trans hconn)
    rw [hpath]
    exact hm

/-- **A write reaches another module.**  Modules `a` and `b` share shard 0; the forwarder of node 2
sends a write to `a` on the path of `b`. -/
theorem forwarded_to_other_module :
    ∃ w, Runs.exec (step commandJson snapshotJson) World.start
        (forwardBetween "/database/subscribe/a" "/database/subscribe/b") = some w ∧
      w.sent = [⟨2, 0, .forwarder, "/database/subscribe/b", .binary [3], some 0⟩] ∧
      ¬ SameModule w.core := by
  obtain ⟨w, h, hsent, hprop, hentry, hconn⟩ : ∃ w, Runs.exec (step commandJson snapshotJson)
      World.start (forwardBetween "/database/subscribe/a" "/database/subscribe/b") = some w ∧
      w.sent = [⟨2, 0, .forwarder, "/database/subscribe/b", .binary [3], some 0⟩] ∧
      w.props 1 = some ⟨1, 1, 0, [3]⟩ ∧ w.entry 1 = some 0 ∧
      w.conns 1 = some ⟨1, "/database/subscribe/a", 0⟩ := Runs.exists_exec (by decide +kernel)
  refine ⟨w, h, hsent, ?_⟩
  intro hsame
  have hpath := hsame _ (hsent ▸ List.mem_singleton_self _) rfl 0 rfl 1 1 "a"
    ⟨_, _, hprop, rfl, rfl, hentry, hconn, by decide +kernel⟩
  exact absurd hpath (by decide +kernel)

end RaftTimeDB.Cluster
