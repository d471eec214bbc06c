import RaftTimeDB.Convergence

/-!
# A node catches up once a client has come

Whether the writes of other nodes reach the SpacetimeDB of a node is up to its forwarder, and the
forwarder starts with a wait: it has no database path before a client of the shard has connected on
this very node (`spawn_forwarder`, first loop).  Until then the writes stay on its channel.

* `knows` — the task has seen a path that is not empty, or is about to.
* `OwnMove` — a move of the node's own state machine or forwarder in which nothing fails.
* `foreign_writes_wait_for_client` — from every state, moves of this kind send the waiting foreign
  writes, all of them and in log order, if the task knows a path; if it does not, nothing is sent,
  whatever happens elsewhere, before a client's path reaches it.
* `databases_catch_up` — in a run without loss a node that knows a path and holds no write in a
  handler can by itself make its database the one the log stands for.
-/

set_option autoImplicit false

namespace RaftTimeDB

/-! ## Knowing a path -/

namespace Forwarder

/-- The task has seen, or sees next, a path that is not empty, and has not stopped. -/
def knows (f : Forwarder) : Bool :=
  match f.pc with
  | .waiting => f.changed && f.dbPath != ""
  | .stopped => false
  | _ => true

/-- A task without a path sends nothing and does not get one by itself. -/
theorem step_not_knows {nodeId : NodeId} {f : Forwarder} {queue : List ForwarderMsg}
    {event : ForwarderEvent} {r : ForwarderResult} (h : f.step nodeId queue event = some r)
    (hf : f.knows = false) : r.task.knows = false ∧ r.sent = none := by
  cases event with
  | recv sendOk =>
    obtain ⟨dbPath, msg, rest, hpc, -⟩ := step_recv_cases h
    rw [knows, hpc] at hf
    cases hf
  | pathChanged =>
    simp only [step] at h
    split at h
    · rename_i hguard
      cases h
      rw [knows, hguard.1, hguard.2, Bool.true_and] at hf
      simp only [bne_eq_false_iff_eq] at hf
      simp [knows, hf]
    · cases h
  | latch =>
    simp only [step] at h
    split at h
    · rename_i hpc
      rw [knows, hpc] at hf
      cases hf
    · cases h
  | connect ok =>
    simp only [step] at h
    split at h
    · rename_i dbPath hpc
      rw [knows, hpc] at hf
      cases hf
    · cases h
  | shutdown =>
    cases h
    exact ⟨rfl, rfl⟩

/-- A broadcast tells the task a path that is not empty. -/
theorem knows_broadcast {f : Forwarder} {path : String} (h : (f.broadcast path).knows = true) :
    path ≠ "" ∨ f.knows = true := by
  cases hpc : f.pc with
  | waiting =>
    rw [knows, broadcast, hpc, Bool.and_eq_true, bne_iff_ne] at h
    exact Or.inl h.2
  | stopped =>
    rw [knows, broadcast, hpc] at h
    cases h
  | gotPath | connecting dbPath | connected dbPath => exact Or.inr (by rw [knows, hpc])

theorem step_knows {nodeId : NodeId} {f : Forwarder} {queue : List ForwarderMsg}
    {event : ForwarderEvent} {r : ForwarderResult} (h : f.step nodeId queue event = some r)
    (hevent : event ≠ .shutdown) (hf : f.knows = true) : r.task.knows = true := by
  cases event with
  | recv sendOk =>
    obtain ⟨dbPath, msg, rest, hpc, -, -, hcases⟩ := step_recv_cases h
    rcases hcases with ⟨-, -, htask⟩ | ⟨-, -, htask, -⟩ | ⟨-, -, htask⟩ <;> rw [htask]
    · exact hf
    · rfl
    · exact hf
  | pathChanged =>
    simp only [step] at h
    split at h
    · rename_i hguard
      cases h
      rw [knows, hguard.1, hguard.2, Bool.true_and, bne_iff_ne] at hf
      simp [knows, hf]
    · cases h
  | latch =>
    simp only [step] at h
    split at h <;> cases h
    rfl
  | connect ok =>
    simp only [step] at h
    split at h <;> cases h
    cases ok <;> rfl
  | shutdown => exact absurd rfl hevent

/-- The task of a forwarder that knows a path is past the wait for it, or has it before it. -/
theorem knows_cases {f : Forwarder} (h : f.knows = true) :
    f.pc = .waiting ∧ f.changed = true ∧ f.dbPath ≠ "" ∨ f.pc = .gotPath ∨
      ∃ path, f.pc = .connecting path ∨ f.pc = .connected path := by
  cases hpc : f.pc with
  | waiting =>
    rw [knows, hpc, Bool.and_eq_true, bne_iff_ne] at h
    exact Or.inl ⟨rfl, h⟩
  | gotPath => exact Or.inr (Or.inl rfl)
  | connecting path => exact Or.inr (Or.inr ⟨path, Or.inl rfl⟩)
  | connected path => exact Or.inr (Or.inr ⟨path, Or.inr rfl⟩)
  | stopped =>
    rw [knows, hpc] at h
    cases h

end Forwarder

namespace Cluster

open JsonFormats (commandJson snapshotJson)

variable {J : CommandJson} {K : SnapshotCodec}

/-- A client of the shard has connected on the node, with a path. -/
def Core.HasClient (x : Core) (n : NodeId) (s : ShardId) : Prop :=
  ∃ c conn, x.conns c = some conn ∧ conn.node = n ∧ conn.shard = s ∧ conn.path ≠ ""

/-- A path reaches a forwarder only through a client of its shard on its node. -/
def Told (x : Core) : Prop :=
  ∀ n s, (x.state (n, s)).task.dbPath ≠ "" ∨ (x.state (n, s)).task.knows = true → x.HasClient n s

theorem Told.start : Told World.start.core := by
  intro n s h
  rcases h with h | h
  · exact absurd rfl h
  · cases h

/-- A move that loses no connection and keeps forwarder tasks. -/
theorem Told.mono {x x' : Core} (h : Told x)
    (hconns : ∀ c conn, x.conns c = some conn → x'.conns c = some conn)
    (htask : ∀ k, (x'.state k).task = (x.state k).task) : Told x' := by
  intro n s hpath
  rw [htask] at hpath
  obtain ⟨c, conn, hconn, hrest⟩ := h n s hpath
  exact ⟨c, conn, hconns c conn hconn, hrest⟩

theorem told_effect {w : World} {l : Label} {x : Core} (heff : Effect w l x) (h : Told w.core) :
    Told x := by
  cases heff with
  | @accept c n path hnew =>
    refine h.mono (fun c' conn hconn => ?_) fun _ => rfl
    have hc : c' ≠ c := by
      rintro rfl
      rw [show w.core.conns = w.conns from rfl, hnew] at hconn
      cases hconn
    exact (Function.update_of_ne hc _ _).trans hconn
  | @broadcast c conn hconn hpc =>
    intro n s hpath
    by_cases hk : (n, s) = (conn.node, conn.shard)
    · obtain ⟨rfl, rfl⟩ := Prod.mk.inj hk
      simp only [Function.update_self] at hpath
      rcases hpath with hne | hknows
      · exact ⟨c, conn, hconn, rfl, rfl, hne⟩
      · rcases Forwarder.knows_broadcast hknows with hne | hold
        · exact ⟨c, conn, hconn, rfl, rfl, hne⟩
        · exact h conn.node conn.shard (Or.inr hold)
    · simp only [Function.update_of_ne hk] at hpath
      exact h n s hpath
  | @advance _ n s st _ _ hst =>
    refine h.mono (fun _ _ hconn => hconn) fun k => ?_
    by_cases hk : k = (n, s)
    · subst hk
      simp only [Function.update_self]
      exact hst.task
    · simp only [Function.update_of_ne hk]
      rfl
  | @forward n s event queue r hqueue hr =>
    intro n' s' hpath
    by_cases hk : (n', s') = (n, s)
    · obtain ⟨rfl, rfl⟩ := Prod.mk.inj hk
      refine h n' s' ?_
      simp only [Function.update_self, (step_dbPath hr).1] at hpath
      refine hpath.imp_right fun hknows => ?_
      by_contra hold
      rw [(Forwarder.step_not_knows hr (Bool.eq_false_of_not_eq_true hold)).1] at hknows
      cases hknows
    · simp only [Function.update_of_ne hk] at hpath
      exact h n' s' hpath
  | _ => exact h.mono (fun _ _ hconn => hconn) fun _ => rfl

/-! ## Without a path -/

/-- A move that brings the forwarder no path: if it is a client's broadcast, then of another shard or
on another node, or of the empty path. -/
def NoPath (n : NodeId) (s : ShardId) (w : World) : Label → Prop
  | .broadcast c => ∀ conn, w.conns c = some conn → conn.node = n → conn.shard = s → conn.path = ""
  | _ => True

/-- A forwarder without a path, and what it has sent. -/
structure Stuck (n : NodeId) (s : ShardId) (sent : List Nat) (x : Core) : Prop where
  noPath : (x.state (n, s)).task.knows = false
  sent_eq : sentBy .forwarder n s x.sent = sent

/-- A forwarder without a path stays so and sends nothing, whatever the rest of the cluster does. -/
theorem stuck_effect {n : NodeId} {s : ShardId} {sent : List Nat} {w : World} {l : Label} {x : Core}
    (heff : Effect w l x) (hl : NoPath n s w l) (h : Stuck n s sent w.core) : Stuck n s sent x := by
  have hno : (w.state (n, s)).task.knows = false := h.noPath
  have hsent : sentBy .forwarder n s w.sent = sent := h.sent_eq
  cases heff with
  | @broadcast c conn hconn hpc =>
    refine ⟨?_, h.sent_eq⟩
    by_cases hk : (n, s) = (conn.node, conn.shard)
    · obtain ⟨rfl, rfl⟩ := Prod.mk.inj hk
      simp only [Function.update_self]
      by_contra hknows
      rcases Forwarder.knows_broadcast (Bool.eq_true_of_not_eq_false hknows) with hne | hold
      · exact hne (hl conn hconn rfl rfl)
      · rw [hno] at hold
        cases hold
    · simpa only [Function.update_of_ne hk] using hno
  | send hconn hpc =>
    refine ⟨hno, ?_⟩
    rw [sentBy_snoc, hsent]
    simp [Delivery.entryBy]
  | @advance _ n' s' st _ _ hst =>
    refine ⟨?_, h.sent_eq⟩
    by_cases hk : (n, s) = (n', s')
    · obtain ⟨rfl, rfl⟩ := Prod.mk.inj hk
      simpa only [Function.update_self, hst.task] using hno
    · simpa only [Function.update_of_ne hk] using hno
  | @forward n' s' event queue r hqueue hr =>
    by_cases hk : (n, s) = (n', s')
    · obtain ⟨rfl, rfl⟩ := Prod.mk.inj hk
      obtain ⟨hknows, hnone⟩ := Forwarder.step_not_knows hr hno
      refine ⟨by simpa only [Function.update_self] using hknows, ?_⟩
      rw [sentBy, List.filterMap_append, entryBy_deliveries, hnone, Option.toList_none, List.map_nil,
        ite_self, List.append_nil]
      exact hsent
    · have hk' : ¬ (n' = n ∧ s' = s) := by
        rintro ⟨rfl, rfl⟩
        exact hk rfl
      refine ⟨by simpa only [Function.update_of_ne hk] using hno, ?_⟩
      rw [sentBy, List.filterMap_append, entryBy_deliveries, if_neg hk', List.append_nil]
      exact hsent
  | _ => exact ⟨hno, hsent⟩

/-! ## With a path -/

/-- A forwarder event in which nothing fails. -/
def succeeds : ForwarderEvent → Bool
  | .connect ok | .recv ok => ok
  | .shutdown => false
  | .pathChanged | .latch => true

/-- A move of the node's own state machine or forwarder in which nothing fails. -/
def OwnMove (n : NodeId) (s : ShardId) : Label → Prop
  | .apply n' s' _ => n' = n ∧ s' = s
  | .forward n' s' event => n' = n ∧ s' = s ∧ succeeds event = true
  | _ => False

/-- The foreign writes that a node has yet to send: on the channel, or not applied. -/
def World.backlog (w : World) (n : NodeId) (s : ShardId) : List ForwarderMsg :=
  ((w.state (n, s)).queue ++ ((w.log s).drop (w.state (n, s)).applied).filterMap Entry.forward?).filter
    fun m => m.originNodeId ≠ n

section

variable {w w' : World} {n : NodeId} {s : ShardId} {queue : List ForwarderMsg}

/-- The rest of the cluster is left alone. -/
structure Undisturbed (w w' : World) : Prop where
  log : w'.log = w.log
  conns : w'.conns = w.conns
  pc : w'.pc = w.pc
  entry : w'.entry = w.entry

theorem own_undisturbed {l : Label} (hl : OwnMove n s l) (h : step J K w l = some w') :
    Undisturbed w w' := by
  cases l with
  | apply n' s' count =>
    cases h
    exact ⟨rfl, rfl, rfl, rfl⟩
  | forward n' s' event =>
    simp only [step] at h
    split at h
    · split at h
      · cases h
        exact ⟨rfl, rfl, rfl, rfl⟩
      · cases h
    · cases h
  | _ => exact hl.elim

theorem reaches_undisturbed (h : Runs.Reaches (step J K) (OwnMove n s) w w') : Undisturbed w w' := by
  refine h.inv (I := Undisturbed w) (fun v l v' hv hl hstep => ?_) ⟨rfl, rfl, rfl, rfl⟩
  have hnext := own_undisturbed hl hstep
  exact ⟨hnext.log.trans hv.log, hnext.conns.trans hv.conns, hnext.pc.trans hv.pc,
    hnext.entry.trans hv.entry⟩

theorem forward_step {event : ForwarderEvent} {r : ForwarderResult}
    (hqueue : (w.state (n, s)).stateMachine.forwarder = some queue)
    (hr : (w.state (n, s)).task.step n queue event = some r) :
    step J K w (.forward n s event) =
      some ((w.setState n s ((w.state (n, s)).after r)).deliver (deliveries n s r)) := by
  simp only [step, hqueue, hr]

/-- The forwarder can be connected by moves that touch nothing else. -/
def CanConnect (J : CommandJson) (K : SnapshotCodec) (n : NodeId) (s : ShardId) (w : World) : Prop :=
  ∃ w', Runs.Reaches (step J K) (OwnMove n s) w w' ∧
    (w'.state (n, s)).stateMachine = (w.state (n, s)).stateMachine ∧ w'.sent = w.sent ∧
    ∃ path, (w'.state (n, s)).task.pc = .connected path

/-- One event on the way to the connection. -/
theorem CanConnect.of_event (event : ForwarderEvent) (task : Forwarder)
    (hqueue : (w.state (n, s)).stateMachine.forwarder = some queue)
    (hr : (w.state (n, s)).task.step n queue event = some ⟨task, queue, none⟩)
    (hevent : succeeds event = true)
    (hrest : ∀ w₁ : World, w₁.state (n, s) = ⟨(w.state (n, s)).stateMachine, task⟩ →
      CanConnect J K n s w₁) : CanConnect J K n s w := by
  have hsame : (w.state (n, s)).after ⟨task, queue, none⟩ =
      ⟨(w.state (n, s)).stateMachine, task⟩ := by
    rw [ShardState.after, ← hqueue]
  have hstate : ((w.setState n s ((w.state (n, s)).after ⟨task, queue, none⟩)).deliver
      (deliveries n s ⟨task, queue, none⟩)).state (n, s) =
        ⟨(w.state (n, s)).stateMachine, task⟩ := by
    rw [← hsame]
    exact Function.update_self _ _ _
  obtain ⟨w', hreaches, hsm, hsent, hpath⟩ := hrest _ hstate
  refine ⟨w', .head (l := .forward n s event) ⟨rfl, rfl, hevent⟩ (forward_step hqueue hr) hreaches,
    ?_, ?_, hpath⟩
  · rw [hsm, hstate]
  · rw [hsent]
    exact List.append_nil _

theorem canConnect (hqueue : (w.state (n, s)).stateMachine.forwarder = some queue)
    (hknows : (w.state (n, s)).task.knows = true) : CanConnect J K n s w := by
  have hconnected : ∀ (w : World) (path : String), (w.state (n, s)).task.pc = .connected path →
      CanConnect J K n s w := fun w path hpc => ⟨w, .refl w, rfl, rfl, path, hpc⟩
  have hconnecting : ∀ (w : World) (path : String), (w.state (n, s)).task.pc = .connecting path →
      (w.state (n, s)).stateMachine.forwarder = some queue → CanConnect J K n s w := by
    intro w path hpc hqueue
    refine CanConnect.of_event (.connect true) { (w.state (n, s)).task with pc := .connected path }
      hqueue ?_ rfl fun w₁ h₁ => ?_
    · simp only [Forwarder.step, hpc, if_true]
    · exact hconnected w₁ path (by rw [h₁])
  have hgotPath : ∀ w : World, (w.state (n, s)).task.pc = .gotPath →
      (w.state (n, s)).stateMachine.forwarder = some queue → CanConnect J K n s w := by
    intro w hpc hqueue
    refine CanConnect.of_event .latch
      { (w.state (n, s)).task with pc := .connecting (w.state (n, s)).task.dbPath } hqueue ?_ rfl
      fun w₁ h₁ => ?_
    · simp only [Forwarder.step, hpc, if_true]
    · exact hconnecting w₁ _ (by rw [h₁]) (by rw [h₁]; exact hqueue)
  rcases Forwarder.knows_cases hknows with ⟨hpc, hchanged, hne⟩ | hpc | ⟨path, hpc | hpc⟩
  · refine CanConnect.of_event .pathChanged
      { (w.state (n, s)).task with pc := .gotPath, changed := false } hqueue ?_ rfl fun w₁ h₁ => ?_
    · simp only [Forwarder.step, hpc, hchanged, and_self, if_true, if_neg hne]
    · exact hgotPath w₁ (by rw [h₁]) (by rw [h₁]; exact hqueue)
  · exact hgotPath w hpc hqueue
  · exact hconnecting w path hpc hqueue
  · exact hconnected w path hpc

/-- **Draining the channel**: a connected forwarder can send the foreign messages on it, one after
the other. -/
theorem exists_drained {path : String} (hqueue : (w.state (n, s)).stateMachine.forwarder = some queue)
    (hpc : (w.state (n, s)).task.pc = .connected path) :
    ∃ w', Runs.Reaches (step J K) (OwnMove n s) w w' ∧ (w'.state (n, s)).queue = [] ∧
      (w'.state (n, s)).applied = (w.state (n, s)).applied ∧
      sentBy .forwarder n s w'.sent = sentBy .forwarder n s w.sent ++
        (queue.filter fun m => m.originNodeId ≠ n).map (·.logIndex) := by
  induction queue generalizing w with
  | nil => exact ⟨w, .refl w, by simp [ShardState.queue, hqueue], rfl, by simp⟩
  | cons m rest ih =>
    -- the task keeps its connection, whether it skips the message or sends it
    obtain ⟨sent, hr, hsent⟩ : ∃ sent, (w.state (n, s)).task.step n (m :: rest) (.recv true) =
          some ⟨(w.state (n, s)).task, rest, sent⟩ ∧
        sent.toList.map (·.2.logIndex) = ([m].filter fun m => m.originNodeId ≠ n).map (·.logIndex) := by
      by_cases horigin : m.originNodeId = n
      · exact ⟨none, by simp [Forwarder.step, hpc, horigin], by simp [horigin]⟩
      · exact ⟨some (path, m), by simp [Forwarder.step, hpc, horigin], by simp [horigin]⟩
    have hstate : ((w.setState n s ((w.state (n, s)).after ⟨(w.state (n, s)).task, rest, sent⟩)).deliver
        (deliveries n s ⟨(w.state (n, s)).task, rest, sent⟩)).state (n, s) =
          (w.state (n, s)).after ⟨(w.state (n, s)).task, rest, sent⟩ := Function.update_self _ _ _
    obtain ⟨w', hreaches, hempty, happlied, hlater⟩ := ih (by rw [hstate]) (by rw [hstate]; exact hpc)
    refine ⟨w', .head (l := .forward n s (.recv true)) ⟨rfl, rfl, rfl⟩ (forward_step hqueue hr) hreaches,
      hempty, ?_, ?_⟩
    · rw [happlied, hstate]
      rfl
    · rw [hlater, World.deliver, sentBy, List.filterMap_append, entryBy_deliveries,
        if_pos ⟨rfl, rfl⟩, hsent, List.append_assoc, ← List.map_append, ← List.filter_append]
      rfl

/-- **Catching up**: the state machine applies what is left of the log, and the forwarder connects
and drains its channel. -/
theorem exists_caught_up (hinv : Inv w)
    (hattached : (w.state (n, s)).stateMachine.forwarder.isSome = true)
    (hknows : (w.state (n, s)).task.knows = true) :
    ∃ w', Runs.Reaches (step J K) (OwnMove n s) w w' ∧
      (w.log s).length ≤ (w'.state (n, s)).applied ∧ (w'.state (n, s)).queue = [] ∧
      sentBy .forwarder n s w'.sent =
        sentBy .forwarder n s w.sent ++ (w.backlog n s).map (·.logIndex) := by
  obtain ⟨queue, hqueue⟩ := Option.isSome_iff_exists.mp hattached
  let w₁ := w.setState n s { w.state (n, s) with
    stateMachine := ((w.state (n, s)).stateMachine.apply J
      (((w.log s).drop (w.state (n, s)).applied).take (w.log s).length)).1 }
  have hstep : step J K w (.apply n s (w.log s).length) = some w₁ := rfl
  have hstate : w₁.state (n, s) = { w.state (n, s) with
      stateMachine := ((w.state (n, s)).stateMachine.apply J
        (((w.log s).drop (w.state (n, s)).applied).take (w.log s).length)).1 } :=
    Function.update_self _ _ _
  have hall : ((w.log s).drop (w.state (n, s)).applied).take (w.log s).length =
      (w.log s).drop (w.state (n, s)).applied :=
    List.take_of_length_le (by rw [List.length_drop]; omega)
  have happlied := applied_apply hinv hstate
  rw [hall, List.length_drop] at happlied
  have hqueue₁ : (w₁.state (n, s)).stateMachine.forwarder =
      some (queue ++ ((w.log s).drop (w.state (n, s)).applied).filterMap Entry.forward?) := by
    rw [hstate, StateMachineStore.apply_spec, hall]
    simp only [hqueue, Option.map_some]
  have hknows₁ : (w₁.state (n, s)).task.knows = true := by
    rw [hstate]
    exact hknows
  obtain ⟨w₂, hreaches₂, hsm, hsent₂, path, hpc⟩ := canConnect (J := J) (K := K) hqueue₁ hknows₁
  obtain ⟨w₃, hreaches₃, hempty, happlied₃, hsent₃⟩ :=
    exists_drained (J := J) (K := K) (by rw [hsm]; exact hqueue₁) hpc
  refine ⟨w₃, .head (l := .apply n s (w.log s).length) ⟨rfl, rfl⟩ hstep (hreaches₂.trans hreaches₃),
    ?_, hempty, ?_⟩
  · rw [happlied₃, ShardState.applied, hsm, ← ShardState.applied, happlied]
    omega
  · rw [hsent₃, hsent₂, World.backlog, ShardState.queue, hqueue]
    rfl

end

/-! ## Several nodes -/

/-- A node that can catch up by itself: its forwarder is attached and knows a path, and no handler
holds a committed write. -/
structure Ready (n : NodeId) (s : ShardId) (w : World) : Prop where
  attached : (w.state (n, s)).stateMachine.forwarder.isSome = true
  knows : (w.state (n, s)).task.knows = true
  free : ∀ c j, ¬ w.core.Holds c n s j

section

variable {w w' : World} {l : Label} {n n' : NodeId} {s s' : ShardId} {k : Nat}

theorem Undisturbed.holds (h : Undisturbed w w') {c j : Nat} (hheld : w'.core.Holds c n s j) :
    w.core.Holds c n s j := by
  obtain ⟨conn, p, hconn, hnode, hshard, hp, hentry⟩ := hheld
  refine ⟨conn, p, ?_, hnode, hshard, ?_, ?_⟩
  · exact (congrFun h.conns c).symm.trans hconn
  · exact (congrArg InboundPc.holds (congrFun h.pc c)).symm.trans hp
  · exact (congrFun h.entry p).symm.trans hentry

/-- What an own move of a node does to the state of a shard. -/
theorem own_state (hl : OwnMove n' s' l) (h : step J K w l = some w') (n : NodeId) (s : ShardId) :
    w'.state (n, s) = w.state (n, s) ∨ n = n' ∧ s = s' ∧
      ((∃ count, w'.state (n, s) =
        { w.state (n, s) with
          stateMachine := ((w.state (n, s)).stateMachine.apply J
            (((w.log s).drop (w.state (n, s)).applied).take count)).1 }) ∨
      ∃ queue event r, (w.state (n, s)).stateMachine.forwarder = some queue ∧
        (w.state (n, s)).task.step n queue event = some r ∧ succeeds event = true ∧
        w'.state (n, s) = (w.state (n, s)).after r) := by
  by_cases hk : (n, s) = (n', s')
  · obtain ⟨rfl, rfl⟩ := Prod.mk.inj hk
    refine Or.inr ⟨rfl, rfl, ?_⟩
    cases l with
    | apply n' s' count =>
      obtain ⟨rfl, rfl⟩ := hl
      cases h
      exact Or.inl ⟨count, Function.update_self _ _ _⟩
    | forward n' s' event =>
      obtain ⟨rfl, rfl, hevent⟩ := hl
      simp only [step] at h
      split at h
      · rename_i queue hqueue
        split at h
        · rename_i r hr
          cases h
          exact Or.inr ⟨queue, event, r, hqueue, hr, hevent, Function.update_self _ _ _⟩
        · cases h
      · cases h
    | _ => exact hl.elim
  · refine Or.inl ?_
    cases l with
    | apply n' s' count =>
      obtain ⟨rfl, rfl⟩ := hl
      cases h
      exact Function.update_of_ne hk _ _
    | forward n' s' event =>
      obtain ⟨rfl, rfl, hevent⟩ := hl
      simp only [step] at h
      split at h
      · split at h
        · cases h
          exact Function.update_of_ne hk _ _
        · cases h
      · cases h
    | _ => exact hl.elim

theorem own_ready (hl : OwnMove n' s' l) (h : step J K w l = some w') (hready : Ready n s w) :
    Ready n s w' := by
  have hfree : ∀ c j, ¬ w'.core.Holds c n s j :=
    fun c j hheld => hready.free c j ((own_undisturbed hl h).holds hheld)
  rcases own_state hl h n s with hsame | ⟨-, -, ⟨count, hstate⟩ | ⟨queue, event, r, -, hr, hevent, hstate⟩⟩
  · exact ⟨by rw [hsame]; exact hready.attached, by rw [hsame]; exact hready.knows, hfree⟩
  · refine ⟨?_, by rw [hstate]; exact hready.knows, hfree⟩
    rw [hstate, StateMachineStore.apply_spec, Option.isSome_map]
    exact hready.attached
  · refine ⟨by rw [hstate]; rfl, ?_, hfree⟩
    rw [hstate]
    refine Forwarder.step_knows hr ?_ hready.knows
    rintro rfl
    cases hevent

/-- A node that is past a position stays past it. -/
theorem own_passed (hinv : Inv w) (hl : OwnMove n' s' l) (h : step J K w l = some w')
    (hpassed : w.core.Passed n s k) : w'.core.Passed n s k := by
  have happlied : k ≤ (w.state (n, s)).applied := hpassed.applied
  have hheld : ∀ c j, w'.core.Holds c n s j → k ≤ j :=
    fun c j hheld => hpassed.held c j ((own_undisturbed hl h).holds hheld)
  rcases own_state hl h n s with hsame | ⟨-, -, ⟨count, hstate⟩ | ⟨queue, event, r, hqueue, hr, -, hstate⟩⟩
  · refine ⟨?_, ?_, hheld⟩ <;> rw [show w'.core.state = w'.state from rfl, hsame]
    · exact happlied
    · exact hpassed.queue
  · have hadvance := advance_apply (J := J) ⟨w.log s, hinv.net.index s⟩ (w.state (n, s)) count
    rw [← hstate] at hadvance
    obtain ⟨new, hnew, -, hmem⟩ := hadvance.queue
    refine ⟨happlied.trans hadvance.applied, ?_, hheld⟩
    intro m hm hne
    rw [show w'.core.state = w'.state from rfl, hnew] at hm
    rcases List.mem_append.mp hm with hold | hlater
    · exact hpassed.queue m hold hne
    · exact happlied.trans (hmem m hlater).1
  · refine ⟨?_, ?_, hheld⟩
    · rw [show w'.core.state = w'.state from rfl, hstate]
      exact happlied
    · intro m hm hne
      refine hpassed.queue m ?_ hne
      rw [show w'.core.state = w'.state from rfl, hstate] at hm
      have hm : m ∈ r.queue := hm
      rw [show w.core.state = w.state from rfl, ShardState.queue, hqueue, Option.getD_some]
      rcases Forwarder.step_queue hr with ⟨hsame, -⟩ | ⟨msg, hcons, -⟩
      · rwa [← hsame]
      · rw [hcons]
        exact List.mem_cons_of_mem _ hm

/-- Own moves of attached nodes are moves at which nothing goes wrong. -/
theorem own_smooth {home : ShardId → String} (hl : OwnMove n s l) (hready : Ready n s w) :
    Smooth K home w l := by
  cases l with
  | apply n' s' count =>
    obtain ⟨rfl, rfl⟩ := hl
    exact ⟨trivial, losesNoWrite_of_ne rfl (by simp), Or.inl hready.attached, trivial⟩
  | forward n' s' event =>
    obtain ⟨rfl, rfl, hevent⟩ := hl
    refine ⟨trivial, losesNoWrite_of_ne rfl (by simp), ?_, trivial⟩
    cases event with
    | recv ok =>
      obtain rfl : ok = true := hevent
      trivial
    | _ => trivial
  | _ => exact hl.elim

/-- A ready node can get past the whole log. -/
theorem exists_passed (hinv : Inv w) (hready : Ready n s w) :
    ∃ w', Runs.Reaches (step J K) (OwnMove n s) w w' ∧ w'.core.Passed n s (w.log s).length := by
  obtain ⟨w', hreaches, happlied, hempty, -⟩ :=
    exists_caught_up (J := J) (K := K) hinv hready.attached hready.knows
  refine ⟨w', hreaches, happlied, ?_, ?_⟩
  · intro m hm
    rw [show w'.core.state = w'.state from rfl, hempty] at hm
    cases hm
  · intro c j hheld
    exact absurd ((reaches_undisturbed hreaches).holds hheld) (hready.free c j)

/-- **One replica after the other**: the moves of one neither disturb the others nor take back what they
have reached. -/
theorem exists_all_passed {ks : List (NodeId × ShardId)} (hinv : Inv w)
    (hready : ∀ k ∈ ks, Ready k.1 k.2 w) :
    ∃ w', Runs.Reaches (step J K) (fun l => ∃ k ∈ ks, OwnMove k.1 k.2 l) w w' ∧ w'.log = w.log ∧
      ∀ k ∈ ks, w'.core.Passed k.1 k.2 (w.log k.2).length := by
  induction ks generalizing w with
  | nil => exact ⟨w, .refl w, rfl, fun k hk => by cases hk⟩
  | cons k ks ih =>
    obtain ⟨w₁, hreaches₁, hpassed₁⟩ :=
      exists_passed (J := J) (K := K) hinv (hready k List.mem_cons_self)
    have hlog₁ := (reaches_undisturbed hreaches₁).log
    have hinv₁ : Inv w₁ := hreaches₁.inv (fun _ _ _ hv _ hstep => step_inv hv hstep) hinv
    have hready₁ : ∀ k' ∈ ks, Ready k'.1 k'.2 w₁ := fun k' hk' =>
      hreaches₁.inv (fun _ _ _ hv hl hstep => own_ready hl hstep hv)
        (hready k' (List.mem_cons_of_mem _ hk'))
    obtain ⟨w₂, hreaches₂, hlog₂, hpassed₂⟩ := ih hinv₁ hready₁
    refine ⟨w₂, (hreaches₁.mono fun l hl => ⟨k, List.mem_cons_self, hl⟩).trans
      (hreaches₂.mono fun l ⟨k', hk', hl⟩ => ⟨k', List.mem_cons_of_mem _ hk', hl⟩),
      hlog₂.trans hlog₁, ?_⟩
    intro k' hk'
    rcases List.mem_cons.mp hk' with rfl | hrest
    · have hkept : Inv w₂ ∧ w₂.core.Passed k'.1 k'.2 (w.log k'.2).length :=
        hreaches₂.inv (I := fun v => Inv v ∧ v.core.Passed k'.1 k'.2 (w.log k'.2).length)
          (fun _ _ _ hv ⟨_, _, hl⟩ hstep => ⟨step_inv hv.1 hstep, own_passed hv.1 hl hstep hv.2⟩)
          ⟨hinv₁, hpassed₁⟩
      exact hkept.2
    · rw [← hlog₁]
      exact hpassed₂ k' hrest

end

/-! ## Main results -/

/-- **Foreign writes wait for a client.**  In every reachable state of the cluster, for every node
and shard:
* the forwarder knows a path only if a client of the shard has connected on this node;
* if it knows one and is attached, then moves of the node alone can send all foreign writes that are
  on its channel or not applied, and nothing else, and all that it has sent then is in log order;
* if it does not, then it sends nothing in any run, of all nodes and clients, in which no client's
  path reaches it. -/
theorem foreign_writes_wait_for_client {labels : List Label} {w : World}
    (h : Runs.exec (step J K) World.start labels = some w) (n : NodeId) (s : ShardId) :
    ((w.state (n, s)).task.knows = true → w.core.HasClient n s) ∧
    ((w.state (n, s)).task.knows = true →
      (w.state (n, s)).stateMachine.forwarder.isSome = true →
      ∃ w', Runs.Reaches (step J K) (OwnMove n s) w w' ∧ w'.log = w.log ∧
        (w.log s).length ≤ (w'.state (n, s)).applied ∧ (w'.state (n, s)).queue = [] ∧
        sentBy .forwarder n s w'.sent =
          sentBy .forwarder n s w.sent ++ (w.backlog n s).map (·.logIndex) ∧
        (sentBy .forwarder n s w'.sent).Pairwise (· < ·)) ∧
    ((w.state (n, s)).task.knows = false →
      ∀ ls w', Runs.Along (step J K) (NoPath n s) w ls → Runs.exec (step J K) w ls = some w' →
        sentBy .forwarder n s w'.sent = sentBy .forwarder n s w.sent) := by
  have hinv := exec_inv h
  refine ⟨fun hknows => ?_, fun hknows hattached => ?_, fun hknows ls w' hls hexec => ?_⟩
  · have htold : Inv w ∧ Told w.core := by
      refine Runs.exec_inv (I := fun w => Inv w ∧ Told w.core) ?_ ⟨Inv.start, Told.start⟩ h
      intro v l v' hv hstep
      exact ⟨step_inv hv.1 hstep, told_effect (step_effect hv.1.net hstep) hv.2⟩
    exact htold.2 n s (Or.inr hknows)
  · obtain ⟨w', hreaches, happlied, hempty, hsent⟩ :=
      exists_caught_up (J := J) (K := K) hinv hattached hknows
    have hinv' : Inv w' := hreaches.inv (fun _ _ _ hv _ hstep => step_inv hv hstep) hinv
    have hordered := (List.pairwise_append.mp (hinv'.forwarders.increasing n s)).1
    exact ⟨w', hreaches, (reaches_undisturbed hreaches).log, happlied, hempty, hsent, hordered⟩
  · have hstuck : Inv w' ∧ Stuck n s (sentBy .forwarder n s w.sent) w'.core := by
      refine Runs.exec_inv_along
        (I := fun v => Inv v ∧ Stuck n s (sentBy .forwarder n s w.sent) v.core) ?_
        ⟨hinv, hknows, rfl⟩ hls hexec
      intro v l v' hv hl hstep
      exact ⟨step_inv hv.1 hstep, stuck_effect (step_effect hv.1.net hstep) hl hv.2⟩
    exact hstuck.2.sent_eq

/-- A client of node 1 writes; node 2 has no client. -/
def lonelyReplica : List Label :=
  List.flatten
    [[.attach 1 0, .attach 2 0], connect 1 1 "/database/subscribe/m",
      [.recv 1 (.binary [3, 7]) 1, .commit 1 ⟨1, 1⟩, .clientWrite 1 .ok, .send 1 true, .apply 1 0 1,
        .apply 2 0 1]]

/-- **A node without clients is left behind**: it has applied the write, and its SpacetimeDB does not
get it. -/
theorem node_without_clients_left_behind :
    ∃ w, Runs.exec (step commandJson snapshotJson) World.start lonelyReplica = some w ∧
      (w.state (2, 0)).applied = 1 ∧ w.backlog 2 0 = [⟨0, 1, [3, 7]⟩] ∧
      ∀ ls w', Runs.Along (step commandJson snapshotJson) (NoPath 2 0) w ls →
        Runs.exec (step commandJson snapshotJson) w ls = some w' →
        sentBy .forwarder 2 0 w'.sent = [] := by
  obtain ⟨w, h, happlied, hbacklog, hknows, hsent⟩ : ∃ w,
      Runs.exec (step commandJson snapshotJson) World.start lonelyReplica = some w ∧
      (w.state (2, 0)).applied = 1 ∧ w.backlog 2 0 = [⟨0, 1, [3, 7]⟩] ∧
      (w.state (2, 0)).task.knows = false ∧ sentBy .forwarder 2 0 w.sent = [] :=
    Runs.exists_exec (by decide +kernel)
  obtain ⟨-, -, hstuck⟩ := foreign_writes_wait_for_client h 2 0
  refine ⟨w, h, happlied, hbacklog, fun ls w' hls hexec => ?_⟩
  rw [hstuck hknows ls w' hls hexec, hsent]

/-- **The databases catch up.**  Let every shard have a module of its own.  In every state of a run in
which nothing went wrong, any replicas (a node and a shard each) that are ready can by their own moves
alone, again without anything going wrong, make their databases the ones the logs stand for, whatever the
reducers do; so replicas of one shard are equal. -/
theorem databases_catch_up {home : ShardId → String} (hhome : Function.Injective home)
    {labels : List Label} {w : World}
    (hsmooth : Runs.Along (step J K) (Smooth K home) World.start labels)
    (h : Runs.exec (step J K) World.start labels = some w) {ks : List (NodeId × ShardId)}
    (hready : ∀ k ∈ ks, Ready k.1 k.2 w) :
    ∃ ls w', (∀ l ∈ ls, ∃ k ∈ ks, OwnMove k.1 k.2 l) ∧
      Runs.Along (step J K) (Smooth K home) World.start (labels ++ ls) ∧
      Runs.exec (step J K) World.start (labels ++ ls) = some w' ∧ w'.log = w.log ∧
      ∀ k ∈ ks, ∀ (D : Type) (reduce : D → Bytes → D) (init : D),
        database reduce init k.1 (home k.2) w'.sent = image reduce init (w.log k.2) := by
  obtain ⟨w', ⟨ls, hls, hexec⟩, hlog, hpassed⟩ :=
    exists_all_passed (J := J) (K := K) (exec_inv h) hready
  have hrest : Runs.Along (step J K) (Smooth K home) w ls := by
    refine Runs.along_of_moves (I := fun v => ∀ k ∈ ks, Ready k.1 k.2 v) ?_ ?_ hready hls
    · intro v l v' hv hl hstep k hk
      obtain ⟨k', _, hl⟩ := hl
      exact own_ready hl hstep (hv k hk)
    · intro v l hv hl
      obtain ⟨k', hk', hl⟩ := hl
      exact own_smooth hl (hv k' hk')
  have hsmooth' : Runs.Along (step J K) (Smooth K home) World.start (labels ++ ls) := by
    refine hsmooth.append fun t ht => ?_
    obtain rfl : w = t := Option.some.inj (h.symm.trans ht)
    exact hrest
  have hexec' := Runs.exec_append_some.mpr ⟨w, h, hexec⟩
  refine ⟨ls, w', hls, hsmooth', hexec', hlog, ?_⟩
  intro k hk D reduce init
  rw [← hlog]
  refine database_of_passed (smooth_exec hsmooth' hexec') hhome reduce init ?_
  rw [hlog]
  exact hpassed k hk

/-- Both nodes catch up on both shards. -/
theorem two_databases_catch_up :
    ∃ w, Runs.exec (step commandJson snapshotJson) World.start (proposeShared ++ spreadShared) = some w ∧
      ∃ ls w', (∀ l ∈ ls, ∃ k ∈ sharedReplicas, OwnMove k.1 k.2 l) ∧
        Runs.exec (step commandJson snapshotJson) World.start (proposeShared ++ spreadShared ++ ls) =
          some w' ∧
        ∀ n ∈ [1, 2], database (fun db data => db ++ [data]) [] n "m" w'.sent = [[3, 7]] ∧
          database (fun db data => db ++ [data]) [] n "mm" w'.sent = [[3, 8]] := by
  obtain ⟨w, h, hspread, htasks⟩ :
      ∃ w, Runs.exec (step commandJson snapshotJson) World.start (proposeShared ++ spreadShared) = some w ∧
      SharedSpread w ∧
      ∀ k ∈ sharedReplicas, (w.state k).stateMachine.forwarder.isSome = true ∧
        (w.state k).task.knows = true :=
    Runs.exists_exec (by decide +kernel)
  obtain ⟨hlog₀, hlog₁⟩ := hspread.logs
  have hready : ∀ k ∈ sharedReplicas, Ready k.1 k.2 w := by
    intro k hk
    have hs : ∀ k ∈ sharedReplicas, k.2 ∈ [0, 1] := by decide
    exact ⟨(htasks k hk).1, (htasks k hk).2, hspread.free (exec_inv h) (hs k hk) k.1⟩
  have hsmooth : Runs.Along (step commandJson snapshotJson) (Smooth snapshotJson ownModule)
      World.start (proposeShared ++ spreadShared) := by
    have hall := shared_smooth
    rw [← List.append_assoc] at hall
    exact hall.left
  obtain ⟨ls, w', hls, -, hexec, -, hdatabase⟩ :=
    databases_catch_up ownModule_injective hsmooth h hready
  refine ⟨w, h, ls, w', hls, hexec, fun n hn => ⟨?_, ?_⟩⟩
  · rw [show "m" = ownModule 0 from rfl, hdatabase _ (mem_sharedReplicas hn (by simp)), hlog₀]
    rfl
  · rw [show "mm" = ownModule 1 from rfl, hdatabase _ (mem_sharedReplicas hn (by simp)), hlog₁]
    rfl

end Cluster

end RaftTimeDB
