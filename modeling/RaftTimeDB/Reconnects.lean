import RaftTimeDB.Forwarder
import RaftTimeDB.Lib.Runs

/-!
# Delivery over reconnects

One forwarder task with its channel, from its spawning to any point before a shutdown signal: messages
are put on the channel, database paths are broadcast, and every connect and every send has an outcome of
the environment's choice.  A failed send delivers nothing.

* `put` and `delivered` record what went in and what came out over all connections.
* `lost` records the message in hand when a send fails: the inner loop breaks, and the task connects
  again without it.

Principal result: `reconnects_deliver_all` — as long as no send of another node's message fails, the idle
task has delivered exactly the other nodes' messages, in order; and only then.
-/

set_option autoImplicit false

namespace RaftTimeDB.Reconnects

structure World where
  task : Forwarder
  queue : List ForwarderMsg
  put : List ForwarderMsg
  delivered : List (String × ForwarderMsg)
  lost : List ForwarderMsg
  deriving DecidableEq

inductive Label where
  | put (msg : ForwarderMsg)
  | broadcast (path : String)
  | event (ev : ForwarderEvent)
  deriving DecidableEq

def World.start : World := ⟨Forwarder.spawn, [], [], [], []⟩

/-- The message a failed send drops: the first one of another node, while connected. -/
def World.droppedBy (nodeId : NodeId) (w : World) : ForwarderEvent → List ForwarderMsg
  | .recv false => w.queue.head?.toList.filter fun msg => decide (msg.originNodeId ≠ nodeId)
  | _ => []

/-- One move before any shutdown. -/
def step (nodeId : NodeId) (w : World) : Label → Option World
  | .put msg => some { w with queue := w.queue ++ [msg], put := w.put ++ [msg] }
  | .broadcast path => some { w with task := w.task.broadcast path }
  | .event ev =>
      if ev = .shutdown then none
      else
        (w.task.step nodeId w.queue ev).map fun r =>
          { w with
            task := r.task
            queue := r.queue
            delivered := w.delivered ++ r.sent.toList
            lost := w.lost ++ w.droppedBy nodeId ev }

/-- The messages of other nodes. -/
def foreign (nodeId : NodeId) (msgs : List ForwarderMsg) : List ForwarderMsg :=
  msgs.filter fun msg => decide (msg.originNodeId ≠ nodeId)

/-- Connected, with an empty channel: the task waits for the next message. -/
def World.Idle (w : World) : Prop := (∃ dbPath, w.task.pc = .connected dbPath) ∧ w.queue = []

/-- The idle task has delivered the other nodes' messages, in channel order, each once. -/
def Relayed (nodeId : NodeId) (w : World) : Prop :=
  w.Idle → w.delivered.map Prod.snd = foreign nodeId w.put

/-- The move is not a failed send of another node's message. -/
def NoFailedSend (nodeId : NodeId) (w : World) : Label → Prop
  | .event (.recv false) => ∀ msg, w.queue.head? = some msg → msg.originNodeId = nodeId
  | _ => True

section Steps

variable {nodeId : NodeId} {w w' : World} {l : Label}

theorem foreign_append (msgs msgs' : List ForwarderMsg) :
    foreign nodeId (msgs ++ msgs') = foreign nodeId msgs ++ foreign nodeId msgs' :=
  List.filter_append ..

/-- What went out did not fail. -/
theorem sendOk_of_sent {f : Forwarder} {queue : List ForwarderMsg} {sendOk : Bool}
    {r : ForwarderResult} {out : String × ForwarderMsg}
    (h : f.step nodeId queue (.recv sendOk) = some r) (hsent : r.sent = some out) :
    sendOk = true := by
  cases sendOk with
  | true => rfl
  | false =>
    simp only [Forwarder.step] at h
    split at h
    · split at h
      · cases h
        cases hsent
      · simp only [Bool.false_eq_true, if_false, Option.some.injEq] at h
        subst h
        cases hsent
    · cases h

/-- **What a move does** to the messages: one is put on the channel, nothing happens, or the first
one leaves the channel — skipped, delivered, or lost with a failed send. -/
theorem step_cases (h : step nodeId w l = some w') :
    (∃ msg, l = .put msg ∧ w'.queue = w.queue ++ [msg] ∧ w'.put = w.put ++ [msg] ∧
      w'.delivered = w.delivered ∧ w'.lost = w.lost) ∨
    (w'.queue = w.queue ∧ w'.put = w.put ∧ w'.delivered = w.delivered ∧ w'.lost = w.lost ∧
      NoFailedSend nodeId w l) ∨
    ∃ msg sendOk, l = .event (.recv sendOk) ∧ w.queue = msg :: w'.queue ∧ w'.put = w.put ∧
      ((msg.originNodeId = nodeId ∧ w'.delivered = w.delivered ∧ w'.lost = w.lost) ∨
       (msg.originNodeId ≠ nodeId ∧ w'.delivered = w.delivered ∧ sendOk = false ∧
         w'.lost = w.lost ++ [msg]) ∨
       (msg.originNodeId ≠ nodeId ∧ sendOk = true ∧ w'.lost = w.lost ∧
         ∃ dbPath, w'.delivered = w.delivered ++ [(dbPath, msg)])) := by
  cases l with
  | put msg =>
    simp only [step, Option.some.injEq] at h
    subst h
    exact .inl ⟨msg, rfl, rfl, rfl, rfl, rfl⟩
  | broadcast path =>
    simp only [step, Option.some.injEq] at h
    subst h
    exact .inr (.inl ⟨rfl, rfl, rfl, rfl, trivial⟩)
  | event ev =>
    simp only [step] at h
    split at h
    · cases h
    obtain ⟨r, hr, rfl⟩ := Option.map_eq_some_iff.mp h
    by_cases hev : ∃ sendOk, ev = .recv sendOk
    · obtain ⟨sendOk, rfl⟩ := hev
      obtain ⟨dbPath, msg, rest, -, hqueue, hrest, hcases⟩ := Forwarder.step_recv_cases hr
      refine .inr (.inr ⟨msg, sendOk, rfl, by rw [hqueue, hrest], rfl, ?_⟩)
      rcases hcases with ⟨horigin, hsent, -⟩ | ⟨horigin, hsent, -, hfail⟩ | ⟨horigin, hsent, htask⟩
      · refine .inl ⟨horigin, by simp [hsent], ?_⟩
        cases sendOk <;> simp [World.droppedBy, hqueue, horigin]
      · subst hfail
        refine .inr (.inl ⟨horigin, by simp [hsent], rfl, ?_⟩)
        simp [World.droppedBy, hqueue, horigin]
      · have hok := sendOk_of_sent hr hsent
        subst hok
        exact .inr (.inr ⟨horigin, rfl, by simp [World.droppedBy], dbPath, by simp [hsent]⟩)
    · obtain ⟨hqueue, hsent⟩ := Forwarder.step_other hr fun sendOk heq => hev ⟨sendOk, heq⟩
      have hdropped : w.droppedBy nodeId ev = [] := by
        cases ev with
        | recv sendOk => exact absurd ⟨sendOk, rfl⟩ hev
        | _ => rfl
      have hno : NoFailedSend nodeId w (.event ev) := by
        cases ev with
        | recv sendOk => exact absurd ⟨sendOk, rfl⟩ hev
        | _ => trivial
      exact .inr (.inl ⟨hqueue, rfl, by simp [hsent], by simp [hdropped], hno⟩)

/-- A move loses nothing exactly when it is not a failed send of another node's message. -/
theorem step_lost_iff (h : step nodeId w l = some w') :
    w'.lost = [] ↔ w.lost = [] ∧ NoFailedSend nodeId w l := by
  rcases step_cases h with ⟨msg, rfl, -, -, -, hlost⟩ | ⟨-, -, -, hlost, hno⟩ |
    ⟨msg, sendOk, rfl, hqueue, -, hcases⟩
  · rw [hlost]
    exact (and_iff_left trivial).symm
  · rw [hlost]
    exact (and_iff_left hno).symm
  · rcases hcases with ⟨horigin, -, hlost⟩ | ⟨horigin, -, rfl, hlost⟩ | ⟨-, rfl, hlost, -⟩
    · have hno : NoFailedSend nodeId w (.event (.recv sendOk)) := by
        cases sendOk with
        | true => trivial
        | false =>
          intro msg' hhead
          rw [hqueue, List.head?_cons, Option.some.injEq] at hhead
          rw [← hhead]
          exact horigin
      rw [hlost]
      exact (and_iff_left hno).symm
    · rw [hlost]
      constructor
      · intro hnil
        simp at hnil
      · rintro ⟨-, hno⟩
        exact absurd (hno msg (by rw [hqueue, List.head?_cons])) horigin
    · rw [hlost]
      exact (and_iff_left trivial).symm

/-- Every message of another node is delivered, lost or still in the channel. -/
def Accounted (nodeId : NodeId) (w : World) : Prop :=
  (foreign nodeId w.put).length =
    w.delivered.length + w.lost.length + (foreign nodeId w.queue).length

/-- The delivered messages, then those still in the channel, are those that were put there. -/
def InOrder (nodeId : NodeId) (w : World) : Prop :=
  w.delivered.map Prod.snd ++ foreign nodeId w.queue = foreign nodeId w.put

theorem foreign_cons_own {msg : ForwarderMsg} (h : msg.originNodeId = nodeId)
    (msgs : List ForwarderMsg) : foreign nodeId (msg :: msgs) = foreign nodeId msgs :=
  List.filter_cons_of_neg (by simp [h])

theorem foreign_cons_other {msg : ForwarderMsg} (h : msg.originNodeId ≠ nodeId)
    (msgs : List ForwarderMsg) : foreign nodeId (msg :: msgs) = msg :: foreign nodeId msgs :=
  List.filter_cons_of_pos (by simp [h])

theorem accounted_step (hI : Accounted nodeId w) (h : step nodeId w l = some w') :
    Accounted nodeId w' := by
  unfold Accounted at hI ⊢
  rcases step_cases h with ⟨msg, -, hqueue, hput, hdel, hlost⟩ | ⟨hqueue, hput, hdel, hlost, -⟩ |
    ⟨msg, sendOk, -, hqueue, hput, hcases⟩
  · rw [hqueue, hput, hdel, hlost, foreign_append, foreign_append, List.length_append,
      List.length_append]
    omega
  · rw [hqueue, hput, hdel, hlost]
    exact hI
  · rw [hqueue] at hI
    rcases hcases with ⟨horigin, hdel, hlost⟩ | ⟨horigin, hdel, -, hlost⟩ |
      ⟨horigin, -, hlost, dbPath, hdel⟩
    · rw [foreign_cons_own horigin] at hI
      rw [hput, hdel, hlost]
      exact hI
    · rw [foreign_cons_other horigin, List.length_cons] at hI
      rw [hput, hdel, hlost, List.length_append, List.length_singleton]
      omega
    · rw [foreign_cons_other horigin, List.length_cons] at hI
      rw [hput, hdel, hlost, List.length_append, List.length_singleton]
      omega

theorem inOrder_step (hI : InOrder nodeId w) (hl : NoFailedSend nodeId w l)
    (h : step nodeId w l = some w') : InOrder nodeId w' := by
  unfold InOrder at hI ⊢
  rcases step_cases h with ⟨msg, -, hqueue, hput, hdel, -⟩ | ⟨hqueue, hput, hdel, -, -⟩ |
    ⟨msg, sendOk, rfl, hqueue, hput, hcases⟩
  · rw [hqueue, hput, hdel, foreign_append, foreign_append, ← hI, List.append_assoc]
  · rw [hqueue, hput, hdel]
    exact hI
  · rw [hqueue] at hI
    rcases hcases with ⟨horigin, hdel, -⟩ | ⟨horigin, -, rfl, -⟩ | ⟨horigin, -, -, dbPath, hdel⟩
    · rw [foreign_cons_own horigin] at hI
      rw [hput, hdel]
      exact hI
    · exact absurd (hl msg (by rw [hqueue, List.head?_cons])) horigin
    · rw [foreign_cons_other horigin] at hI
      rw [hput, hdel, List.map_append, List.append_assoc]
      exact hI

end Steps

/-! ## Runs -/

/-- In order means relayed: the idle task has nothing in its channel. -/
theorem InOrder.relayed {nodeId : NodeId} {w : World} (h : InOrder nodeId w) :
    Relayed nodeId w := by
  rintro ⟨-, hempty⟩
  rw [InOrder, hempty] at h
  exact (List.append_nil _).symm.trans h

/-- **Delivery over reconnects.**  In a run in which no send of another node's message fails, the
task has, whenever it is idle, delivered exactly the other nodes' messages, in channel order, each
once.  In every other run that ends idle it has not. -/
theorem reconnects_deliver_all (nodeId : NodeId) {labels : List Label} {w : World}
    (h : Runs.exec (step nodeId) World.start labels = some w) :
    (Runs.Along (step nodeId) (NoFailedSend nodeId) World.start labels →
      Runs.Throughout (step nodeId) (Relayed nodeId) World.start labels) ∧
    (w.Idle →
      (w.delivered.map Prod.snd = foreign nodeId w.put ↔
        Runs.Along (step nodeId) (NoFailedSend nodeId) World.start labels)) := by
  have hthroughout : Runs.Along (step nodeId) (NoFailedSend nodeId) World.start labels →
      Runs.Throughout (step nodeId) (InOrder nodeId) World.start labels :=
    Runs.throughout_of_along (fun _ _ _ hI hl hstep => inOrder_step hI hl hstep) rfl
  refine ⟨fun hall => (hthroughout hall).imp fun _ => InOrder.relayed, ?_⟩
  intro hidle
  constructor
  · intro hdelivered
    -- the counts leave no room for a lost message
    have hstart : Accounted nodeId World.start := rfl
    have hcount : Accounted nodeId w :=
      Runs.exec_inv (fun _ _ _ hI hstep => accounted_step hI hstep) hstart h
    rw [Accounted, ← hdelivered, hidle.2, List.length_map] at hcount
    have hlost : w.lost = [] := by
      refine List.eq_nil_of_length_eq_zero ?_
      have hnone : (foreign nodeId []).length = 0 := rfl
      omega
    exact ((Runs.exec_iff_along (fun _ _ _ hstep => step_lost_iff hstep) h).mp hlost).2
  · intro hall
    have hstart : InOrder nodeId World.start := rfl
    have hend : InOrder nodeId w :=
      Runs.exec_inv_along (fun _ _ _ hI hl hstep => inOrder_step hI hl hstep) hstart hall h
    exact hend.relayed hidle

instance (nodeId : NodeId) (w : World) : ∀ l, Decidable (NoFailedSend nodeId w l)
  | .put _ => isTrue trivial
  | .broadcast _ => isTrue trivial
  | .event (.recv false) =>
      inferInstanceAs (Decidable (∀ msg, w.queue.head? = some msg → msg.originNodeId = nodeId))
  | .event (.recv true) => isTrue trivial
  | .event .pathChanged => isTrue trivial
  | .event .latch => isTrue trivial
  | .event (.connect _) => isTrue trivial
  | .event .shutdown => isTrue trivial

/-- Node 1's task learns the path and connects at its second try. -/
def connects : List Label :=
  [.broadcast "/database/subscribe/m", .event .pathChanged, .event .latch, .event (.connect false),
    .event (.connect true)]

/-- Calls of node 2, node 1 and node 2 again: the task delivers the first and the third. -/
theorem delivers_foreign_calls :
    ∃ w, Runs.exec (step 1) World.start (connects ++
        [.put ⟨1, 2, [3]⟩, .put ⟨2, 1, [3, 1]⟩, .event (.recv true), .event (.recv false),
          .put ⟨3, 2, [4]⟩, .event (.recv true)]) = some w ∧
      w.delivered.map Prod.snd = [⟨1, 2, [3]⟩, ⟨3, 2, [4]⟩] := by
  obtain ⟨w, h, hput, hidle⟩ : ∃ w, Runs.exec (step 1) World.start (connects ++
      [.put ⟨1, 2, [3]⟩, .put ⟨2, 1, [3, 1]⟩, .event (.recv true), .event (.recv false),
        .put ⟨3, 2, [4]⟩, .event (.recv true)]) = some w ∧
      foreign 1 w.put = [⟨1, 2, [3]⟩, ⟨3, 2, [4]⟩] ∧
      (w.task.pc = .connected "/database/subscribe/m" ∧ w.queue = []) := by
    exact Runs.exists_exec (by decide)
  refine ⟨w, h, ?_⟩
  rw [((reconnects_deliver_all 1 h).2 ⟨⟨_, hidle.1⟩, hidle.2⟩).mpr (by decide), hput]

/-- The send of node 2's call fails.  The task connects again, finds its channel empty and waits:
the call was never delivered. -/
theorem failed_send_loses_call :
    (∃ w, Runs.exec (step 1) World.start (connects ++
        [.put ⟨1, 2, [3]⟩, .event (.recv false), .event (.connect true)]) = some w ∧
      w.task.pc = .connected "/database/subscribe/m" ∧ w.queue = [] ∧
      w.delivered = [] ∧ foreign 1 w.put = [⟨1, 2, [3]⟩]) ∧
    ¬ ∀ (nodeId : NodeId) (labels : List Label) (w : World),
      Runs.exec (step nodeId) World.start labels = some w → Relayed nodeId w := by
  have hrun : ∃ w, Runs.exec (step 1) World.start (connects ++
      [.put ⟨1, 2, [3]⟩, .event (.recv false), .event (.connect true)]) = some w ∧
      w.task.pc = .connected "/database/subscribe/m" ∧ w.queue = [] ∧
      w.delivered = [] ∧ foreign 1 w.put = [⟨1, 2, [3]⟩] :=
    Runs.exists_exec (by decide)
  refine ⟨hrun, ?_⟩
  intro hclaim
  obtain ⟨w, h, hpc, hqueue, hdelivered, hput⟩ := hrun
  have hrelayed := hclaim 1 _ w h ⟨⟨_, hpc⟩, hqueue⟩
  rw [hdelivered, hput] at hrelayed
  cases hrelayed

end RaftTimeDB.Reconnects
