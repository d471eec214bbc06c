import RaftTimeDB.StateMachine

/-!
# The forwarder task

Model of `RaftPool::spawn_forwarder` (`crates/proxy/src/raft/mod.rs`): the task that sends the
committed writes of other nodes to the local SpacetimeDB.  It waits for a non-empty database path,
reads the path once more, and then connects, receives and sends in two nested loops.

* The `watch` channel of the path is its value and whether the task has yet to see it.
* Each event is one await point with its outcome: `connect_async`, `ws_tx.send`.  Receiving a
  message and sending it are one event.
* The message in hand is dropped when its send fails; the task then reconnects.
* A send that returns `Ok` counts as delivered.  A message written to a connection that SpacetimeDB has
  just closed is lost although its send is `Ok`; such losses are not in the model.

Principal results: `step_recv_cases` — everything that receiving a message can do;
`step_other` — no other event touches the channel or sends; `step_latched` — the path is fixed once.
-/

set_option autoImplicit false

namespace RaftTimeDB

inductive ForwarderPc where
  /-- first loop: no database path yet -/
  | waiting
  /-- a non-empty path was seen, and is about to be read again -/
  | gotPath
  /-- outer loop, about to connect to `stdb_url ++ dbPath` -/
  | connecting (dbPath : String)
  /-- inner loop, connected on that path -/
  | connected (dbPath : String)
  | stopped
  deriving DecidableEq, Repr

structure Forwarder where
  pc : ForwarderPc
  dbPath : String
  changed : Bool
  deriving DecidableEq, Repr

inductive ForwarderEvent where
  | pathChanged
  | latch
  | connect (ok : Bool)
  | recv (sendOk : Bool)
  | shutdown
  deriving DecidableEq, Repr

/-- What an event leaves: the task, its channel, and the message it sent with the path of the
connection it was sent on. -/
structure ForwarderResult where
  task : Forwarder
  queue : List ForwarderMsg
  sent : Option (String × ForwarderMsg)
  deriving DecidableEq, Repr

namespace Forwarder

/-- A freshly spawned task: the receiver has seen the initial empty path. -/
def spawn : Forwarder := ⟨.waiting, "", false⟩

/-- `send_db_path` reaches the task through the watch channel. -/
def broadcast (f : Forwarder) (path : String) : Forwarder := { f with dbPath := path, changed := true }

def step (nodeId : NodeId) (f : Forwarder) (queue : List ForwarderMsg) :
    ForwarderEvent → Option ForwarderResult
  | .pathChanged =>
      if f.pc = .waiting ∧ f.changed = true then
        let pc := if f.dbPath = "" then .waiting else .gotPath
        some ⟨{ f with pc := pc, changed := false }, queue, none⟩
      else none
  | .latch =>
      if f.pc = .gotPath then some ⟨{ f with pc := .connecting f.dbPath }, queue, none⟩ else none
  | .connect ok =>
      match f.pc with
      | .connecting dbPath =>
          some ⟨{ f with pc := if ok then .connected dbPath else .connecting dbPath }, queue, none⟩
      | _ => none
  | .recv sendOk =>
      match f.pc, queue with
      | .connected dbPath, msg :: rest =>
          if msg.originNodeId = nodeId then
            -- skip: the handler already forwarded it through the client's connection
            some ⟨f, rest, none⟩
          else if sendOk then some ⟨f, rest, some (dbPath, msg)⟩
          else some ⟨{ f with pc := .connecting dbPath }, rest, none⟩
      | _, _ => none
  | .shutdown => some ⟨{ f with pc := .stopped }, queue, none⟩

/-- **Receiving** takes the first message off the channel.  It is sent exactly when it comes from
another node and the send succeeds. -/
theorem step_recv_cases {nodeId : NodeId} {f : Forwarder} {queue : List ForwarderMsg}
    {sendOk : Bool} {r : ForwarderResult} (h : f.step nodeId queue (.recv sendOk) = some r) :
    ∃ dbPath msg rest, f.pc = .connected dbPath ∧ queue = msg :: rest ∧ r.queue = rest ∧
      ((msg.originNodeId = nodeId ∧ r.sent = none ∧ r.task = f) ∨
       (msg.originNodeId ≠ nodeId ∧ r.sent = none ∧ r.task = { f with pc := .connecting dbPath } ∧
         sendOk = false) ∨
       (msg.originNodeId ≠ nodeId ∧ r.sent = some (dbPath, msg) ∧ r.task = f)) := by
  simp only [step] at h
  split at h
  · rename_i dbPath msg rest hpc
    refine ⟨dbPath, msg, rest, hpc, rfl, ?_⟩
    split at h
    · rename_i horigin
      cases h
      exact ⟨rfl, Or.inl ⟨horigin, rfl, rfl⟩⟩
    · rename_i horigin
      split at h
      · cases h
        exact ⟨rfl, Or.inr (Or.inr ⟨horigin, rfl, rfl⟩)⟩
      · rename_i hfail
        cases h
        exact ⟨rfl, Or.inr (Or.inl ⟨horigin, rfl, rfl, by simpa using hfail⟩)⟩
  · cases h

/-- **Other events** neither touch the channel nor send. -/
theorem step_other {nodeId : NodeId} {f : Forwarder} {queue : List ForwarderMsg}
    {ev : ForwarderEvent} {r : ForwarderResult} (h : f.step nodeId queue ev = some r)
    (hev : ∀ sendOk, ev ≠ .recv sendOk) : r.queue = queue ∧ r.sent = none := by
  cases ev with
  | recv sendOk => exact absurd rfl (hev sendOk)
  | pathChanged =>
    simp only [step] at h
    split at h <;> cases h
    exact ⟨rfl, rfl⟩
  | latch =>
    simp only [step] at h
    split at h <;> cases h
    exact ⟨rfl, rfl⟩
  | connect ok =>
    simp only [step] at h
    split at h <;> cases h
    exact ⟨rfl, rfl⟩
  | shutdown =>
    simp only [step, Option.some.injEq] at h
    subst h
    exact ⟨rfl, rfl⟩

/-- **Every event**: the channel loses at most its first message, and a message that is sent is
that one and comes from another node. -/
theorem step_queue {nodeId : NodeId} {f : Forwarder} {queue : List ForwarderMsg}
    {ev : ForwarderEvent} {r : ForwarderResult} (h : f.step nodeId queue ev = some r) :
    (r.queue = queue ∧ r.sent = none) ∨
      ∃ msg, queue = msg :: r.queue ∧
        (r.sent = none ∨ ∃ dbPath, r.sent = some (dbPath, msg) ∧ msg.originNodeId ≠ nodeId) := by
  by_cases hev : ∃ sendOk, ev = .recv sendOk
  · obtain ⟨sendOk, rfl⟩ := hev
    obtain ⟨dbPath, msg, rest, _, rfl, rfl, hcases⟩ := step_recv_cases h
    refine Or.inr ⟨msg, rfl, ?_⟩
    rcases hcases with ⟨_, hsent, _⟩ | ⟨_, hsent, _, _⟩ | ⟨horigin, hsent, _⟩
    · exact Or.inl hsent
    · exact Or.inl hsent
    · exact Or.inr ⟨dbPath, hsent, horigin⟩
  · exact Or.inl (step_other h fun sendOk heq => hev ⟨sendOk, heq⟩)

/-! ## The path -/

/-- The database path the task has fixed for its connections. -/
def latched? (f : Forwarder) : Option String :=
  match f.pc with
  | .connecting dbPath => some dbPath
  | .connected dbPath => some dbPath
  | _ => none

@[simp] theorem latched?_broadcast (f : Forwarder) (path : String) :
    (f.broadcast path).latched? = f.latched? := rfl

/-- **The path is fixed once**, by `latch`, as the last one broadcast. -/
theorem step_latched {nodeId : NodeId} {f : Forwarder} {queue : List ForwarderMsg}
    {ev : ForwarderEvent} {r : ForwarderResult} (h : f.step nodeId queue ev = some r)
    {path : String} (hpath : r.task.latched? = some path) :
    f.latched? = some path ∨ (ev = .latch ∧ path = f.dbPath) := by
  cases ev with
  | recv sendOk =>
    obtain ⟨dbPath, msg, rest, hpc, _, _, hcases⟩ := step_recv_cases h
    rcases hcases with ⟨_, _, htask⟩ | ⟨_, _, htask, _⟩ | ⟨_, _, htask⟩
    · rw [htask] at hpath
      exact Or.inl hpath
    · simp only [htask, latched?] at hpath
      simp only [latched?, hpc]
      exact Or.inl hpath
    · rw [htask] at hpath
      exact Or.inl hpath
  | pathChanged =>
    simp only [step] at h
    split at h
    · rename_i hguard
      cases h
      by_cases hempty : f.dbPath = "" <;> simp [latched?, hempty] at hpath
    · cases h
  | latch =>
    simp only [step] at h
    split at h
    · cases h
      simp only [latched?, Option.some.injEq] at hpath
      exact Or.inr ⟨rfl, hpath.symm⟩
    · cases h
  | connect ok =>
    simp only [step] at h
    split at h
    · rename_i dbPath hpc
      cases h
      refine Or.inl ?_
      cases ok <;> simpa [latched?, hpc] using hpath
    · cases h
  | shutdown =>
    simp only [step, Option.some.injEq] at h
    subst h
    cases hpath

/-- What is sent goes out on the fixed path. -/
theorem step_sent {nodeId : NodeId} {f : Forwarder} {queue : List ForwarderMsg}
    {ev : ForwarderEvent} {r : ForwarderResult} (h : f.step nodeId queue ev = some r)
    {path : String} {msg : ForwarderMsg} (hsent : r.sent = some (path, msg)) :
    f.latched? = some path ∧ queue = msg :: r.queue ∧ msg.originNodeId ≠ nodeId := by
  by_cases hev : ∃ sendOk, ev = .recv sendOk
  · obtain ⟨sendOk, rfl⟩ := hev
    obtain ⟨dbPath, msg', rest, hpc, rfl, rfl, hcases⟩ := step_recv_cases h
    rcases hcases with ⟨_, hnone, _⟩ | ⟨_, hnone, _, _⟩ | ⟨horigin, hsome, _⟩
    · rw [hsent] at hnone
      cases hnone
    · rw [hsent] at hnone
      cases hnone
    · rw [hsent] at hsome
      cases hsome
      exact ⟨by simp [latched?, hpc], rfl, horigin⟩
  · have hnone := (step_other h fun sendOk heq => hev ⟨sendOk, heq⟩).2
    rw [hsent] at hnone
    cases hnone

end Forwarder

end RaftTimeDB
