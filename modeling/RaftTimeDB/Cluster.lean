import RaftTimeDB.Forwarder
import RaftTimeDB.Handler
import RaftTimeDB.Lib.Lists
import RaftTimeDB.Lib.Runs
import RaftTimeDB.LogSpec
import RaftTimeDB.Pool

/-!
# The cluster: clients, proposals, replication and delivery

Every node of the cluster with its client connections (`handle_client_inner`), the proposals their
inbound loops have under way (`propose_write`, also through the leader), the committed logs of all
shards, and per node and shard the state machine and the forwarder task.  `sent` records every message
that reaches a SpacetimeDB.  Moves are the await points of the tasks with their outcomes, and the
moves of openraft and the network:

* `commit` puts the request of a live `client_write` call into the log, at most once per call, whether
  or not the caller is still waiting.  A call that ends with ForwardToLeader has not and will not
  put its request into the log; a call that ends with Ok already has.
* The POST to the leader may be delivered late or never, its answer may be lost, and the caller may
  give up at any time.
* `commitOther` adds what openraft and the shard API put into a log: blank and membership entries
  and shard config commands.
* `apply` continues after `last_applied`; `install` may jump ahead.  Pools follow shard config
  commands in any way (`config`).
* The inbound task is detached: neither the end of the outbound task nor the return of the handler
  stops it.
-/

set_option autoImplicit false

namespace RaftTimeDB.Cluster

/-! ## State -/

/-- A client connection: where it was accepted, its request path and the shard it is bound to. -/
structure Conn where
  node : NodeId
  path : String
  shard : ShardId
  deriving DecidableEq, Repr

/-- Where the inbound side of a connection stands. -/
inductive InboundPc where
  /-- the shard is known, the path not yet broadcast -/
  | routed
  /-- opening the upstream connection -/
  | connecting
  /-- waiting for the client -/
  | idle
  /-- in `client_write` for proposal `p` -/
  | clientWrite (p : Nat)
  /-- waiting for the leader's answer to proposal `p` -/
  | posting (p : Nat)
  /-- sending upstream; a write carries its proposal -/
  | sending (msg : Message) (p : Option Nat)
  | ended
  deriving DecidableEq, Repr

/-- The proposal an inbound loop has in hand. -/
def InboundPc.holds : InboundPc → Option Nat
  | .clientWrite p => some p
  | .posting p => some p
  | .sending _ p => p
  | _ => none

/-- A write received by a handler. -/
structure Proposal where
  conn : Nat
  node : NodeId
  shard : ShardId
  data : Bytes
  deriving DecidableEq, Repr

/-- The request of a proposal on its way to the log. -/
inductive Attempt where
  /-- no call that could still commit it -/
  | closed
  /-- in `client_write` on the origin -/
  | clientWrite (request : ReducerCallRequest)
  /-- POST not yet received by the leader -/
  | posted (request : ReducerCallRequest)
  /-- in `client_write` on the leader -/
  | serving (request : ReducerCallRequest)
  deriving DecidableEq, Repr

def Attempt.request? : Attempt → Option ReducerCallRequest
  | .closed => none
  | .clientWrite request => some request
  | .posted request => some request
  | .serving request => some request

/-- The request of a running `client_write` call. -/
def Attempt.live? : Attempt → Option ReducerCallRequest
  | .clientWrite request => some request
  | .serving request => some request
  | _ => none

inductive Sender where
  | handler
  | forwarder
  deriving DecidableEq, Repr

/-- A message received by the SpacetimeDB of `node`; `entry` is the ghost log index of a write. -/
structure Delivery where
  node : NodeId
  shard : ShardId
  sender : Sender
  path : String
  message : Message
  entry : Option Nat
  deriving DecidableEq, Repr

/-- The state machine and the forwarder task of a shard on a node. -/
structure ShardState where
  stateMachine : StateMachineStore
  task : Forwarder

def ShardState.new : ShardState := ⟨StateMachineStore.new, Forwarder.spawn⟩

def ShardState.queue (st : ShardState) : List ForwarderMsg := st.stateMachine.forwarder.getD []

/-- Number of log entries behind `last_applied`. -/
def ShardState.applied (st : ShardState) : Nat := nextIndex st.stateMachine.inner.lastApplied

structure World where
  log : ShardId → List Entry
  pool : NodeId → RaftPool
  state : NodeId × ShardId → ShardState
  conns : Nat → Option Conn
  pc : Nat → InboundPc
  outbound : Nat → Bool
  props : Nat → Option Proposal
  attempt : Nat → Attempt
  answer : Nat → Option Nat
  entry : Nat → Option Nat
  sent : List Delivery

def World.start : World where
  log _ := []
  pool _ := RaftPool.new
  state _ := ShardState.new
  conns _ := none
  pc _ := .ended
  outbound _ := false
  props _ := none
  attempt _ := .closed
  answer _ := none
  entry _ := none
  sent := []

def World.setPc (w : World) (c : Nat) (pc : InboundPc) : World :=
  { w with pc := Function.update w.pc c pc }

def World.setState (w : World) (n : NodeId) (s : ShardId) (st : ShardState) : World :=
  { w with state := Function.update w.state (n, s) st }

def World.setAttempt (w : World) (p : Nat) (attempt : Attempt) : World :=
  { w with attempt := Function.update w.attempt p attempt }

def World.setAnswer (w : World) (p : Nat) (status : Nat) : World :=
  { w with answer := Function.update w.answer p (some status) }

def World.setProp (w : World) (p : Nat) (prop : Proposal) : World :=
  { w with props := Function.update w.props p (some prop) }

def World.setEntry (w : World) (p : Nat) (i : Nat) : World :=
  { w with entry := Function.update w.entry p (some i) }

/-- Messages reach a SpacetimeDB. -/
def World.deliver (w : World) (ds : List Delivery) : World := { w with sent := w.sent ++ ds }

/-- A new entry at the end of the log of a shard. -/
def appendEntry (log : ShardId → List Entry) (s : ShardId) (leaderId : LeaderId)
    (payload : EntryPayload) : ShardId → List Entry :=
  Function.update log s (log s ++ [⟨⟨leaderId, (log s).length⟩, payload⟩])

def World.commitEntry (w : World) (s : ShardId) (leaderId : LeaderId) (payload : EntryPayload) :
    World :=
  { w with log := appendEntry w.log s leaderId payload }

/-! ## Moves -/

inductive Label where
  | accept (c : Nat) (n : NodeId) (path : String)
  | broadcast (c : Nat)
  | upstream (c : Nat) (ok : Bool)
  | recv (c : Nat) (msg : Message) (p : Nat)
  | close (c : Nat)
  | outboundEnd (c : Nat)
  | clientWrite (c : Nat) (result : ClientWriteResult)
  | response (c : Nat)
  | postFail (c : Nat)
  | send (c : Nat) (ok : Bool)
  | commit (p : Nat) (leaderId : LeaderId)
  | commitOther (s : ShardId) (leaderId : LeaderId) (payload : EntryPayload)
  | postDelivered (p : Nat) (found : Bool)
  | served (p : Nat) (result : ClientWriteResult)
  | attach (n : NodeId) (s : ShardId)
  | apply (n : NodeId) (s : ShardId) (count : Nat)
  | install (n : NodeId) (s : ShardId) (replayOrder encodeOrder : List (String × ShardId))
      (snap : Snapshot)
  | forward (n : NodeId) (s : ShardId) (event : ForwarderEvent)
  | config (n : NodeId) (created : Bool) (cmd : ShardConfigCommand)

/-- Results `client_write` may return for a call whose request has, or has not, been committed. -/
def resultAllowed (entry : Option Nat) : ClientWriteResult → Bool
  | .ok => entry.isSome
  | .forwardToLeader _ => entry.isNone
  | .otherError => true

/-- What becomes of the call: after ForwardToLeader it can no longer commit. -/
def attemptAfter (attempt : Attempt) : ClientWriteResult → Attempt
  | .forwardToLeader _ => .closed
  | _ => attempt

/-- What the inbound loop does when `propose_write` returns. -/
def afterPropose (data : Bytes) (p : Nat) (ok : Bool) : InboundPc :=
  if ok then .sending (.binary data) (some p) else .idle

variable (J : CommandJson) (K : SnapshotCodec)

def step (w : World) : Label → Option World
  | .accept c n path =>
      match w.conns c with
      | none =>
          let conn : Conn := ⟨n, path, (w.pool n).router.shardOfPath path⟩
          some { w with
            conns := Function.update w.conns c (some conn)
            pc := Function.update w.pc c .routed
            outbound := Function.update w.outbound c true }
      | some _ => none
  | .broadcast c =>
      match w.conns c, w.pc c with
      | some conn, .routed =>
          let st := w.state (conn.node, conn.shard)
          if conn.shard ∈ (w.pool conn.node).shards then
            some ((w.setPc c .connecting).setState conn.node conn.shard
              { st with task := st.task.broadcast conn.path })
          else some (w.setPc c .connecting)
      | _, _ => none
  | .upstream c ok =>
      match w.pc c with
      | .connecting => some (w.setPc c (if ok then .idle else .ended))
      | _ => none
  | .recv c msg p =>
      match w.conns c, w.pc c with
      | some conn, .idle =>
          match classifyMessage msg, msg with
          | .write, .binary data =>
              if conn.shard ∈ (w.pool conn.node).shards then
                match w.props p with
                | none =>
                    some (((w.setPc c (.clientWrite p)).setAttempt p
                      (.clientWrite (proposeRequest conn.node data))).setProp p
                        ⟨c, conn.node, conn.shard, data⟩)
                | some _ => none
              else
                -- "shard not found": `propose_write` fails at once
                some (w.setPc c (afterPropose data p false))
          | _, _ => some (w.setPc c (.sending msg none))
      | _, _ => none
  | .close c =>
      match w.pc c with
      | .idle => some (w.setPc c .ended)
      | _ => none
  | .outboundEnd c => some { w with outbound := Function.update w.outbound c false }
  | .clientWrite c result =>
      match w.pc c with
      | .clientWrite p =>
          match w.props p with
          | some prop =>
              if resultAllowed (w.entry p) result then
                match afterClientWrite prop.node prop.data result with
                | .done ok =>
                    some ((w.setPc c (afterPropose prop.data p ok)).setAttempt p
                      (attemptAfter (w.attempt p) result))
                | .post _ request => some ((w.setPc c (.posting p)).setAttempt p (.posted request))
              else none
          | none => none
      | _ => none
  | .response c =>
      match w.pc c with
      | .posting p =>
          match w.props p, w.answer p with
          | some prop, some status =>
              some (w.setPc c (afterPropose prop.data p (afterPost (some status))))
          | _, _ => none
      | _ => none
  | .postFail c =>
      match w.pc c with
      | .posting p =>
          match w.props p with
          | some prop => some (w.setPc c (afterPropose prop.data p (afterPost none)))
          | none => none
      | _ => none
  | .send c ok =>
      match w.conns c, w.pc c with
      | some conn, .sending msg p =>
          if ok then
            some ((w.setPc c .idle).deliver
              [⟨conn.node, conn.shard, .handler, conn.path, msg, p.bind w.entry⟩])
          else some (w.setPc c .ended)
      | _, _ => none
  | .commit p leaderId =>
      match w.props p, (w.attempt p).live?, w.entry p with
      | some prop, some request, none =>
          some ((w.commitEntry prop.shard leaderId (.normal request)).setEntry p
            (w.log prop.shard).length)
      | _, _, _ => none
  | .commitOther s leaderId payload =>
      if (Entry.mk ⟨leaderId, 0⟩ payload).forward? = none then
        some (w.commitEntry s leaderId payload)
      else none
  | .postDelivered p found =>
      match w.attempt p with
      | .posted request =>
          if found then some (w.setAttempt p (.serving request))
          else some ((w.setAttempt p .closed).setAnswer p shardNotFound)
      | _ => none
  | .served p result =>
      match w.attempt p, w.answer p with
      | .serving request, none =>
          if resultAllowed (w.entry p) result then
            some ((w.setAttempt p (attemptAfter (.serving request) result)).setAnswer p
              (clusterShardWrite result))
          else none
      | _, _ => none
  | .attach n s =>
      let st := w.state (n, s)
      match st.stateMachine.forwarder with
      | none => some (w.setState n s { st with stateMachine := st.stateMachine.setForwarder })
      | some _ => none
  | .apply n s count =>
      let st := w.state (n, s)
      let entries := ((w.log s).drop st.applied).take count
      some (w.setState n s { st with stateMachine := (st.stateMachine.apply J entries).1 })
  | .install n s replayOrder encodeOrder snap =>
      let st := w.state (n, s)
      match st.stateMachine.installSnapshot K replayOrder encodeOrder snap with
      | .ok sm =>
          if st.applied ≤ nextIndex sm.inner.lastApplied then
            some (w.setState n s { st with stateMachine := sm })
          else none
      | .error _ => none
  | .forward n s event =>
      let st := w.state (n, s)
      match st.stateMachine.forwarder with
      | some queue =>
          match st.task.step n queue event with
          | some r =>
              some ((w.setState n s
                  ⟨{ st.stateMachine with forwarder := some r.queue }, r.task⟩).deliver
                (r.sent.toList.map fun m =>
                  ⟨n, s, .forwarder, m.1, .binary m.2.rawMessage, some m.2.logIndex⟩))
          | none => none
      | none => none
  | .config n created cmd =>
      some { w with pool := Function.update w.pool n ((w.pool n).handleShardConfig created cmd) }

variable {J K}

/-! ## Proposals and their calls -/

/-- What holds of the calls and answers of proposals, and of positions in the logs. -/
structure NetInv (w : World) : Prop where
  index : ∀ (s : ShardId) (i : Nat) (e : Entry), (w.log s)[i]? = some e → e.logId.index = i
  /-- an id not yet in use has no call, no answer and no entry -/
  fresh : ∀ p, w.props p = none → w.attempt p = .closed ∧ w.answer p = none ∧ w.entry p = none
  /-- a request keeps its data and its origin on every way to the log -/
  request : ∀ p prop r, w.props p = some prop → (w.attempt p).request? = some r →
    r = proposeRequest prop.node prop.data
  /-- a successful answer means that the write is committed -/
  answer : ∀ p status, w.answer p = some status → afterPost (some status) = true →
    (w.entry p).isSome = true

theorem NetInv.start : NetInv World.start := by
  refine ⟨?_, fun p _ => ⟨rfl, rfl, rfl⟩, ?_, ?_⟩
  · intro s i e h
    simp [World.start] at h
  · intro p prop r h
    cases h
  · intro p status h
    cases h

/-- Changing a call and an answer of a proposal in use. -/
theorem NetInv.setCall {w w' : World} (hinv : NetInv w) {p : Nat} {prop : Proposal}
    (hprop : w.props p = some prop) (hlog : w'.log = w.log) (hprops : w'.props = w.props)
    (hentry : w'.entry = w.entry) (hattempt : ∀ q, q ≠ p → w'.attempt q = w.attempt q)
    (hanswer : ∀ q, q ≠ p → w'.answer q = w.answer q)
    (hrequest : ∀ r, (w'.attempt p).request? = some r → r = proposeRequest prop.node prop.data)
    (hstatus : ∀ status, w'.answer p = some status → afterPost (some status) = true →
      (w.entry p).isSome = true) : NetInv w' := by
  refine ⟨fun s i e h => hinv.index s i e (hlog ▸ h), ?_, ?_, ?_⟩
  · intro q hq
    rw [hprops] at hq
    have hne : q ≠ p := by
      rintro rfl
      rw [hprop] at hq
      cases hq
    rw [hattempt q hne, hanswer q hne, hentry]
    exact hinv.fresh q hq
  · intro q prop' r hq hr
    rw [hprops] at hq
    by_cases hqp : q = p
    · subst hqp
      rw [hprop, Option.some.injEq] at hq
      subst hq
      exact hrequest r hr
    · rw [hattempt q hqp] at hr
      exact hinv.request q prop' r hq hr
  · intro q status hq hok
    rw [hentry]
    by_cases hqp : q = p
    · subst hqp
      exact hstatus status hq hok
    · rw [hanswer q hqp] at hq
      exact hinv.answer q status hq hok

/-- A call that may still commit belongs to a proposal in use. -/
theorem NetInv.exists_prop {w : World} (hinv : NetInv w) {p : Nat} (h : w.attempt p ≠ .closed) :
    ∃ prop, w.props p = some prop := by
  cases hprop : w.props p with
  | none => exact absurd (hinv.fresh p hprop).1 h
  | some prop => exact ⟨prop, rfl⟩

theorem attemptAfter_request {attempt : Attempt} {result : ClientWriteResult}
    {r : ReducerCallRequest} (h : (attemptAfter attempt result).request? = some r) :
    attempt.request? = some r := by
  cases result with
  | ok => exact h
  | forwardToLeader leaderNode => cases h
  | otherError => exact h

theorem getElem?_appendEntry {log : ShardId → List Entry} {s s' : ShardId} {leaderId : LeaderId}
    {payload : EntryPayload} {i : Nat} {e : Entry}
    (h : (appendEntry log s leaderId payload s')[i]? = some e) :
    (log s')[i]? = some e ∨
      s' = s ∧ i = (log s).length ∧ e = ⟨⟨leaderId, (log s).length⟩, payload⟩ := by
  by_cases hs : s' = s
  · subst hs
    simp only [appendEntry, Function.update_self] at h
    rcases Nat.lt_trichotomy i (log s').length with hlt | heq | hgt
    · rw [List.getElem?_append_left hlt] at h
      exact Or.inl h
    · subst heq
      rw [List.getElem?_append_right (Nat.le_refl _), Nat.sub_self, List.getElem?_cons_zero,
        Option.some.injEq] at h
      exact Or.inr ⟨rfl, rfl, h.symm⟩
    · rw [List.getElem?_eq_none (by simp; omega)] at h
      cases h
  · simp only [appendEntry, Function.update_of_ne hs] at h
    exact Or.inl h

/-- The logs only grow. -/
theorem appendEntry_old {log : ShardId → List Entry} {s s' : ShardId} {leaderId : LeaderId}
    {payload : EntryPayload} {i : Nat} {e : Entry} (h : (log s')[i]? = some e) :
    (appendEntry log s leaderId payload s')[i]? = some e := by
  by_cases hs : s' = s
  · subst hs
    simp only [appendEntry, Function.update_self]
    rw [List.getElem?_append_left (List.getElem?_eq_some_iff.mp h).1]
    exact h
  · simpa only [appendEntry, Function.update_of_ne hs] using h

theorem appendEntry_new (log : ShardId → List Entry) (s : ShardId) (leaderId : LeaderId)
    (payload : EntryPayload) :
    (appendEntry log s leaderId payload s)[(log s).length]? =
      some ⟨⟨leaderId, (log s).length⟩, payload⟩ := by
  simp [appendEntry]

theorem commitEntry_index {w : World} (hinv : NetInv w) {s : ShardId} {leaderId : LeaderId}
    {payload : EntryPayload} (s' : ShardId) (i : Nat) (e : Entry)
    (h : ((w.commitEntry s leaderId payload).log s')[i]? = some e) : e.logId.index = i := by
  rcases getElem?_appendEntry h with hold | ⟨_, rfl, rfl⟩
  · exact hinv.index s' i e hold
  · rfl

/-- A new proposal starts with the request `propose_write` makes. -/
theorem NetInv.propose {w : World} (hinv : NetInv w) {c p : Nat} {conn : Conn} {data : Bytes}
    (hnew : w.props p = none) :
    NetInv (((w.setPc c (.clientWrite p)).setAttempt p
      (.clientWrite (proposeRequest conn.node data))).setProp p
        ⟨c, conn.node, conn.shard, data⟩) := by
  refine ⟨hinv.index, ?_, ?_, hinv.answer⟩
  · intro q hq
    have hqp : q ≠ p := by
      rintro rfl
      simp [World.setProp] at hq
    simp only [World.setProp, World.setAttempt, Function.update_of_ne hqp] at hq ⊢
    exact hinv.fresh q hq
  · intro q prop r hq hr
    by_cases hqp : q = p
    · subst hqp
      simp only [World.setProp, World.setAttempt, Function.update_self, Option.some.injEq,
        Attempt.request?] at hq hr
      subst hq
      exact hr.symm
    · simp only [World.setProp, World.setAttempt, Function.update_of_ne hqp] at hq hr
      exact hinv.request q prop r hq hr

theorem NetInv.commit {w : World} (hinv : NetInv w) {p : Nat} {prop : Proposal}
    (hprop : w.props p = some prop) {leaderId : LeaderId} {payload : EntryPayload} :
    NetInv ((w.commitEntry prop.shard leaderId payload).setEntry p
      (w.log prop.shard).length) := by
  refine ⟨commitEntry_index hinv, ?_, hinv.request, ?_⟩
  · intro q hq
    have hqp : q ≠ p := by
      rintro rfl
      rw [show w.props q = none from hq] at hprop
      cases hprop
    simp only [World.setEntry, Function.update_of_ne hqp]
    exact hinv.fresh q hq
  · intro q status hq hok
    by_cases hqp : q = p
    · subst hqp
      simp [World.setEntry]
    · simp only [World.setEntry, Function.update_of_ne hqp]
      exact hinv.answer q status hq hok

theorem net_recv {w w' : World} {c : Nat} {msg : Message} {p : Nat}
    (hinv : NetInv w) (h : step J K w (.recv c msg p) = some w') : NetInv w' := by
  simp only [step] at h
  split at h
  · rename_i conn hconn hpc
    split at h
    · rename_i data hkind
      split at h
      · split at h
        · rename_i hnew
          cases h
          exact hinv.propose hnew
        · cases h
      · cases h
        exact ⟨hinv.index, hinv.fresh, hinv.request, hinv.answer⟩
    · cases h
      exact ⟨hinv.index, hinv.fresh, hinv.request, hinv.answer⟩
  · cases h

/-- A call that ends keeps its request or hands it to the leader unchanged. -/
theorem net_clientWrite {w w' : World} {c : Nat} {result : ClientWriteResult}
    (hinv : NetInv w) (h : step J K w (.clientWrite c result) = some w') : NetInv w' := by
  simp only [step] at h
  split at h
  · rename_i p hpc
    split at h
    · rename_i prop hprop
      split at h
      · split at h
        · cases h
          refine hinv.setCall hprop rfl rfl rfl (fun q hq => Function.update_of_ne hq _ _)
            (fun q _ => rfl) ?_ (fun status hstatus => hinv.answer p status hstatus)
          intro r hr
          simp only [World.setAttempt, Function.update_self] at hr
          exact hinv.request p prop r hprop (attemptAfter_request hr)
        · rename_i leaderNode request hpost
          cases h
          refine hinv.setCall hprop rfl rfl rfl (fun q hq => Function.update_of_ne hq _ _)
            (fun q _ => rfl) ?_ (fun status hstatus => hinv.answer p status hstatus)
          intro r hr
          simp only [World.setAttempt, Function.update_self, Attempt.request?,
            Option.some.injEq] at hr
          rw [← hr]
          exact (afterClientWrite_post hpost).1
      · cases h
    · cases h
  · cases h

theorem net_postDelivered {w w' : World} {p : Nat} {found : Bool}
    (hinv : NetInv w) (h : step J K w (.postDelivered p found) = some w') : NetInv w' := by
  simp only [step] at h
  split at h
  · rename_i request hposted
    obtain ⟨prop, hprop⟩ := hinv.exists_prop (p := p) (by rw [hposted]; simp)
    have hrequest : request = proposeRequest prop.node prop.data :=
      hinv.request p prop request hprop (by rw [hposted]; rfl)
    split at h
    · cases h
      refine hinv.setCall hprop rfl rfl rfl (fun q hq => Function.update_of_ne hq _ _)
        (fun q _ => rfl) ?_ (fun status hstatus => hinv.answer p status hstatus)
      intro r hr
      simp only [World.setAttempt, Function.update_self, Attempt.request?,
        Option.some.injEq] at hr
      rw [← hr]
      exact hrequest
    · cases h
      refine hinv.setCall hprop rfl rfl rfl (fun q hq => Function.update_of_ne hq _ _)
        (fun q hq => Function.update_of_ne hq _ _) ?_
        ?_
      · intro r hr
        simp [World.setAnswer, World.setAttempt, Attempt.request?] at hr
      · intro status hstatus hok
        simp only [World.setAnswer, Function.update_self, Option.some.injEq] at hstatus
        rw [← hstatus] at hok
        cases hok
  · cases h

/-- The leader answers 200 only for a committed write. -/
theorem net_served {w w' : World} {p : Nat} {result : ClientWriteResult}
    (hinv : NetInv w) (h : step J K w (.served p result) = some w') : NetInv w' := by
  simp only [step] at h
  split at h
  · rename_i request hserving hnone
    obtain ⟨prop, hprop⟩ := hinv.exists_prop (p := p) (by rw [hserving]; simp)
    split at h
    · rename_i hallowed
      cases h
      refine hinv.setCall hprop rfl rfl rfl (fun q hq => Function.update_of_ne hq _ _)
        (fun q hq => Function.update_of_ne hq _ _) ?_
        ?_
      · intro r hr
        simp only [World.setAnswer, World.setAttempt, Function.update_self] at hr
        refine hinv.request p prop r hprop ?_
        rw [hserving]
        exact attemptAfter_request hr
      · intro status hstatus hok
        simp only [World.setAnswer, Function.update_self, Option.some.injEq] at hstatus
        rw [← hstatus, afterPost_clusterShardWrite] at hok
        rw [hok] at hallowed
        exact hallowed
    · cases h
  · cases h

/-- **Every move keeps calls, answers and positions in order.** -/
theorem net_step {w w' : World} {l : Label} (hinv : NetInv w) (h : step J K w l = some w') :
    NetInv w' := by
  cases l with
  | accept c n path =>
    simp only [step] at h
    split at h
    · cases h
      exact ⟨hinv.index, hinv.fresh, hinv.request, hinv.answer⟩
    · cases h
  | broadcast c =>
    simp only [step] at h
    split at h
    · split at h <;> cases h <;> exact ⟨hinv.index, hinv.fresh, hinv.request, hinv.answer⟩
    · cases h
  | upstream c ok =>
    simp only [step] at h
    split at h
    · cases h
      exact ⟨hinv.index, hinv.fresh, hinv.request, hinv.answer⟩
    · cases h
  | recv c msg p => exact net_recv hinv h
  | close c =>
    simp only [step] at h
    split at h
    · cases h
      exact ⟨hinv.index, hinv.fresh, hinv.request, hinv.answer⟩
    · cases h
  | outboundEnd c =>
    simp only [step, Option.some.injEq] at h
    subst h
    exact ⟨hinv.index, hinv.fresh, hinv.request, hinv.answer⟩
  | clientWrite c result => exact net_clientWrite hinv h
  | response c =>
    simp only [step] at h
    split at h
    · split at h
      · cases h
        exact ⟨hinv.index, hinv.fresh, hinv.request, hinv.answer⟩
      · cases h
    · cases h
  | postFail c =>
    simp only [step] at h
    split at h
    · split at h
      · cases h
        exact ⟨hinv.index, hinv.fresh, hinv.request, hinv.answer⟩
      · cases h
    · cases h
  | send c ok =>
    simp only [step] at h
    split at h
    · split at h <;> cases h <;> exact ⟨hinv.index, hinv.fresh, hinv.request, hinv.answer⟩
    · cases h
  | commit p leaderId =>
    simp only [step] at h
    split at h
    · rename_i prop request hprop hlive hentry
      cases h
      exact hinv.commit hprop
    · cases h
  | commitOther s leaderId payload =>
    simp only [step] at h
    split at h
    · cases h
      exact ⟨commitEntry_index hinv, hinv.fresh, hinv.request, hinv.answer⟩
    · cases h
  | postDelivered p found => exact net_postDelivered hinv h
  | served p result => exact net_served hinv h
  | attach n s =>
    simp only [step] at h
    split at h
    · cases h
      exact ⟨hinv.index, hinv.fresh, hinv.request, hinv.answer⟩
    · cases h
  | apply n s count =>
    simp only [step, Option.some.injEq] at h
    subst h
    exact ⟨hinv.index, hinv.fresh, hinv.request, hinv.answer⟩
  | install n s replayOrder encodeOrder snap =>
    simp only [step] at h
    split at h
    · split at h
      · cases h
        exact ⟨hinv.index, hinv.fresh, hinv.request, hinv.answer⟩
      · cases h
    · cases h
  | forward n s event =>
    simp only [step] at h
    split at h
    · split at h
      · cases h
        exact ⟨hinv.index, hinv.fresh, hinv.request, hinv.answer⟩
      · cases h
    · cases h
  | config n created cmd =>
    simp only [step, Option.some.injEq] at h
    subst h
    exact ⟨hinv.index, hinv.fresh, hinv.request, hinv.answer⟩

end RaftTimeDB.Cluster
