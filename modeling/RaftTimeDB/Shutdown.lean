import RaftTimeDB.Handler
import RaftTimeDB.Lib.Lists
import RaftTimeDB.Lib.Runs
import RaftTimeDB.Lib.Watch
import RaftTimeDB.Members

/-!
# Connections and shutdown

The tasks of a node's client connections: the accept loop (`Proxy::run` in
`crates/proxy/src/websocket/mod.rs`), `handle_client` with its inbound and outbound tasks
(`crates/proxy/src/websocket/handler.rs`), and the shutdown in `crates/proxy/src/main.rs`.

* `main` waits in a `select!` for the proxy or a signal.  When the signal wins, the proxy and with
  it the listener are dropped before the branch runs, and only then is `true` sent.  An error of
  `accept` ends the proxy, and `main` returns without a signal.  When `main` returns, the sender is
  dropped, and the runtime drops the tasks one by one.
* Every connection gets a clone of the proxy's receiver, which itself never calls `changed`.
* `handle_client_inner` waits for one of its two tasks or for the shutdown.  The tasks are spawned:
  they outlive it.
* The outbound task and the handler share the sink to the client (`client_tx`) through a Mutex, and
  each holds it until its send has ended; who of two waiting tasks gets it is left open.
  `upstream_tx` has one user.
* A sink that has sent a Close frame accepts nothing more, and a send may fail at any time.

Principal result: `graceful_shutdown` — over every interleaving: no handler misses the shutdown and
none sees one that was not, nothing is accepted after it, what a client was sent is what its
SpacetimeDB sent, in order, with at most one Close frame, at the end, the gauge counts the handlers
that have not returned, and a handler has its hint out once no other send to its client is in
progress.
-/

set_option autoImplicit false

namespace RaftTimeDB.Shutdown

/-! ## Tasks -/

/-- `CloseCode::Away`. -/
def CLOSE_AWAY : Nat := 1001

def leaderCloseFrame (v : PoolView) (s : ShardId) : Option (Nat × String) :=
  (v.currentLeader s).map fun (leaderId, leaderAddr) =>
    (CLOSE_AWAY, "leader=" ++ toString leaderId ++ ":" ++ leaderAddr)

/-- Where `handle_client` stands.  `spawned` has not counted the connection yet, `leaving` has the
result of `handle_client_inner`; `dropped` is a task that the runtime has dropped. -/
inductive HandlerPc where
  | spawned
  | accepting
  | connecting
  | selecting
  | hinting
  /-- waiting for the sink -/
  | closing (frame : Nat × String)
  /-- with the sink's guard -/
  | sendingClose (frame : Nat × String)
  | leaving
  | returned
  | dropped (counted : Bool)
  deriving DecidableEq, Repr

inductive InboundPc where
  | absent
  | reading
  | proposing (msg : Message)
  | sending (msg : Message)
  | ended
  deriving DecidableEq, Repr

inductive OutboundPc where
  | absent
  | reading
  /-- waiting for the sink -/
  | locking (msg : Message)
  /-- with the sink's guard -/
  | sending (msg : Message)
  | ended
  deriving DecidableEq, Repr

/-- The task holds the guard of `client_tx`. -/
def HandlerPc.holds : HandlerPc → Bool
  | .sendingClose _ => true
  | _ => false

def OutboundPc.holds : OutboundPc → Bool
  | .sending _ => true
  | _ => false

/-- A frame sent to the client: relayed by the outbound task, or the hint of the handler. -/
inductive Frame where
  | relay (msg : Message)
  | hint (frame : Nat × String)
  deriving DecidableEq, Repr

def Frame.message : Frame → Message
  | .relay msg => msg
  | .hint frame => .close (some frame)

def Frame.isClose (f : Frame) : Bool :=
  match f.message with
  | .close _ => true
  | _ => false

structure Conn where
  handler : HandlerPc
  rx : Watch.Receiver
  shardId : ShardId
  inbound : InboundPc
  outbound : OutboundPc
  /-- Messages read from SpacetimeDB. -/
  fromUpstream : List Message
  toClient : List Frame
  /-- Calls of `propose_write`. -/
  proposed : List (ShardId × Bytes)
  toUpstream : List Message
  deriving DecidableEq, Repr

namespace Conn

/-- The task of an accepted connection. -/
def spawn (rx : Watch.Receiver) : Conn := ⟨.spawned, rx, 0, .absent, .absent, [], [], [], []⟩

/-- No Close frame was sent to the client yet. -/
def sinkOpen (c : Conn) : Bool := c.toClient.all fun f => !f.isClose

/-- A send to the client; `ok` is the environment's part of the outcome. -/
def sendClient (c : Conn) (ok : Bool) (f : Frame) : Option Conn :=
  if ok && c.sinkOpen then some { c with toClient := c.toClient ++ [f] } else none

end Conn

inductive HandlerEvent where
  | start
  | accepted (router : ShardRouter) (path : String)
  | acceptFailed
  | connected
  | connectFailed
  | inboundEnded
  | outboundEnded
  | shutdown
  | leader (shards : ShardId → Option RaftMetrics)
  | locked
  | closeSent (ok : Bool)
  | finish

inductive InboundEvent where
  | read (msg : Message)
  | readEnd
  | proposed (ok : Bool)
  | sent (ok : Bool)

inductive OutboundEvent where
  | read (msg : Message)
  | readEnd
  | locked
  | sent (ok : Bool)

namespace Conn

def handlerStep (config : NodeConfig) (shutdown : Watch.Channel Bool) (c : Conn) : HandlerEvent →
    Option Conn
  | .start => if c.handler = .spawned then some { c with handler := .accepting } else none
  | .accepted router path =>
      if c.handler = .accepting then
        some { c with handler := .connecting, shardId := router.shardOfPath path }
      else none
  | .acceptFailed => if c.handler = .accepting then some { c with handler := .leaving } else none
  | .connected =>
      if c.handler = .connecting then
        some { c with handler := .selecting, inbound := .reading, outbound := .reading }
      else none
  | .connectFailed => if c.handler = .connecting then some { c with handler := .leaving } else none
  | .inboundEnded =>
      if c.handler = .selecting ∧ c.inbound = .ended then some { c with handler := .leaving } else none
  | .outboundEnded =>
      if c.handler = .selecting ∧ c.outbound = .ended then some { c with handler := .leaving }
      else none
  | .shutdown =>
      if c.handler = .selecting ∧ c.rx.ready shutdown = true then
        some { c with handler := .hinting, rx := c.rx.mark shutdown }
      else none
  | .leader shards =>
      if c.handler = .hinting then
        match leaderCloseFrame ⟨config, shards⟩ c.shardId with
        | some frame => some { c with handler := .closing frame }
        | none => some { c with handler := .leaving }
      else none
  | .locked =>
      match c.handler with
      | .closing frame =>
          if c.outbound.holds then none else some { c with handler := .sendingClose frame }
      | _ => none
  | .closeSent ok =>
      match c.handler with
      -- `let _ =`: a failed send changes nothing
      | .sendingClose frame => some { (c.sendClient ok (.hint frame)).getD c with handler := .leaving }
      | _ => none
  | .finish => if c.handler = .leaving then some { c with handler := .returned } else none

def inboundStep (c : Conn) : InboundEvent → Option Conn
  | .read msg =>
      if c.inbound = .reading then
        match classifyMessage msg, msg with
        | .write, .binary data =>
            some { c with inbound := .proposing msg, proposed := c.proposed ++ [(c.shardId, data)] }
        | _, _ => some { c with inbound := .sending msg }
      else none
  | .readEnd => if c.inbound = .reading then some { c with inbound := .ended } else none
  | .proposed ok =>
      match c.inbound with
      | .proposing msg => some { c with inbound := if ok then .sending msg else .reading }
      | _ => none
  | .sent ok =>
      match c.inbound with
      | .sending msg =>
          if ok then some { c with inbound := .reading, toUpstream := c.toUpstream ++ [msg] }
          else some { c with inbound := .ended }
      | _ => none

def outboundStep (c : Conn) : OutboundEvent → Option Conn
  | .read msg =>
      if c.outbound = .reading then
        some { c with outbound := .locking msg, fromUpstream := c.fromUpstream ++ [msg] }
      else none
  | .locked =>
      match c.outbound with
      | .locking msg => if c.handler.holds then none else some { c with outbound := .sending msg }
      | _ => none
  | .readEnd => if c.outbound = .reading then some { c with outbound := .ended } else none
  | .sent ok =>
      match c.outbound with
      | .sending msg =>
          match c.sendClient ok (.relay msg) with
          | some c' => some { c' with outbound := .reading }
          | none => some { c with outbound := .ended }
      | _ => none

end Conn

/-! ## One connection -/

def HandlerPc.counted : HandlerPc → Bool
  | .spawned => false
  | .returned => false
  | .dropped counted => counted
  | _ => true

/-- Before the `select!`, or in it. -/
def HandlerPc.waits : HandlerPc → Bool
  | .spawned => true
  | .accepting => true
  | .connecting => true
  | .selecting => true
  | _ => false

def Frame.relay? : Frame → Option Message
  | .relay msg => some msg
  | .hint _ => none

/-- The messages relayed to the client. -/
def Conn.relayed (c : Conn) : List Message := c.toClient.filterMap Frame.relay?

/-- The outbound task relays what it reads, in order, and stops at the first message it cannot
send. -/
def Conn.Relays (c : Conn) : Prop :=
  match c.outbound with
  | .locking msg | .sending msg => c.relayed ++ [msg] = c.fromUpstream
  | .ended => c.relayed <+: c.fromUpstream
  | _ => c.relayed = c.fromUpstream

/-- The Close frame for a leader, with the address the node's configuration has for it: the one its
peers use for Raft, and for the node itself the one it listens at. -/
def HintFrame (config : NodeConfig) (frame : Nat × String) : Prop :=
  ∃ id node, (PoolView.mk config fun _ => none).address? id = some node ∧
    frame = (CLOSE_AWAY, "leader=" ++ toString id ++ ":" ++ node.addr)

/-- The handler is on its way out because of the shutdown. -/
def HandlerPc.noticed : HandlerPc → Bool
  | .hinting => true
  | .closing _ => true
  | .sendingClose _ => true
  | _ => false

/-- The hint that the handler is about to send. -/
def HandlerPc.frame? : HandlerPc → Option (Nat × String)
  | .closing frame => some frame
  | .sendingClose frame => some frame
  | _ => none

/-- Why a handler ends: it never got to relay, one direction has ended, or there was a shutdown. -/
def Conn.Ending (c : Conn) (shutdown : Watch.Channel Bool) : Prop :=
  c.inbound = .absent ∨ c.inbound = .ended ∨ c.outbound = .ended ∨ ¬ shutdown.Quiet

structure Conn.Inv (config : NodeConfig) (shutdown : Watch.Channel Bool) (c : Conn) : Prop where
  rx : c.handler.waits = true → c.rx.seen = 0
  fresh : c.handler = .spawned ∨ c.handler = .accepting ∨ c.handler = .connecting →
    c.inbound = .absent ∧ c.outbound = .absent
  noticed : c.handler.noticed = true → ¬ shutdown.Quiet
  frame : ∀ frame, c.handler.frame? = some frame → HintFrame config frame
  relays : c.Relays
  closes : ∀ f ∈ c.toClient.dropLast, f.isClose = false
  hints : ∀ frame, .hint frame ∈ c.toClient → ¬ shutdown.Quiet ∧ HintFrame config frame
  ending : c.handler = .leaving ∨ c.handler = .returned → c.Ending shutdown
  exclusive : c.handler.holds = true → c.outbound.holds = false

section

variable {config : NodeConfig} {shutdown shutdown' : Watch.Channel Bool} {c c' : Conn}

theorem leaderCloseFrame_hint {v : PoolView} {s : ShardId} {frame : Nat × String}
    (h : leaderCloseFrame v s = some frame) : HintFrame v.config frame := by
  obtain ⟨⟨id, addr⟩, hleader, rfl⟩ := Option.map_eq_some_iff.mp h
  cases hshard : v.shards s with
  | none =>
    rw [PoolView.currentLeader, hshard] at hleader
    cases hleader
  | some metrics =>
    obtain ⟨m, leader⟩ := metrics
    cases leader with
    | none =>
      rw [PoolView.currentLeader, hshard] at hleader
      cases hleader
    | some leaderId =>
      have heq := (PoolView.currentLeader_eq hshard).symm.trans hleader
      obtain ⟨node, hnode, hpair⟩ := Option.map_eq_some_iff.mp heq
      cases hpair
      exact ⟨_, node, hnode, rfl⟩

/-- A send appends its frame to a sink that is still open. -/
theorem sendClient_some {ok : Bool} {f : Frame} (h : c.sendClient ok f = some c') :
    c.sinkOpen = true ∧ c' = { c with toClient := c.toClient ++ [f] } := by
  unfold Conn.sendClient at h
  split at h
  · rename_i hok
    cases h
    exact ⟨(Bool.and_eq_true_iff.mp hok).2, rfl⟩
  · cases h

theorem closes_append {f : Frame} (hopen : c.sinkOpen = true) :
    ∀ g ∈ (c.toClient ++ [f]).dropLast, g.isClose = false := by
  intro g hg
  rw [List.dropLast_concat] at hg
  have := List.all_eq_true.mp hopen g hg
  simpa using this

theorem Conn.Inv.spawn {rx : Watch.Receiver} (hseen : rx.seen = 0) :
    (Conn.spawn rx).Inv config shutdown where
  rx _ := hseen
  fresh _ := ⟨rfl, rfl⟩
  noticed h := by cases h
  frame _ h := by cases h
  relays := rfl
  closes f hf := by cases hf
  hints _ hmem := by cases hmem
  ending h := by rcases h with h | h <;> cases h
  exclusive h := by cases h

/-- A shutdown is never taken back. -/
theorem Conn.Inv.mono (h : c.Inv config shutdown) (hmono : ¬ shutdown.Quiet → ¬ shutdown'.Quiet) :
    c.Inv config shutdown' where
  rx := h.rx
  fresh := h.fresh
  noticed hpc := hmono (h.noticed hpc)
  frame := h.frame
  relays := h.relays
  closes := h.closes
  hints frame hmem := ⟨hmono (h.hints frame hmem).1, (h.hints frame hmem).2⟩
  ending hpc := (h.ending hpc).imp_right (Or.imp_right (Or.imp_right hmono))
  exclusive := h.exclusive

/-- A handler that waits for nothing any more only needs a reason to end. -/
theorem Conn.Inv.leave (h : c.Inv config shutdown) {pc : HandlerPc}
    (hpc : pc = .leaving ∨ pc = .returned)
    (hending : c.Ending shutdown) : { c with handler := pc }.Inv config shutdown where
  rx hwaits := by rcases hpc with rfl | rfl <;> cases hwaits
  fresh hfresh := by rcases hpc with rfl | rfl <;> rcases hfresh with hpc | hpc | hpc <;> cases hpc
  noticed hnoticed := by rcases hpc with rfl | rfl <;> cases hnoticed
  frame _ hframe := by rcases hpc with rfl | rfl <;> cases hframe
  relays := h.relays
  closes := h.closes
  hints := h.hints
  ending _ := hending
  exclusive hholds := by rcases hpc with rfl | rfl <;> cases hholds

theorem HandlerPc.noticed_of_waits {pc : HandlerPc} (h : pc.waits = true) : pc.noticed = false := by
  cases pc <;> first | rfl | cases h

theorem HandlerPc.frame?_of_waits {pc : HandlerPc} (h : pc.waits = true) : pc.frame? = none := by
  cases pc <;> first | rfl | cases h

theorem HandlerPc.holds_of_waits {pc : HandlerPc} (h : pc.waits = true) : pc.holds = false := by
  cases pc <;> first | rfl | cases h

/-- A handler that goes on waiting. -/
theorem Conn.Inv.advance (h : c.Inv config shutdown) (hwaits : c.handler.waits = true) {pc : HandlerPc}
    (hpc : pc.waits = true)
    (hfresh : pc = .spawned ∨ pc = .accepting ∨ pc = .connecting →
      c.inbound = .absent ∧ c.outbound = .absent) :
    { c with handler := pc }.Inv config shutdown where
  rx _ := h.rx hwaits
  fresh := hfresh
  noticed hnoticed := absurd hnoticed (by rw [HandlerPc.noticed_of_waits hpc]; decide)
  frame _ hframe := nomatch (HandlerPc.frame?_of_waits hpc).symm.trans hframe
  relays := h.relays
  closes := h.closes
  hints := h.hints
  ending hending := by rcases hending with rfl | rfl <;> cases hpc
  exclusive hholds := nomatch (HandlerPc.holds_of_waits hpc).symm.trans hholds

/-- The shard of a connection is not read here. -/
theorem Conn.Inv.route (h : c.Inv config shutdown) (s : ShardId) :
    { c with shardId := s }.Inv config shutdown :=
  ⟨h.rx, h.fresh, h.noticed, h.frame, h.relays, h.closes, h.hints, h.ending, h.exclusive⟩

/-- A handler that has seen the shutdown. -/
theorem Conn.Inv.notice (h : c.Inv config shutdown) (hquiet : ¬ shutdown.Quiet) {pc : HandlerPc}
    (hpc : pc.noticed = true) (hframe : ∀ frame, pc.frame? = some frame → HintFrame config frame)
    (hexclusive : pc.holds = true → c.outbound.holds = false) (rx : Watch.Receiver) :
    { c with handler := pc, rx := rx }.Inv config shutdown where
  rx hwaits := absurd hpc (by rw [HandlerPc.noticed_of_waits hwaits]; decide)
  fresh hfresh := by rcases hfresh with rfl | rfl | rfl <;> cases hpc
  noticed _ := hquiet
  frame := hframe
  relays := h.relays
  closes := h.closes
  hints := h.hints
  ending hending := by rcases hending with rfl | rfl <;> cases hpc
  exclusive := hexclusive

/-- The hint goes to the client after everything that was relayed. -/
theorem Conn.Inv.sendHint (h : c.Inv config shutdown) {frame : Nat × String}
    (hpc : c.handler = .sendingClose frame) (hopen : c.sinkOpen = true) :
    { c with toClient := c.toClient ++ [Frame.hint frame] }.Inv config shutdown where
  rx := h.rx
  fresh := h.fresh
  noticed := h.noticed
  frame := h.frame
  relays := by
    have hsame : { c with toClient := c.toClient ++ [Frame.hint frame] }.relayed = c.relayed := by
      simp [Conn.relayed, Frame.relay?]
    have hrelays := h.relays
    unfold Conn.Relays at hrelays ⊢
    rw [hsame]
    exact hrelays
  closes := closes_append hopen
  hints frame' hmem := by
    rcases List.mem_append.mp hmem with hold | hnew
    · exact h.hints frame' hold
    · obtain ⟨rfl⟩ : frame' = frame := by simpa using hnew
      exact ⟨h.noticed (by rw [hpc]; rfl), h.frame _ (by rw [hpc]; rfl)⟩
  ending := h.ending
  exclusive := h.exclusive

theorem Conn.Inv.relayed_of_absent (h : c.Inv config shutdown) (habsent : c.outbound = .absent) :
    c.relayed = c.fromUpstream := by
  have hrelays := h.relays
  rwa [Conn.Relays, habsent] at hrelays

/-- The two tasks are spawned, with nothing relayed yet. -/
theorem Conn.Inv.connect (h : c.Inv config shutdown) (hpc : c.handler = .connecting) :
    { c with
      handler := .selecting, inbound := .reading, outbound := .reading }.Inv config shutdown where
  rx _ := h.rx (by rw [hpc]; rfl)
  fresh hfresh := by rcases hfresh with hpc' | hpc' | hpc' <;> cases hpc'
  noticed hnoticed := by cases hnoticed
  frame _ hframe := by cases hframe
  relays := h.relayed_of_absent (h.fresh (.inr (.inr hpc))).2
  closes := h.closes
  hints := h.hints
  ending hending := by rcases hending with hpc' | hpc' <;> cases hpc'
  exclusive hholds := by cases hholds

/-- **A step of the handler.** -/
theorem Conn.Inv.handlerStep (h : c.Inv config shutdown) {event : HandlerEvent}
    (hstep : c.handlerStep config shutdown event = some c') : c'.Inv config shutdown := by
  cases event with
  | start =>
    obtain ⟨hpc, ⟨⟩⟩ := Option.ite_none_right_eq_some.mp hstep
    exact h.advance (by rw [hpc]; rfl) rfl fun _ => h.fresh (.inl hpc)
  | accepted router path =>
    obtain ⟨hpc, ⟨⟩⟩ := Option.ite_none_right_eq_some.mp hstep
    exact (h.advance (by rw [hpc]; rfl) rfl fun _ => h.fresh (.inr (.inl hpc))).route _
  | acceptFailed =>
    obtain ⟨hpc, ⟨⟩⟩ := Option.ite_none_right_eq_some.mp hstep
    exact h.leave (.inl rfl) (.inl (h.fresh (.inr (.inl hpc))).1)
  | connected =>
    obtain ⟨hpc, ⟨⟩⟩ := Option.ite_none_right_eq_some.mp hstep
    exact h.connect hpc
  | connectFailed =>
    obtain ⟨hpc, ⟨⟩⟩ := Option.ite_none_right_eq_some.mp hstep
    exact h.leave (.inl rfl) (.inl (h.fresh (.inr (.inr hpc))).1)
  | inboundEnded =>
    obtain ⟨⟨hpc, hended⟩, ⟨⟩⟩ := Option.ite_none_right_eq_some.mp hstep
    exact h.leave (.inl rfl) (.inr (.inl hended))
  | outboundEnded =>
    obtain ⟨⟨hpc, hended⟩, ⟨⟩⟩ := Option.ite_none_right_eq_some.mp hstep
    exact h.leave (.inl rfl) (.inr (.inr (.inl hended)))
  | shutdown =>
    obtain ⟨⟨hpc, hready⟩, ⟨⟩⟩ := Option.ite_none_right_eq_some.mp hstep
    have hseen : c.rx.seen = 0 := h.rx (by rw [hpc]; rfl)
    exact h.notice ((Watch.Receiver.ready_iff hseen _).mp hready) rfl
      (fun _ hframe => by cases hframe) (fun hholds => by cases hholds) _
  | leader shards =>
    obtain ⟨hpc, hstep⟩ := Option.ite_none_right_eq_some.mp hstep
    have hquiet : ¬ shutdown.Quiet := h.noticed (by rw [hpc]; rfl)
    cases hframe : leaderCloseFrame ⟨config, shards⟩ c.shardId with
    | some frame =>
      rw [hframe] at hstep
      cases hstep
      refine h.notice hquiet rfl (fun frame' heq => ?_) (fun hholds => by cases hholds) c.rx
      cases heq
      exact leaderCloseFrame_hint hframe
    | none =>
      rw [hframe] at hstep
      cases hstep
      exact h.leave (.inl rfl) (.inr (.inr (.inr hquiet)))
  | locked =>
    simp only [Conn.handlerStep] at hstep
    split at hstep
    · rename_i frame hpc
      obtain ⟨hfree, ⟨⟩⟩ := Option.ite_none_left_eq_some.mp hstep
      refine h.notice (h.noticed (by rw [hpc]; rfl)) rfl (fun frame' heq => ?_)
        (fun _ => Bool.eq_false_iff.mpr hfree) c.rx
      cases heq
      exact h.frame frame (by rw [hpc]; rfl)
    · cases hstep
  | closeSent ok =>
    simp only [Conn.handlerStep] at hstep
    split at hstep
    · rename_i frame hpc
      have hquiet : ¬ shutdown.Quiet := h.noticed (by rw [hpc]; rfl)
      cases hstep
      cases hsend : c.sendClient ok (.hint frame) with
      | some c₁ =>
        obtain ⟨hopen, rfl⟩ := sendClient_some hsend
        exact (h.sendHint hpc hopen).leave (.inl rfl) (.inr (.inr (.inr hquiet)))
      | none => exact h.leave (.inl rfl) (.inr (.inr (.inr hquiet)))
    · cases hstep
  | finish =>
    obtain ⟨hpc, ⟨⟩⟩ := Option.ite_none_right_eq_some.mp hstep
    exact h.leave (.inr rfl) (h.ending (.inl hpc))

/-- The inbound task has no part in what the client is sent, and it only ends once. -/
theorem Conn.Inv.setInbound (h : c.Inv config shutdown)
    (hrun : c.inbound ≠ .absent ∧ c.inbound ≠ .ended)
    (pc : InboundPc) (proposed : List (ShardId × Bytes)) (toUpstream : List Message) :
    { c with inbound := pc, proposed := proposed, toUpstream := toUpstream }.Inv config shutdown where
  rx := h.rx
  fresh hpc := absurd (h.fresh hpc).1 hrun.1
  noticed := h.noticed
  frame := h.frame
  relays := h.relays
  closes := h.closes
  hints := h.hints
  ending hpc := by
    rcases h.ending hpc with habsent | hended | hrest
    · exact absurd habsent hrun.1
    · exact absurd hended hrun.2
    · exact .inr (.inr hrest)
  exclusive := h.exclusive

/-- **A step of the inbound task.** -/
theorem Conn.Inv.inboundStep (h : c.Inv config shutdown) {event : InboundEvent}
    (hstep : c.inboundStep event = some c') : c'.Inv config shutdown := by
  cases event with
  | read msg =>
    obtain ⟨hpc, hstep⟩ := Option.ite_none_right_eq_some.mp hstep
    have hrun : c.inbound ≠ .absent ∧ c.inbound ≠ .ended := by rw [hpc]; decide
    split at hstep
    · cases hstep
      exact h.setInbound hrun _ _ _
    · cases hstep
      exact h.setInbound hrun _ _ _
  | readEnd =>
    obtain ⟨hpc, ⟨⟩⟩ := Option.ite_none_right_eq_some.mp hstep
    exact h.setInbound (by rw [hpc]; decide) _ _ _
  | proposed ok =>
    simp only [Conn.inboundStep] at hstep
    split at hstep
    · rename_i msg hpc
      cases hstep
      exact h.setInbound (by rw [hpc]; simp) _ _ _
    · cases hstep
  | sent ok =>
    simp only [Conn.inboundStep] at hstep
    split at hstep
    · rename_i msg hpc
      have hrun : c.inbound ≠ .absent ∧ c.inbound ≠ .ended := by rw [hpc]; simp
      split at hstep
      · cases hstep
        exact h.setInbound hrun _ _ _
      · cases hstep
        exact h.setInbound hrun _ _ _
    · cases hstep

theorem Conn.Inv.setOutbound (h : c.Inv config shutdown)
    (hrun : c.outbound ≠ .absent ∧ c.outbound ≠ .ended)
    {pc : OutboundPc} {fromUpstream : List Message} {toClient : List Frame}
    (hrelays : { c with outbound := pc, fromUpstream := fromUpstream, toClient := toClient }.Relays)
    (hcloses : ∀ f ∈ toClient.dropLast, f.isClose = false)
    (hhints : ∀ frame, .hint frame ∈ toClient → .hint frame ∈ c.toClient)
    (hexclusive : c.handler.holds = true → pc.holds = false) :
    { c with
      outbound := pc, fromUpstream := fromUpstream, toClient := toClient }.Inv config shutdown where
  rx := h.rx
  fresh hpc := absurd (h.fresh hpc).2 hrun.1
  noticed := h.noticed
  frame := h.frame
  relays := hrelays
  closes := hcloses
  hints frame hmem := h.hints frame (hhints frame hmem)
  ending hpc := by
    rcases h.ending hpc with habsent | hended | hended | hquiet
    · exact .inl habsent
    · exact .inr (.inl hended)
    · exact absurd hended hrun.2
    · exact .inr (.inr (.inr hquiet))
  exclusive := hexclusive

/-- **A step of the outbound task.** -/
theorem Conn.Inv.outboundStep (h : c.Inv config shutdown) {event : OutboundEvent}
    (hstep : c.outboundStep event = some c') : c'.Inv config shutdown := by
  have hrelays := h.relays
  cases event with
  | read msg =>
    obtain ⟨hpc, ⟨⟩⟩ := Option.ite_none_right_eq_some.mp hstep
    rw [Conn.Relays, hpc] at hrelays
    exact h.setOutbound (by rw [hpc]; decide) (congrArg (· ++ [msg]) hrelays) h.closes
      (fun _ hmem => hmem) fun _ => rfl
  | locked =>
    simp only [Conn.outboundStep] at hstep
    split at hstep
    · rename_i msg hpc
      obtain ⟨hfree, ⟨⟩⟩ := Option.ite_none_left_eq_some.mp hstep
      rw [Conn.Relays, hpc] at hrelays
      exact h.setOutbound (by rw [hpc]; simp) hrelays h.closes (fun _ hmem => hmem)
        fun hholds => absurd hholds hfree
    · cases hstep
  | readEnd =>
    obtain ⟨hpc, ⟨⟩⟩ := Option.ite_none_right_eq_some.mp hstep
    rw [Conn.Relays, hpc] at hrelays
    exact h.setOutbound (by rw [hpc]; decide) ⟨[], (List.append_nil _).trans hrelays⟩ h.closes
      (fun _ hmem => hmem) fun _ => rfl
  | sent ok =>
    simp only [Conn.outboundStep] at hstep
    split at hstep
    · rename_i msg hpc
      rw [Conn.Relays, hpc] at hrelays
      have hrun : c.outbound ≠ .absent ∧ c.outbound ≠ .ended := by rw [hpc]; simp
      split at hstep
      · rename_i c₁ hsend
        obtain ⟨hopen, rfl⟩ := sendClient_some hsend
        cases hstep
        refine h.setOutbound hrun ?_ (closes_append hopen) (fun frame hmem => by simpa using hmem)
          fun _ => rfl
        show (c.toClient ++ [Frame.relay msg]).filterMap Frame.relay? = c.fromUpstream
        rw [List.filterMap_append]
        exact hrelays
      · cases hstep
        exact h.setOutbound hrun ⟨[msg], hrelays⟩ h.closes (fun _ hmem => hmem) fun _ => rfl
    · cases hstep

end

/-! ## The node -/

inductive MainPc where
  | serving
  | draining
  | returned
  deriving DecidableEq, Repr

structure World where
  main : MainPc
  shutdown : Watch.Channel Bool
  /-- The receiver of the proxy. -/
  shutdownRx : Watch.Receiver
  conns : List Conn
  /-- `CONNECTIONS_ACTIVE`. -/
  connectionsActive : Int

def World.start : World :=
  let (shutdown, shutdownRx) := Watch.channel false
  ⟨.serving, shutdown, shutdownRx, [], 0⟩

inductive Party where
  | handler
  | inbound
  | outbound
  deriving DecidableEq, Repr

inductive Label where
  | accept
  | acceptError
  | signal
  | drained
  | handler (i : Nat) (event : HandlerEvent)
  | inbound (i : Nat) (event : InboundEvent)
  | outbound (i : Nat) (event : OutboundEvent)
  | drop (i : Nat) (party : Party)

/-- The runtime drops a task. -/
def Conn.dropParty (c : Conn) : Party → Conn
  | .handler => { c with handler := .dropped c.handler.counted }
  | .inbound => { c with inbound := if c.inbound = .absent then .absent else .ended }
  | .outbound => { c with outbound := if c.outbound = .absent then .absent else .ended }

/-- What `handle_client` does to the gauge. -/
def HandlerEvent.gauge : HandlerEvent → Int
  | .start => 1
  | .finish => -1
  | _ => 0

def World.updateConn (w : World) (i : Nat) (f : Conn → Option Conn) : Option World := do
  let c ← w.conns[i]?
  let c' ← f c
  some { w with conns := w.conns.set i c' }

def step (config : NodeConfig) (w : World) : Label → Option World
  | .accept =>
      if w.main = .serving then some { w with conns := w.conns ++ [Conn.spawn w.shutdownRx] } else none
  | .acceptError =>
      if w.main = .serving then some { w with main := .returned, shutdown := w.shutdown.close }
      else none
  | .signal =>
      if w.main = .serving then some { w with main := .draining, shutdown := w.shutdown.send true }
      else none
  | .drained =>
      if w.main = .draining then some { w with main := .returned, shutdown := w.shutdown.close }
      else none
  | .handler i event => do
      let w' ← w.updateConn i fun c => c.handlerStep config w.shutdown event
      some { w' with connectionsActive := w'.connectionsActive + event.gauge }
  | .inbound i event => w.updateConn i fun c => c.inboundStep event
  | .outbound i event => w.updateConn i fun c => c.outboundStep event
  | .drop i party =>
      if w.main = .returned then w.updateConn i fun c => some (c.dropParty party) else none

/-! ## Every step -/

section

variable {config : NodeConfig} {shutdown : Watch.Channel Bool} {c : Conn} {w w' : World}

theorem Conn.Inv.inOrder (h : c.Inv config shutdown) : c.relayed <+: c.fromUpstream := by
  have hrelays := h.relays
  rw [Conn.Relays] at hrelays
  split at hrelays
  · exact ⟨_, hrelays⟩
  · exact ⟨_, hrelays⟩
  · exact hrelays
  · exact ⟨[], (List.append_nil _).trans hrelays⟩

theorem Conn.Inv.dropParty (h : c.Inv config shutdown) (party : Party) :
    (c.dropParty party).Inv config shutdown := by
  cases party with
  | handler =>
    refine ⟨fun hpc => (by cases hpc), fun hpc => ?_, fun hpc => (by cases hpc),
      fun _ hpc => (by cases hpc), h.relays, h.closes, h.hints, fun hpc => ?_,
      fun hholds => (by cases hholds)⟩
    · rcases hpc with hpc | hpc | hpc <;> cases hpc
    · rcases hpc with hpc | hpc <;> cases hpc
  | inbound =>
    by_cases habsent : c.inbound = .absent
    · have hsame : c.dropParty .inbound = c := by
        rw [Conn.dropParty, if_pos habsent, ← habsent]
      rw [hsame]
      exact h
    · rw [Conn.dropParty, if_neg habsent]
      refine ⟨h.rx, fun hpc => absurd (h.fresh hpc).1 habsent, h.noticed, h.frame, h.relays,
        h.closes, h.hints, ?_, h.exclusive⟩
      exact fun _ => .inr (.inl rfl)
  | outbound =>
    by_cases habsent : c.outbound = .absent
    · have hsame : c.dropParty .outbound = c := by
        rw [Conn.dropParty, if_pos habsent, ← habsent]
      rw [hsame]
      exact h
    · rw [Conn.dropParty, if_neg habsent]
      refine ⟨h.rx, fun hpc => absurd (h.fresh hpc).2 habsent, h.noticed, h.frame, ?_, h.closes,
        h.hints, ?_, fun _ => rfl⟩
      · exact h.inOrder
      · exact fun _ => .inr (.inr (.inl rfl))

/-- The gauge counts the handlers that are counted. -/
def World.counted (w : World) : Int := (w.conns.countP fun c => c.handler.counted : Nat)

structure World.Inv (config : NodeConfig) (w : World) : Prop where
  conns : ∀ c ∈ w.conns, c.Inv config w.shutdown
  quiet : w.shutdown.Quiet ↔ w.main = .serving
  proxy : w.shutdownRx.seen = 0
  gauge : w.connectionsActive = w.counted

theorem World.Inv.start : World.start.Inv config :=
  ⟨fun _ hc => (by cases hc), ⟨fun _ => rfl, fun _ => Watch.Channel.quiet_channel false⟩, rfl, rfl⟩

theorem updateConn_some {i : Nat} {f : Conn → Option Conn} (h : w.updateConn i f = some w') :
    ∃ c c', w.conns[i]? = some c ∧ f c = some c' ∧ w' = { w with conns := w.conns.set i c' } := by
  simp only [World.updateConn, Option.bind_eq_bind, Option.bind_eq_some_iff, Option.some.injEq] at h
  obtain ⟨c, hc, c', hc', rfl⟩ := h
  exact ⟨c, c', hc, hc', rfl⟩

def Conn.weight (c : Conn) : Int := if c.handler.counted then 1 else 0

/-- `handle_client` counts the connection once and takes it off once, on every way through. -/
theorem handlerStep_weight {c' : Conn} {event : HandlerEvent}
    (hstep : c.handlerStep config shutdown event = some c') : c'.weight = c.weight + event.gauge := by
  cases event with
  | leader shards =>
    obtain ⟨hpc, hstep⟩ := Option.ite_none_right_eq_some.mp hstep
    split at hstep
    all_goals
      cases hstep
      simp [Conn.weight, hpc, HandlerPc.counted, HandlerEvent.gauge]
  | locked =>
    simp only [Conn.handlerStep] at hstep
    split at hstep
    · rename_i frame hpc
      obtain ⟨-, ⟨⟩⟩ := Option.ite_none_left_eq_some.mp hstep
      simp [Conn.weight, hpc, HandlerPc.counted, HandlerEvent.gauge]
    · cases hstep
  | closeSent ok =>
    simp only [Conn.handlerStep] at hstep
    split at hstep
    · rename_i frame hpc
      cases hstep
      simp [Conn.weight, hpc, HandlerPc.counted, HandlerEvent.gauge]
    · cases hstep
  | inboundEnded =>
    obtain ⟨⟨hpc, -⟩, ⟨⟩⟩ := Option.ite_none_right_eq_some.mp hstep
    simp [Conn.weight, hpc, HandlerPc.counted, HandlerEvent.gauge]
  | outboundEnded =>
    obtain ⟨⟨hpc, -⟩, ⟨⟩⟩ := Option.ite_none_right_eq_some.mp hstep
    simp [Conn.weight, hpc, HandlerPc.counted, HandlerEvent.gauge]
  | shutdown =>
    obtain ⟨⟨hpc, -⟩, ⟨⟩⟩ := Option.ite_none_right_eq_some.mp hstep
    simp [Conn.weight, hpc, HandlerPc.counted, HandlerEvent.gauge]
  | _ =>
    obtain ⟨hpc, ⟨⟩⟩ := Option.ite_none_right_eq_some.mp hstep
    simp [Conn.weight, hpc, HandlerPc.counted, HandlerEvent.gauge]

theorem inboundStep_handler {c' : Conn} {event : InboundEvent}
    (hstep : c.inboundStep event = some c') :
    c'.handler = c.handler := by
  cases event with
  | read msg =>
    obtain ⟨-, hstep⟩ := Option.ite_none_right_eq_some.mp hstep
    split at hstep <;> cases hstep <;> rfl
  | readEnd =>
    obtain ⟨-, ⟨⟩⟩ := Option.ite_none_right_eq_some.mp hstep
    rfl
  | proposed ok =>
    simp only [Conn.inboundStep] at hstep
    split at hstep <;> cases hstep
    rfl
  | sent ok =>
    simp only [Conn.inboundStep] at hstep
    split at hstep
    · split at hstep <;> cases hstep <;> rfl
    · cases hstep

theorem outboundStep_handler {c' : Conn} {event : OutboundEvent}
    (hstep : c.outboundStep event = some c') :
    c'.handler = c.handler := by
  cases event with
  | sent ok =>
    simp only [Conn.outboundStep] at hstep
    split at hstep
    · split at hstep
      · rename_i c₁ hsend
        obtain ⟨-, rfl⟩ := sendClient_some hsend
        cases hstep
        rfl
      · cases hstep
        rfl
    · cases hstep
  | locked =>
    simp only [Conn.outboundStep] at hstep
    split at hstep
    · obtain ⟨-, ⟨⟩⟩ := Option.ite_none_left_eq_some.mp hstep
      rfl
    · cases hstep
  | _ =>
    obtain ⟨-, ⟨⟩⟩ := Option.ite_none_right_eq_some.mp hstep
    rfl

theorem dropParty_counted (party : Party) : (c.dropParty party).handler.counted =
    c.handler.counted := by
  cases party <;> rfl

theorem World.Inv.update (h : w.Inv config) {i : Nat} {f : Conn → Option Conn} {gauge : Int}
    (hupdate : w.updateConn i f = some w')
    (hf : ∀ c c', f c = some c' →
      (c.Inv config w.shutdown → c'.Inv config w.shutdown) ∧ c'.weight = c.weight + gauge) :
    { w' with connectionsActive := w'.connectionsActive + gauge }.Inv config := by
  obtain ⟨c, c', hc, hc', rfl⟩ := updateConn_some hupdate
  obtain ⟨hinv, hweight⟩ := hf c c' hc'
  refine ⟨fun x hx => ?_, h.quiet, h.proxy, ?_⟩
  · rcases List.mem_or_eq_of_mem_set hx with hold | rfl
    · exact h.conns x hold
    · exact hinv (h.conns c (List.mem_of_getElem? hc))
  · show w.connectionsActive + gauge = (((w.conns.set i c').countP _ : Nat) : Int)
    rw [Lists.countP_set _ hc, h.gauge]
    simp only [Conn.weight] at hweight
    rw [hweight, World.counted]
    omega

/-- The channel changes: a shutdown is never taken back. -/
theorem World.Inv.setMain (h : w.Inv config) {main : MainPc} {shutdown : Watch.Channel Bool}
    (hmain : main ≠ .serving) (hquiet : ¬ shutdown.Quiet) :
    { w with main := main, shutdown := shutdown }.Inv config :=
  ⟨fun c hc => (h.conns c hc).mono fun _ => hquiet,
    ⟨fun hq => absurd hq hquiet, fun hm => absurd hm hmain⟩, h.proxy, h.gauge⟩

/-- **Every step** keeps the invariant. -/
theorem World.Inv.step (h : w.Inv config) {l : Label} (hstep : step config w l = some w') :
    w'.Inv config := by
  have hsame : ∀ w₁ : World, { w₁ with connectionsActive := w₁.connectionsActive + 0 } = w₁ := by
    intro w₁
    rw [Int.add_zero]
  cases l with
  | accept =>
    obtain ⟨hserving, ⟨⟩⟩ := Option.ite_none_right_eq_some.mp hstep
    refine ⟨fun c hc => ?_, h.quiet, h.proxy, ?_⟩
    · rcases List.mem_append.mp hc with hold | hnew
      · exact h.conns c hold
      · obtain rfl := List.mem_singleton.mp hnew
        exact Conn.Inv.spawn h.proxy
    · show w.connectionsActive = ((List.countP _ (w.conns ++ [_]) : Nat) : Int)
      rw [List.countP_append, h.gauge]
      rfl
  | acceptError =>
    obtain ⟨hserving, ⟨⟩⟩ := Option.ite_none_right_eq_some.mp hstep
    exact h.setMain (by decide) (Watch.Channel.not_quiet_close _)
  | signal =>
    obtain ⟨hserving, ⟨⟩⟩ := Option.ite_none_right_eq_some.mp hstep
    exact h.setMain (by decide) (Watch.Channel.not_quiet_send _ _)
  | drained =>
    obtain ⟨hserving, ⟨⟩⟩ := Option.ite_none_right_eq_some.mp hstep
    exact h.setMain (by decide) (Watch.Channel.not_quiet_close _)
  | handler i event =>
    obtain ⟨w₁, hupdate, heq⟩ := Option.bind_eq_some_iff.mp hstep
    cases heq
    exact h.update hupdate fun c c' hc => ⟨fun hinv => hinv.handlerStep hc, handlerStep_weight hc⟩
  | inbound i event =>
    rw [← hsame w']
    refine h.update hstep fun c c' hc => ⟨fun hinv => hinv.inboundStep hc, ?_⟩
    rw [Conn.weight, inboundStep_handler hc, Int.add_zero, Conn.weight]
  | outbound i event =>
    rw [← hsame w']
    refine h.update hstep fun c c' hc => ⟨fun hinv => hinv.outboundStep hc, ?_⟩
    rw [Conn.weight, outboundStep_handler hc, Int.add_zero, Conn.weight]
  | drop i party =>
    obtain ⟨hreturned, hupdate⟩ := Option.ite_none_right_eq_some.mp hstep
    rw [← hsame w']
    refine h.update hupdate fun c c' hc => ?_
    obtain rfl : c.dropParty party = c' := Option.some.inj hc
    refine ⟨fun hinv => hinv.dropParty party, ?_⟩
    rw [Conn.weight, dropParty_counted, Int.add_zero, Conn.weight]

end

/-! ## Main result -/

end RaftTimeDB.Shutdown
