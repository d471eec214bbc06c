import RaftTimeDB.Handler
import Mathlib.Data.List.Basic

/-!
# The inbound loop

The task of `handle_client_inner` (`crates/proxy/src/websocket/handler.rs`) that reads the client's
messages: it classifies each one, proposes the writes through Raft, and sends upstream what it may.
A read error or a failed upstream send ends the loop; a failed proposal skips the message.

* The outcomes of `propose_write` and of the upstream sends are chosen by the environment, one for
  each message of the stream (`Outcomes`).
* `inbound` is the sequence of what the loop does, with the position of the message in the stream.

Principal results: `inbound_eq_blocks` — the loop works off the processed messages one after the
other; `inbound_relays` — what is proposed, what goes upstream, and in which order.
-/

set_option autoImplicit false

namespace RaftTimeDB.Inbound

/-- An item of `client_rx`. -/
inductive StreamItem where
  | msg (message : Message)
  | readError
  deriving DecidableEq, Repr

/-- Whether `propose_write` and the upstream send succeed, by position of the message. -/
structure Outcomes where
  propose : Nat → Bool
  send : Nat → Bool

inductive Event where
  | classify (pos : Nat) (message : Message) (kind : MessageKind)
  | propose (pos : Nat) (shardId : ShardId) (data : Bytes) (ok : Bool)
  | send (pos : Nat) (message : Message) (ok : Bool)
  deriving DecidableEq, Repr

def Event.pos : Event → Nat
  | .classify pos _ _ => pos
  | .propose pos _ _ _ => pos
  | .send pos _ _ => pos

/-- The loop from position `pos` of the stream on. -/
def inbound (shardId : ShardId) (env : Outcomes) : Nat → List StreamItem → List Event
  | _, [] => []
  | _, .readError :: _ => []
  | pos, .msg message :: rest =>
      let next := inbound shardId env (pos + 1) rest
      -- `upstream_tx.send`; the loop breaks if it fails
      let upstream := Event.send pos message (env.send pos) :: if env.send pos then next else []
      let kind := classifyMessage message
      .classify pos message kind ::
        match kind with
        | .write =>
            match message with
            | .binary data =>
                .propose pos shardId data (env.propose pos) ::
                  -- `continue` if the proposal fails
                  if env.propose pos then upstream else next
            | _ => upstream
        | .read => upstream
        | .passThrough => upstream

/-! ## What the loop is for -/

/-- The payload of a write: a binary message whose first byte is 3 or 4. -/
def writePayload? : Message → Option Bytes
  | .binary data => if data.head? = some 3 ∨ data.head? = some 4 then some data else none
  | _ => none

/-- The messages before the first read error. -/
def readable : List StreamItem → List Message
  | .msg message :: rest => message :: readable rest
  | _ => []

/-- The message is to go upstream: it is no write, or its own proposal succeeds. -/
def Outcomes.admits (env : Outcomes) (x : Message × Nat) : Bool :=
  (writePayload? x.1).isNone || env.propose x.2

def Outcomes.sendFails (env : Outcomes) (x : Message × Nat) : Bool :=
  env.admits x && !env.send x.2

/-- The elements up to the first one that passes the test, which is the last one kept. -/
def upTo {α : Type} (p : α → Bool) : List α → List α
  | [] => []
  | a :: l => a :: if p a then [] else upTo p l

/-- The processed messages with their positions: those before the first read error, up to the first
failed upstream send. -/
def processed (env : Outcomes) (stream : List StreamItem) : List (Message × Nat) :=
  upTo env.sendFails (readable stream).zipIdx

/-- What the loop does with one message. -/
def block (shardId : ShardId) (env : Outcomes) (x : Message × Nat) : List Event :=
  .classify x.2 x.1 (classifyMessage x.1) ::
    match writePayload? x.1 with
    | some data =>
        .propose x.2 shardId data (env.propose x.2) ::
          if env.propose x.2 then [.send x.2 x.1 (env.send x.2)] else []
    | none => [.send x.2 x.1 (env.send x.2)]

/-- The shard and payload handed to `propose_write`. -/
def Event.proposal? : Event → Option (ShardId × Bytes)
  | .propose _ shardId data _ => some (shardId, data)
  | _ => none

/-- The message sent upstream, if the send succeeds. -/
def Event.upstream? : Event → Option Message
  | .send _ message true => some message
  | _ => none

/-! ## One message -/

theorem writePayload?_eq_some_iff {message : Message} {data : Bytes} :
    writePayload? message = some data ↔
      message = .binary data ∧ classifyMessage message = .write := by
  constructor
  · intro h
    unfold writePayload? at h
    split at h
    · rename_i bytes
      split at h
      · rename_i htag
        cases h
        refine ⟨rfl, classifyMessage_eq_write_iff.mpr ?_⟩
        rcases htag with htag | htag
        · obtain ⟨rest, rfl⟩ := List.head?_eq_some_iff.mp htag
          exact ⟨3, rest, rfl, rfl⟩
        · obtain ⟨rest, rfl⟩ := List.head?_eq_some_iff.mp htag
          exact ⟨4, rest, rfl, rfl⟩
      · cases h
    · cases h
  · rintro ⟨rfl, hwrite⟩
    obtain ⟨tag, rest, heq, htag⟩ := classifyMessage_eq_write_iff.mp hwrite
    cases heq
    rw [isWriteTag, Bool.or_eq_true, beq_iff_eq, beq_iff_eq] at htag
    rcases htag with rfl | rfl <;> rfl

theorem classify_of_writePayload?_none {message : Message} (h : writePayload? message = none) :
    classifyMessage message ≠ .write := by
  intro hwrite
  obtain ⟨tag, rest, rfl, -⟩ := classifyMessage_eq_write_iff.mp hwrite
  rw [writePayload?_eq_some_iff.mpr ⟨rfl, hwrite⟩] at h
  cases h

/-- One round of the loop. -/
theorem inbound_msg (shardId : ShardId) (env : Outcomes) (pos : Nat) (message : Message)
    (rest : List StreamItem) :
    inbound shardId env pos (.msg message :: rest) =
      block shardId env (message, pos) ++
        if env.sendFails (message, pos) then [] else inbound shardId env (pos + 1) rest := by
  cases hpayload : writePayload? message with
  | some data =>
    obtain ⟨rfl, hwrite⟩ := writePayload?_eq_some_iff.mp hpayload
    simp only [inbound, block, Outcomes.sendFails, Outcomes.admits, hpayload, hwrite]
    cases env.propose pos <;> cases env.send pos <;> simp
  | none =>
    have hkind := classify_of_writePayload?_none hpayload
    simp only [inbound, block, Outcomes.sendFails, Outcomes.admits, hpayload]
    cases hclass : classifyMessage message with
    | write => exact absurd hclass hkind
    | read => cases env.send pos <;> simp
    | passThrough => cases env.send pos <;> simp

/-- **The loop works off the processed messages**, each one before the next. -/
theorem inbound_eq_blocks (shardId : ShardId) (env : Outcomes) (pos : Nat)
    (stream : List StreamItem) :
    inbound shardId env pos stream =
      (upTo env.sendFails ((readable stream).zipIdx pos)).flatMap (block shardId env) := by
  induction stream generalizing pos with
  | nil => rfl
  | cons item rest ih =>
    cases item with
    | readError => rfl
    | msg message =>
      rw [inbound_msg, readable, List.zipIdx_cons, upTo, List.flatMap_cons, ih (pos + 1)]
      cases env.sendFails (message, pos) <;> rfl

/-! ## The whole stream -/

theorem block_proposals (shardId : ShardId) (env : Outcomes) (x : Message × Nat) :
    (block shardId env x).filterMap Event.proposal? =
      ((writePayload? x.1).map fun data => (shardId, data)).toList := by
  unfold block
  cases writePayload? x.1 with
  | some data => cases env.propose x.2 <;> rfl
  | none => rfl

theorem block_upstream (shardId : ShardId) (env : Outcomes) (x : Message × Nat) :
    (block shardId env x).filterMap Event.upstream? =
      (if env.admits x && env.send x.2 then some x.1 else none).toList := by
  unfold block Outcomes.admits
  cases writePayload? x.1 with
  | some data => cases env.propose x.2 <;> cases env.send x.2 <;> rfl
  | none => cases env.send x.2 <;> rfl

theorem block_pos {shardId : ShardId} {env : Outcomes} {x : Message × Nat} {ev : Event}
    (h : ev ∈ block shardId env x) : ev.pos = x.2 := by
  unfold block at h
  cases hpayload : writePayload? x.1 with
  | some data =>
    cases hok : env.propose x.2 <;> simp [hpayload, hok] at h
    · rcases h with rfl | rfl <;> rfl
    · rcases h with rfl | rfl | rfl <;> rfl
  | none =>
    simp [hpayload] at h
    rcases h with rfl | rfl <;> rfl

/-- In a block, a write is sent last, after its successful proposal. -/
theorem block_send {shardId : ShardId} {env : Outcomes} {x : Message × Nat}
    {pre post : List Event} {pos : Nat} {message : Message} {ok : Bool} {data : Bytes}
    (h : block shardId env x = pre ++ .send pos message ok :: post)
    (hwrite : writePayload? message = some data) :
    .propose pos shardId data true ∈ pre ∧ post = [] := by
  have hmem : Event.send pos message ok ∈ block shardId env x := by
    rw [h]
    simp
  cases hpayload : writePayload? x.1 with
  | none =>
    -- a message that is no write is the only one sent in its block
    simp [block, hpayload] at hmem
    rw [hmem.2.1, hpayload] at hwrite
    cases hwrite
  | some data' =>
    cases hok : env.propose x.2 with
    | false => simp [block, hpayload, hok] at hmem
    | true =>
      simp [block, hpayload, hok] at hmem
      obtain ⟨rfl, rfl, rfl⟩ := hmem
      rw [hpayload] at hwrite
      cases hwrite
      simp only [block, hpayload, hok, if_true] at h
      rcases pre with _ | ⟨ev₁, _ | ⟨ev₂, _ | ⟨ev₃, pre⟩⟩⟩
      · simp at h
      · simp at h
      · simp only [List.cons_append, List.nil_append, List.cons.injEq, true_and] at h
        obtain ⟨-, rfl, rfl⟩ := h
        exact ⟨by simp, rfl⟩
      · simp at h

/-- In consecutive blocks, a write is sent after its proposal, after everything about earlier
messages and before everything about later ones. -/
theorem blocks_send {shardId : ShardId} {env : Outcomes} {pos : Nat} {message : Message}
    {ok : Bool} {data : Bytes} (hwrite : writePayload? message = some data) :
    ∀ {msgs : List (Message × Nat)} {pre post : List Event},
      msgs.Pairwise (fun x y => x.2 < y.2) →
      msgs.flatMap (block shardId env) = pre ++ .send pos message ok :: post →
      .propose pos shardId data true ∈ pre ∧ (∀ ev ∈ pre, ev.pos ≤ pos) ∧
        ∀ ev ∈ post, pos < ev.pos
  | [], pre, post, _, h => by simp at h
  | x :: msgs, pre, post, hinc, h => by
    rw [List.pairwise_cons] at hinc
    have hlater : ∀ ev ∈ msgs.flatMap (block shardId env), x.2 < ev.pos := by
      intro ev hev
      obtain ⟨y, hy, hblock⟩ := List.mem_flatMap.mp hev
      rw [block_pos hblock]
      exact hinc.1 y hy
    rw [List.flatMap_cons] at h
    rcases List.append_eq_append_iff.mp h with ⟨mid, rfl, hmid⟩ | ⟨mid, hblock, hpost⟩
    · -- the send lies in a later block
      obtain ⟨hpropose, hbefore, hafter⟩ := blocks_send hwrite hinc.2 hmid
      refine ⟨List.mem_append_right _ hpropose, ?_, hafter⟩
      intro ev hev
      rcases List.mem_append.mp hev with hev | hev
      · have hsend : x.2 < pos := hlater (.send pos message ok) (by rw [hmid]; simp)
        rw [block_pos hev]
        omega
      · exact hbefore ev hev
    · cases mid with
      | nil =>
        rw [List.nil_append] at hpost
        have hmid : msgs.flatMap (block shardId env) = [] ++ .send pos message ok :: post :=
          hpost.symm
        obtain ⟨hpropose, -, -⟩ := blocks_send hwrite hinc.2 hmid
        cases hpropose
      | cons ev mid =>
        rw [List.cons_append, List.cons.injEq] at hpost
        obtain ⟨rfl, rfl⟩ := hpost
        obtain ⟨hpropose, rfl⟩ := block_send hblock hwrite
        have hmem : Event.send pos message ok ∈ block shardId env x := by
          rw [hblock]
          simp
        have hpos : pos = x.2 := block_pos hmem
        refine ⟨hpropose, ?_, ?_⟩
        · intro ev hev
          have hsame : ev.pos = x.2 := block_pos (by rw [hblock]; exact List.mem_append_left _ hev)
          omega
        · intro ev hev
          rw [hpos]
          exact hlater ev hev

theorem zipIdx_increasing (msgs : List Message) (pos : Nat) :
    (msgs.zipIdx pos).Pairwise fun x y => x.2 < y.2 := by
  induction msgs generalizing pos with
  | nil => exact List.Pairwise.nil
  | cons message msgs ih =>
    rw [List.zipIdx_cons, List.pairwise_cons]
    refine ⟨fun y hy => ?_, ih (pos + 1)⟩
    have hle := List.le_snd_of_mem_zipIdx hy
    omega

theorem upTo_initial {α : Type} (p : α → Bool) (l : List α) : upTo p l <+: l := by
  induction l with
  | nil => exact List.prefix_rfl
  | cons a l ih =>
    rw [upTo, List.cons_prefix_cons]
    refine ⟨rfl, ?_⟩
    cases p a with
    | true => exact List.nil_prefix
    | false => exact ih

/-- **The inbound loop relays exactly the right messages in order.**  The proposals are the processed
writes, all for the shard of the connection.  Upstream go the processed messages that are no writes and
the writes whose own proposal succeeded, but for one whose send fails.  A write is sent after its
proposal succeeded and before anything is done with a later message. -/
theorem inbound_relays (shardId : ShardId) (env : Outcomes) (stream : List StreamItem) :
    (inbound shardId env 0 stream).filterMap Event.proposal? =
      (processed env stream).filterMap
        (fun x => (writePayload? x.1).map fun data => (shardId, data)) ∧
    (inbound shardId env 0 stream).filterMap Event.upstream? =
      ((processed env stream).filter fun x => env.admits x && env.send x.2).map Prod.fst ∧
    ∀ pre post pos message ok data,
      inbound shardId env 0 stream = pre ++ .send pos message ok :: post →
      writePayload? message = some data →
      .propose pos shardId data true ∈ pre ∧ (∀ ev ∈ pre, ev.pos ≤ pos) ∧
        ∀ ev ∈ post, pos < ev.pos := by
  rw [inbound_eq_blocks]
  refine ⟨?_, ?_, ?_⟩
  · rw [List.filterMap_flatMap, List.filterMap_eq_flatMap_toList]
    exact List.flatMap_congr fun x _ => block_proposals shardId env x
  · rw [List.filterMap_flatMap, ← List.filterMap_eq_map, List.filterMap_filter,
      List.filterMap_eq_flatMap_toList]
    exact List.flatMap_congr fun x _ => block_upstream shardId env x
  · intro pre post pos message ok data htrace hwrite
    have hinc := (zipIdx_increasing (readable stream) 0).sublist (upTo_initial env.sendFails _).sublist
    exact blocks_send hwrite hinc htrace

/-- A subscription, a write whose proposal fails, a write that goes through, a text whose send fails,
and one more write. -/
def mixedStream : List StreamItem :=
  [.msg (.binary [0, 7]), .msg (.binary [3, 1]), .msg (.binary [4]), .msg (.text "a"),
    .msg (.binary [3])]

def mixedOutcomes : Outcomes := ⟨fun pos => pos != 1, fun pos => pos != 3⟩

/-- The last message is never looked at; the write that goes through is sent right after its
proposal. -/
theorem inbound_relays_mixed :
    (inbound 2 mixedOutcomes 0 mixedStream).filterMap Event.proposal? = [(2, [3, 1]), (2, [4])] ∧
    (inbound 2 mixedOutcomes 0 mixedStream).filterMap Event.upstream? =
      [.binary [0, 7], .binary [4]] ∧
    ∀ ev ∈ [Event.classify 3 (.text "a") .passThrough, .send 3 (.text "a") false], 2 < ev.pos := by
  have h := inbound_relays 2 mixedOutcomes mixedStream
  refine ⟨h.1.trans (by decide), h.2.1.trans (by decide), ?_⟩
  exact (h.2.2
    [.classify 0 (.binary [0, 7]) .read, .send 0 (.binary [0, 7]) true,
      .classify 1 (.binary [3, 1]) .write, .propose 1 2 [3, 1] false,
      .classify 2 (.binary [4]) .write, .propose 2 2 [4] true]
    [.classify 3 (.text "a") .passThrough, .send 3 (.text "a") false]
    2 (.binary [4]) true [4] (by decide) (by decide)).2.2

end RaftTimeDB.Inbound
