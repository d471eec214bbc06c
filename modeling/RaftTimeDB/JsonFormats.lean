import RaftTimeDB.Lib.Codec
import RaftTimeDB.LogStore
import RaftTimeDB.StateMachine

/-!
# The JSON formats

What `serde_json` writes for the types that are stored or replicated as JSON text: shard config
commands, log entries, votes and log ids, and snapshots.  The modelled code takes these formats as
parameters (`CommandJson`, `SnapshotCodec`, `LogJson`); here they are given, with the round trips the
parameters ask for.  Keys stand in the order of the declared fields, sets and maps with ordered keys
in key order, and hash maps in a given iteration order.
-/

set_option autoImplicit false

namespace RaftTimeDB.JsonFormats

open Codec

/-- The closing brace of an object. -/
theorem follows_brace : Follows "\x7d".toList := Follows.cons (by decide) []

/-- A value inside an object text that starts with the given key. -/
def field {α : Type} (key : String) (c : Codec α) : Codec α :=
  c.wrap ("\"" ++ key ++ "\":") "" Follows.nil

/-- Two members of an object. -/
def members {α β : Type} (c : Codec α) (d : Codec β) : Codec (α × β) :=
  c.pair "," d (Follows.cons (by decide) []) (by decide)

def object {α : Type} (c : Codec α) : Codec α := c.wrap "\x7b" "\x7d" follows_brace

theorem nat_start (closing : Char) (hclosing : closing.isDigit = false) (n : Nat) :
    ∃ ch s, nat.enc n = ch :: s ∧ ch ≠ closing := by
  cases h : Nat.toDigits 10 n with
  | nil => exact absurd h Nat.toDigits_ne_nil
  | cons ch s =>
    refine ⟨ch, s, h, ?_⟩
    rintro rfl
    have hdigit := Nat.isDigit_of_mem_toDigits (b := 10) (n := n) (c := ch) (by decide) (by decide)
      (by rw [h]; exact List.mem_cons_self)
    rw [hclosing] at hdigit
    cases hdigit

/-- Arrays of numbers. -/
def nats : Codec (List Nat) := seq '[' ']' nat (by decide) (by decide) (nat_start ']' (by decide))

theorem nats_start (ns : List Nat) : ∃ ch s, nats.enc ns = ch :: s ∧ ch ≠ ']' := by
  cases ns with
  | nil => exact ⟨'[', _, rfl, by decide⟩
  | cons n ns => exact ⟨'[', _, rfl, by decide⟩

def bytes : Codec Bytes :=
  nats.map (List.map UInt8.ofNat) (List.map UInt8.toNat) fun b => by
    simp [Function.comp_def]

def leaderId : Codec LeaderId :=
  (object (members (field "term" nat) (field "node_id" nat))).map
    (fun p => ⟨p.1, p.2⟩) (fun id => (id.term, id.nodeId)) fun _ => rfl

def logId : Codec LogId :=
  (object (members (field "leader_id" leaderId) (field "index" nat))).map
    (fun p => ⟨p.1, p.2⟩) (fun id => (id.leaderId, id.index)) fun _ => rfl

def maybeLogId : Codec (Option LogId) := logId.orNull fun _ _ => rfl

def vote : Codec Vote :=
  (object (members (field "leader_id" leaderId) (field "committed" bool))).map
    (fun p => ⟨p.1, p.2⟩) (fun v => (v.leaderId, v.committed)) fun _ => rfl

def request : Codec ReducerCallRequest :=
  (object (members (field "raw_message" bytes) (field "origin_node_id" nat))).map
    (fun p => ⟨p.1, p.2⟩) (fun r => (r.rawMessage, r.originNodeId)) fun _ => rfl

/-! ## Memberships -/

def basicNode : Codec BasicNode :=
  (object (field "addr" str)).map (fun addr => ⟨addr⟩) (fun node => node.addr) fun _ => rfl

/-- One voter configuration. -/
def config : Codec (Finset NodeId) :=
  nats.map List.toFinset (fun s => s.sort (· ≤ ·)) fun s => s.sort_toFinset (· ≤ ·)

/-- The configurations of a joint membership. -/
def configs : Codec (List (Finset NodeId)) :=
  seq '[' ']' config (by decide) (by decide) fun s => nats_start (s.sort (· ≤ ·))

/-- A map with numeric keys, by key. -/
def entriesOf {β : Type} (m : Finmap (fun _ : Nat => β)) : List (Nat × β) :=
  (m.keys.sort (· ≤ ·)).filterMap fun k => (m.lookup k).map fun b => (k, b)

def mapOf {β : Type} (entries : List (Nat × β)) : Finmap (fun _ : Nat => β) :=
  entries.foldr (fun p m => m.insert p.1 p.2) ∅

theorem lookup_mapOf_filterMap {β : Type} (m : Finmap (fun _ : Nat => β)) (ks : List Nat) (k : Nat) :
    (mapOf (ks.filterMap fun k => (m.lookup k).map fun b => (k, b))).lookup k =
      if k ∈ ks then m.lookup k else none := by
  induction ks with
  | nil => exact Finmap.lookup_empty k
  | cons k' ks ih =>
    cases h : m.lookup k' with
    | none =>
      rw [List.filterMap_cons_none (by rw [h]; rfl), ih]
      by_cases hk : k = k'
      · subst hk
        simp [h]
      · simp [hk]
    | some b =>
      rw [List.filterMap_cons_some (by rw [h]; rfl)]
      show (Finmap.insert k' b (mapOf _)).lookup k = _
      by_cases hk : k = k'
      · subst hk
        simp [h]
      · rw [Finmap.lookup_insert_of_ne _ hk, ih]
        simp [hk]

theorem mapOf_entriesOf {β : Type} (m : Finmap (fun _ : Nat => β)) : mapOf (entriesOf m) = m := by
  refine Finmap.ext_lookup ?_
  intro k
  rw [entriesOf, lookup_mapOf_filterMap]
  split
  · rfl
  · rename_i hk
    rw [Finset.mem_sort, Finmap.mem_keys] at hk
    exact (Finmap.lookup_eq_none.mpr hk).symm

/-- The address book: node ids are written as strings, as JSON keys must be. -/
def nodes : Codec (Finmap (fun _ : NodeId => BasicNode)) :=
  (seq '\x7b' '\x7d'
    ((nat.wrap "\"" "\"" (Follows.cons (by decide) _)).pair ":" basicNode
      (Follows.cons (by decide) _) (by decide))
    (by decide) (by decide) (fun _ => ⟨'"', _, rfl, by decide⟩)).map mapOf entriesOf mapOf_entriesOf

def membership : Codec Membership :=
  (object (members (field "configs" configs) (field "nodes" nodes))).map
    (fun p => ⟨p.1, p.2⟩) (fun m => (m.configs, m.nodes)) fun _ => rfl

def storedMembership : Codec StoredMembership :=
  (object (members (field "log_id" maybeLogId) (field "membership" membership))).map
    (fun p => ⟨p.1, p.2⟩) (fun m => (m.logId, m.membership)) fun _ => rfl

/-! ## Log entries -/

/-- An enum variant with its content. -/
def variant {α : Type} (name : String) (c : Codec α) : Codec α := object (field name c)

/-- A unit variant is its name, the others are objects. -/
def payload : Codec EntryPayload :=
  ((text "\"Blank\"").alt
    ((variant "Normal" request).alt (variant "Membership" membership) fun _ _ => rfl)
    fun x _ => by cases x <;> rfl).map
    (fun
      | .inl () => .blank
      | .inr (.inl r) => .normal r
      | .inr (.inr m) => .membership m)
    (fun
      | .blank => .inl ()
      | .normal r => .inr (.inl r)
      | .membership m => .inr (.inr m))
    fun p => by cases p <;> rfl

def entry : Codec Entry :=
  (object (members (field "log_id" logId) (field "payload" payload))).map
    (fun p => ⟨p.1, p.2⟩) (fun e => (e.logId, e.payload)) fun _ => rfl

/-- `serde_json` at the types of the log store. -/
def logJson : LogJson where
  entryToVec := entry.toVec
  entryFromSlice := entry.fromSlice
  voteToVec := vote.toVec
  voteFromSlice := vote.fromSlice
  logIdToVec := logId.toVec
  logIdFromSlice := logId.fromSlice
  entry_roundtrip := entry.fromSlice_toVec
  vote_roundtrip := vote.fromSlice_toVec
  logId_roundtrip := logId.fromSlice_toVec

/-! ## Shard config commands -/

def command : Codec ShardConfigCommand :=
  ((variant "CreateShard" (object (field "shard_id" nat))).alt
    ((variant "AddRoute" (object (members (field "module_name" str) (field "shard_id" nat)))).alt
      (variant "RemoveRoute" (object (field "module_name" str))) fun _ _ => rfl)
    fun x _ => by cases x <;> rfl).map
    (fun
      | .inl shardId => .createShard shardId
      | .inr (.inl p) => .addRoute p.1 p.2
      | .inr (.inr moduleName) => .removeRoute moduleName)
    (fun
      | .createShard shardId => .inl shardId
      | .addRoute moduleName shardId => .inr (.inl (moduleName, shardId))
      | .removeRoute moduleName => .inr (.inr moduleName))
    fun cmd => by cases cmd <;> rfl

def commandJson : CommandJson := ⟨command.toVec, command.fromSlice⟩

/-- **Commands survive the log**: what `encode_shard_config` puts into an entry is what
`decode_shard_config` finds there. -/
theorem decodeShardConfig_encodeShardConfig (cmd : ShardConfigCommand) :
    decodeShardConfig commandJson (encodeShardConfig commandJson cmd) = some cmd :=
  command.fromSlice_toVec cmd

/-! ## Snapshots -/

/-- A route table in a given iteration order. -/
def routes : Codec (List (String × ShardId)) :=
  seq '\x7b' '\x7d' (str.pair ":" nat (Follows.cons (by decide) _) (by decide))
    (by decide) (by decide) fun _ => ⟨'"', _, rfl, by decide⟩

/-- The five fields of `SnapshotData`, the route table as the list it is written as. -/
def snapshotFields :
    Codec (Option LogId × StoredMembership × Nat × List (String × ShardId) × List ShardId) :=
  object (members (field "last_applied" maybeLogId)
    (members (field "last_membership" storedMembership)
      (members (field "applied_count" nat)
        (members (field "shard_routes" routes) (field "active_shards" nats)))))

/-- openraft's display of a leader id. -/
def showLeader (id : LeaderId) : String := "T" ++ toString id.term ++ "-N" ++ toString id.nodeId

/-- `serde_json` at `SnapshotData`. -/
def snapshotJson : SnapshotCodec where
  toVec order data :=
    snapshotFields.toVec
      (data.lastApplied, data.lastMembership, data.appliedCount, order, data.activeShards)
  fromSlice bytes :=
    (snapshotFields.fromSlice bytes).map fun r =>
      ⟨r.1, r.2.1, r.2.2.1, RouteMap.ofList r.2.2.2.1, r.2.2.2.2⟩
  showLeader := showLeader
  roundtrip order data horder := by
    rw [snapshotFields.fromSlice_toVec, Option.map_some, horder.ofList_eq]

/-! ## RPC messages -/

/-- openraft's `VoteRequest`. -/
structure VoteRequest where
  vote : Vote
  lastLogId : Option LogId
  deriving DecidableEq

structure VoteResponse where
  vote : Vote
  voteGranted : Bool
  lastLogId : Option LogId
  deriving DecidableEq

structure AppendEntriesRequest where
  vote : Vote
  prevLogId : Option LogId
  entries : List Entry
  leaderCommit : Option LogId
  deriving DecidableEq

inductive AppendEntriesResponse where
  | success
  | partialSuccess (matching : Option LogId)
  | conflict
  | higherVote (vote : Vote)
  deriving DecidableEq

structure InstallSnapshotRequest where
  vote : Vote
  snapMeta : SnapshotMeta
  offset : Nat
  data : Bytes
  done : Bool
  deriving DecidableEq

structure InstallSnapshotResponse where
  vote : Vote
  deriving DecidableEq

/-- openraft's `Fatal` without the storage errors. -/
inductive FatalError where
  | panicked
  | stopped
  deriving DecidableEq, Repr

def voteRequest : Codec VoteRequest :=
  (object (members (field "vote" vote) (field "last_log_id" maybeLogId))).map
    (fun p => ⟨p.1, p.2⟩) (fun r => (r.vote, r.lastLogId)) fun _ => rfl

def voteResponse : Codec VoteResponse :=
  (object (members (field "vote" vote)
    (members (field "vote_granted" bool) (field "last_log_id" maybeLogId)))).map
    (fun p => ⟨p.1, p.2.1, p.2.2⟩) (fun r => (r.vote, r.voteGranted, r.lastLogId)) fun _ => rfl

def entries : Codec (List Entry) :=
  seq '[' ']' entry (by decide) (by decide) fun _ => ⟨'\x7b', _, rfl, by decide⟩

def appendEntriesRequest : Codec AppendEntriesRequest :=
  (object (members (field "vote" vote) (members (field "prev_log_id" maybeLogId)
    (members (field "entries" entries) (field "leader_commit" maybeLogId))))).map
    (fun p => ⟨p.1, p.2.1, p.2.2.1, p.2.2.2⟩) (fun r => (r.vote, r.prevLogId, r.entries, r.leaderCommit))
    fun _ => rfl

def appendEntriesResponse : Codec AppendEntriesResponse :=
  ((text "\"Success\"").alt
    ((text "\"Conflict\"").alt
      ((variant "PartialSuccess" maybeLogId).alt (variant "HigherVote" vote) fun _ _ => rfl)
      fun x _ => by cases x <;> rfl)
    fun x _ => by rcases x with _ | _ | _ <;> rfl).map
    (fun
      | .inl () => .success
      | .inr (.inl ()) => .conflict
      | .inr (.inr (.inl id)) => .partialSuccess id
      | .inr (.inr (.inr v)) => .higherVote v)
    (fun
      | .success => .inl ()
      | .conflict => .inr (.inl ())
      | .partialSuccess id => .inr (.inr (.inl id))
      | .higherVote v => .inr (.inr (.inr v)))
    fun r => by cases r <;> rfl

def snapshotMeta : Codec SnapshotMeta :=
  (object (members (field "last_log_id" maybeLogId)
    (members (field "last_membership" storedMembership) (field "snapshot_id" str)))).map
    (fun p => ⟨p.1, p.2.1, p.2.2⟩) (fun m => (m.lastLogId, m.lastMembership, m.snapshotId)) fun _ => rfl

def installSnapshotRequest : Codec InstallSnapshotRequest :=
  (object (members (field "vote" vote) (members (field "meta" snapshotMeta)
    (members (field "offset" nat) (members (field "data" bytes) (field "done" bool)))))).map
    (fun p => ⟨p.1, p.2.1, p.2.2.1, p.2.2.2.1, p.2.2.2.2⟩)
    (fun r => (r.vote, r.snapMeta, r.offset, r.data, r.done)) fun _ => rfl

def installSnapshotResponse : Codec InstallSnapshotResponse :=
  (object (field "vote" vote)).map (fun v => ⟨v⟩) (fun r => r.vote) fun _ => rfl

def fatalError : Codec FatalError :=
  (variant "Fatal" ((text "\"Panicked\"").alt (text "\"Stopped\"") fun _ _ => rfl)).map
    (Sum.elim (fun _ => .panicked) (fun _ => .stopped))
    (fun
      | .panicked => .inl ()
      | .stopped => .inr ())
    fun e => by cases e <;> rfl

/-- A `Result`: an object with the key `Ok` or `Err`. -/
def result {α ε : Type} (c : Codec α) (d : Codec ε) : Codec (Except ε α) :=
  ((variant "Ok" c).alt (variant "Err" d) fun _ _ => rfl).map
    (Sum.elim .ok .error)
    (fun
      | .ok a => .inl a
      | .error e => .inr e)
    fun r => by cases r <;> rfl

end RaftTimeDB.JsonFormats
