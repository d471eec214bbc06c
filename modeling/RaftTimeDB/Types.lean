import Mathlib.Data.Finmap

/-!
# Raft types

The replicated data of `crates/proxy/src/raft/types.rs` (`ReducerCallRequest`,
`ReducerCallResponse`, `TypeConfig`) and the openraft types `TypeConfig` puts around it: log ids,
memberships and log entries.

* `u64` identifiers, indices and counters are natural numbers: no modelled function wraps.
* `BTreeSet` and `BTreeMap` are Mathlib's `Finset` and `Finmap`, equal when they hold the same
  elements.
* `Log` is a log as openraft keeps it: the entry at position `i` carries index `i`.
-/

set_option autoImplicit false

namespace RaftTimeDB

abbrev Bytes := List UInt8

abbrev NodeId := Nat

/-- `router::ShardId`. -/
abbrev ShardId := Nat

/-- A reducer call to be replicated: the WebSocket message as an opaque blob, and the node that
proposed it. -/
structure ReducerCallRequest where
  rawMessage : Bytes
  originNodeId : NodeId
  deriving DecidableEq, Repr

structure ReducerCallResponse where
  success : Bool
  deriving DecidableEq, Repr

/-- openraft's `CommittedLeaderId`. -/
structure LeaderId where
  term : Nat
  nodeId : NodeId
  deriving DecidableEq, Repr

structure LogId where
  leaderId : LeaderId
  index : Nat
  deriving DecidableEq, Repr

structure BasicNode where
  addr : String
  deriving DecidableEq, Repr

/-- openraft's `Membership`: the (joint) voter configurations and the address book. -/
structure Membership where
  configs : List (Finset NodeId)
  nodes : Finmap (fun _ : NodeId => BasicNode)
  deriving DecidableEq

structure StoredMembership where
  logId : Option LogId
  membership : Membership
  deriving DecidableEq

/-- `StoredMembership::default()`. -/
def StoredMembership.empty : StoredMembership := ⟨none, ⟨[], ∅⟩⟩

inductive EntryPayload where
  | blank
  | normal (request : ReducerCallRequest)
  | membership (m : Membership)
  deriving DecidableEq

structure Entry where
  logId : LogId
  payload : EntryPayload
  deriving DecidableEq

/-- Index of the entry right after a log id; an absent id stands before the first entry. -/
def nextIndex : Option LogId → Nat
  | none => 0
  | some id => id.index + 1

@[simp] theorem nextIndex_none : nextIndex none = 0 := rfl

@[simp] theorem nextIndex_some (id : LogId) : nextIndex (some id) = id.index + 1 := rfl

/-- A committed log: entry `i` carries index `i`. -/
structure Log where
  entries : List Entry
  index_eq : ∀ (i : Nat) (e : Entry), entries[i]? = some e → e.logId.index = i

/-- The log of one leader that holds the given payloads. -/
def Log.ofPayloads (leaderId : LeaderId) (payloads : List EntryPayload) : Log where
  entries := payloads.mapIdx fun i payload => ⟨⟨leaderId, i⟩, payload⟩
  index_eq i e h := by
    rw [List.getElem?_mapIdx] at h
    obtain ⟨payload, _, rfl⟩ := Option.map_eq_some_iff.mp h
    rfl

/-- The log id of the last entry, as a state machine that applied just these entries reports it. -/
def lastLogId (es : List Entry) : Option LogId := es.getLast?.map (·.logId)

@[simp] theorem lastLogId_nil : lastLogId [] = none := rfl

@[simp] theorem lastLogId_snoc (es : List Entry) (e : Entry) :
    lastLogId (es ++ [e]) = some e.logId := by
  simp [lastLogId]

/-- Along an initial part of a log the last log id determines the length of the part. -/
theorem Log.nextIndex_take (L : Log) {k : Nat} (hk : k ≤ L.entries.length) :
    nextIndex (lastLogId (L.entries.take k)) = k := by
  cases k with
  | zero => simp
  | succ k =>
    have hlt : k < L.entries.length := by omega
    have hget : L.entries[k]? = some L.entries[k] := List.getElem?_eq_getElem hlt
    rw [List.take_add_one, hget, Option.toList_some, lastLogId_snoc, nextIndex_some,
      L.index_eq k _ hget]

end RaftTimeDB
