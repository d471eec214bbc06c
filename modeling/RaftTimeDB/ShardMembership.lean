import Mathlib.Data.List.Sort
import RaftTimeDB.Lib.Runs
import RaftTimeDB.Members
import RaftTimeDB.Pool

/-!
# Membership of all shards

`add_node_all_shards` and `remove_node_all_shards` (`crates/proxy/src/raft/mod.rs`): a loop over the shards
of the pool, in the order of their ids, that ends at the first failing openraft call.  Every openraft
call may succeed or fail on its own; its outcome is part of the call (`Outcome`).

Principal results: `eachShard_cases` — which shards a loop has changed when it ends; `same_membership_iff` —
all shards keep the same voters, failed calls change nothing and successful ones change every shard, if
and only if in every failing call the openraft calls before the failing one had nothing to change.
-/

set_option autoImplicit false

namespace RaftTimeDB

/-- `list_shards`: the shard ids of the pool, sorted. -/
def RaftPool.listShards (pool : RaftPool) : List ShardId := pool.shards.insertionSort (· ≤ ·)

theorem RaftPool.mem_listShards {pool : RaftPool} {s : ShardId} :
    s ∈ pool.listShards ↔ s ∈ pool.shards := by
  rw [listShards, List.mem_insertionSort]

/-! ## The loops -/

/-- Membership of every shard. -/
abbrev Memberships := ShardId → Membership

/-- Result of an openraft call; an error carries its text. -/
abbrev RaftResult := Except String Unit

/-- Outcome of the openraft calls on each shard, if they are made. -/
structure Outcome where
  addLearner : ShardId → RaftResult
  changeMembership : ShardId → RaftResult

/-- The loop over shards: the first error ends it. -/
def eachShard (body : ShardId → Membership → RaftResult × Membership) :
    List ShardId → Memberships → RaftResult × Memberships
  | [], ms => (.ok (), ms)
  | s :: rest, ms =>
      let r := body s (ms s)
      let ms := Function.update ms s r.2
      match r.1 with
      | .ok () => eachShard body rest ms
      | .error e => (.error e, ms)

section

variable (M : MembershipApi) (pool : RaftPool) (outcome : Outcome)

/-- Loop body of `add_node_all_shards`. -/
def addNodeToShard (nodeId : NodeId) (addr : String) (s : ShardId) (m : Membership) :
    RaftResult × Membership :=
  if s ∈ pool.shards then
    match outcome.addLearner s with
    | .error e => (.error ("add_learner on shard " ++ toString s ++ ": " ++ e), m)
    | .ok () =>
        let m := M.addLearner m nodeId ⟨addr⟩
        let voterIds := insert nodeId m.voterIds
        match outcome.changeMembership s with
        | .error e => (.error ("change_membership on shard " ++ toString s ++ ": " ++ e), m)
        | .ok () => (.ok (), M.changeMembership m voterIds)
  else (.error ("shard " ++ toString s ++ " not found"), m)

/-- Loop body of `remove_node_all_shards`. -/
def removeNodeFromShard (nodeId : NodeId) (s : ShardId) (m : Membership) :
    RaftResult × Membership :=
  if s ∈ pool.shards then
    let voterIds := m.voterIds.filter fun id => id ≠ nodeId
    match outcome.changeMembership s with
    | .error e => (.error ("change_membership on shard " ++ toString s ++ ": " ++ e), m)
    | .ok () => (.ok (), M.changeMembership m voterIds)
  else (.error ("shard " ++ toString s ++ " not found"), m)

def addNodeAllShards (nodeId : NodeId) (addr : String) (ms : Memberships) :
    RaftResult × Memberships :=
  eachShard (addNodeToShard M pool outcome nodeId addr) pool.listShards ms

def removeNodeAllShards (nodeId : NodeId) (ms : Memberships) : RaftResult × Memberships :=
  eachShard (removeNodeFromShard M pool outcome nodeId) pool.listShards ms

/-- `cluster_add_node` and `cluster_remove_node`: status and text of the answer. -/
def nodeAnswer (nodeId : NodeId) (done : String) : RaftResult → Nat × String
  | .ok () => (200, "Node " ++ toString nodeId ++ done)
  | .error e => (500, e)

def clusterAddNode (nodeId : NodeId) (addr : String) (ms : Memberships) :
    (Nat × String) × Memberships :=
  let r := addNodeAllShards M pool outcome nodeId addr ms
  (nodeAnswer nodeId " added to all shards" r.1, r.2)

def clusterRemoveNode (nodeId : NodeId) (ms : Memberships) : (Nat × String) × Memberships :=
  let r := removeNodeAllShards M pool outcome nodeId ms
  (nodeAnswer nodeId " removed from all shards" r.1, r.2)

end

/-- **Where the loop ends.**  Either every turn succeeds and every listed shard is changed by its turn, or
the turn of some shard fails: the shards before it are changed, it has got as far as its turn did, and the
others are as they were. -/
theorem eachShard_cases (body : ShardId → Membership → RaftResult × Membership) {ids : List ShardId}
    (hnodup : ids.Nodup) (ms : Memberships) :
    ((eachShard body ids ms).1 = .ok () ∧ (∀ s ∈ ids, (body s (ms s)).1 = .ok ()) ∧
      (∀ s ∈ ids, (eachShard body ids ms).2 s = (body s (ms s)).2) ∧
      ∀ s, s ∉ ids → (eachShard body ids ms).2 s = ms s) ∨
    ∃ e before f after, ids = before ++ f :: after ∧ (eachShard body ids ms).1 = .error e ∧
      (∀ s ∈ before, (body s (ms s)).1 = .ok ()) ∧ (body f (ms f)).1 = .error e ∧
      (∀ s ∈ before, (eachShard body ids ms).2 s = (body s (ms s)).2) ∧
      (eachShard body ids ms).2 f = (body f (ms f)).2 ∧
      ∀ s, s ∉ before → s ≠ f → (eachShard body ids ms).2 s = ms s := by
  induction ids generalizing ms with
  | nil => exact Or.inl ⟨rfl, by simp, by simp, fun _ _ => rfl⟩
  | cons s₀ rest ih =>
    rw [List.nodup_cons] at hnodup
    have hother : ∀ s, s ≠ s₀ → Function.update ms s₀ (body s₀ (ms s₀)).2 s = ms s :=
      fun s hs => Function.update_of_ne hs _ _
    have hself : Function.update ms s₀ (body s₀ (ms s₀)).2 s₀ = (body s₀ (ms s₀)).2 :=
      Function.update_self _ _ _
    have hne : ∀ s ∈ rest, s ≠ s₀ := fun s hs heq => hnodup.1 (heq ▸ hs)
    cases hturn : (body s₀ (ms s₀)).1 with
    | error e =>
      have hloop : eachShard body (s₀ :: rest) ms =
          (.error e, Function.update ms s₀ (body s₀ (ms s₀)).2) := by
        simp only [eachShard, hturn]
      rw [hloop]
      refine Or.inr ⟨e, [], s₀, rest, rfl, rfl, by simp, hturn, by simp, hself, ?_⟩
      intro s _ hs
      exact hother s hs
    | ok u =>
      have hloop : eachShard body (s₀ :: rest) ms =
          eachShard body rest (Function.update ms s₀ (body s₀ (ms s₀)).2) := by
        simp only [eachShard, hturn]
      rw [hloop]
      rcases ih hnodup.2 (Function.update ms s₀ (body s₀ (ms s₀)).2) with
        ⟨hok, hturns, hdone, hrest⟩ | ⟨e, before, f, after, hids, herr, hturns, hf, hdone, hat, hrest⟩
      · refine Or.inl ⟨hok, ?_, ?_, ?_⟩
        · intro s hs
          rcases List.mem_cons.mp hs with rfl | hs
          · exact hturn
          · rw [← hother s (hne s hs)]
            exact hturns s hs
        · intro s hs
          rcases List.mem_cons.mp hs with rfl | hs
          · rw [hrest s hnodup.1, hself]
          · rw [hdone s hs, hother s (hne s hs)]
        · intro s hs
          rw [List.mem_cons, not_or] at hs
          rw [hrest s hs.2, hother s hs.1]
      · have hbefore : ∀ s ∈ before, s ≠ s₀ := fun s hs =>
          hne s (by rw [hids]; exact List.mem_append_left _ hs)
        have hfne : f ≠ s₀ := hne f (by rw [hids]; exact List.mem_append_right _ List.mem_cons_self)
        refine Or.inr ⟨e, s₀ :: before, f, after, by rw [hids]; rfl, herr, ?_, ?_, ?_, ?_, ?_⟩
        · intro s hs
          rcases List.mem_cons.mp hs with rfl | hs
          · exact hturn
          · rw [← hother s (hbefore s hs)]
            exact hturns s hs
        · rw [← hother f hfne]
          exact hf
        · intro s hs
          rcases List.mem_cons.mp hs with rfl | hs
          · rw [hrest s (fun hmem => hbefore s hmem rfl) (Ne.symm hfne), hself]
          · rw [hdone s hs, hother s (hbefore s hs)]
        · rw [hat, hother f hfne]
        · intro s hs hsf
          rw [List.mem_cons, not_or] at hs
          rw [hrest s hs.2 hsf, hother s hs.1]

/-! ## Calls -/

/-- What a call asks for. -/
inductive NodeRequest where
  | add (nodeId : NodeId) (addr : String)
  | remove (nodeId : NodeId)
  deriving DecidableEq, Repr

/-- The voters a request asks for. -/
def NodeRequest.edit : NodeRequest → Finset NodeId → Finset NodeId
  | .add nodeId _, voters => insert nodeId voters
  | .remove nodeId, voters => voters.erase nodeId

/-- A call with the outcomes of the openraft calls it makes. -/
structure NodeCall where
  request : NodeRequest
  outcome : Outcome

/-- Memberships that name the same voters and the same addresses. -/
def Membership.Same (m m' : Membership) : Prop := m.voterIds = m'.voterIds ∧ m.nodes = m'.nodes

namespace NodeCall

def run (M : MembershipApi) (pool : RaftPool) : NodeCall → Memberships → RaftResult × Memberships
  | ⟨.add nodeId addr, outcome⟩, ms => addNodeAllShards M pool outcome nodeId addr ms
  | ⟨.remove nodeId, outcome⟩, ms => removeNodeAllShards M pool outcome nodeId ms

/-- The turn of one shard. -/
def turn (M : MembershipApi) (pool : RaftPool) :
    NodeCall → ShardId → Membership → RaftResult × Membership
  | ⟨.add nodeId addr, outcome⟩ => addNodeToShard M pool outcome nodeId addr
  | ⟨.remove nodeId, outcome⟩ => removeNodeFromShard M pool outcome nodeId

/-- The openraft calls on a shard all succeed. -/
def Succeeds : NodeCall → ShardId → Prop
  | ⟨.add _ _, outcome⟩, s => outcome.addLearner s = .ok () ∧ outcome.changeMembership s = .ok ()
  | ⟨.remove _, outcome⟩, s => outcome.changeMembership s = .ok ()

/-- The shard already is as the call wants it. -/
def NothingToDo : NodeCall → Membership → Prop
  | ⟨.add nodeId _, _⟩, m => nodeId ∈ m.voterIds ∧ nodeId ∈ m.nodes
  | ⟨.remove nodeId, _⟩, m => nodeId ∉ m.voterIds

/-- The call fails on the shard before it has changed anything: `add_learner` itself fails, or the node
is known already. -/
def FailsClean : NodeCall → ShardId → Membership → Prop
  | ⟨.add nodeId _, outcome⟩, s, m => outcome.addLearner s ≠ .ok () ∨ nodeId ∈ m.nodes
  | ⟨.remove _, _⟩, _, _ => True

theorem run_eq (M : MembershipApi) (pool : RaftPool) (call : NodeCall) (ms : Memberships) :
    call.run M pool ms = eachShard (call.turn M pool) pool.listShards ms := by
  obtain ⟨request, outcome⟩ := call
  cases request <;> rfl

section

variable {M : MembershipApi} {pool : RaftPool}

theorem same_added_iff (m : Membership) (nodeId : NodeId) (addr : String) :
    (M.added m nodeId addr).Same m ↔ nodeId ∈ m.voterIds ∧ nodeId ∈ m.nodes := by
  unfold Membership.Same
  rw [MembershipApi.added_voters, Finset.insert_eq_self]
  refine and_congr_right ?_
  intro hvoter
  constructor
  · intro hnodes
    rw [← hnodes]
    refine M.change_mem (M.addLearner_known m nodeId _) ?_
    exact Finset.mem_insert_self _ _
  · intro hknown
    refine Finmap.ext_lookup ?_
    intro id
    have hlearner : (M.addLearner m nodeId ⟨addr⟩).nodes = m.nodes := by
      rw [M.addLearner_nodes, if_pos hknown]
    rw [MembershipApi.added, M.change_nodes, if_neg, hlearner]
    rintro ⟨hin, hout⟩
    exact hout (Finset.mem_insert_of_mem hin)

theorem same_removed_iff (m : Membership) (nodeId : NodeId) :
    (M.removed m nodeId).Same m ↔ nodeId ∉ m.voterIds := by
  unfold Membership.Same
  rw [MembershipApi.removed_voters, Finset.erase_eq_self]
  refine and_iff_left_of_imp ?_
  intro hnot
  refine Finmap.ext_lookup ?_
  intro id
  rw [MembershipApi.removed, M.change_nodes, Finset.erase_eq_of_notMem hnot, if_neg]
  exact fun h => h.2 h.1

theorem same_addLearner_iff (m : Membership) (nodeId : NodeId) (node : BasicNode) :
    (M.addLearner m nodeId node).Same m ↔ nodeId ∈ m.nodes := by
  unfold Membership.Same
  rw [M.addLearner_voters, and_iff_right rfl]
  constructor
  · intro hnodes
    rw [← hnodes]
    exact M.addLearner_known m nodeId node
  · intro hknown
    rw [M.addLearner_nodes, if_pos hknown]

/-- **A turn that succeeds** edits the voters, and leaves the membership as it was exactly when there was
nothing to do. -/
theorem turn_succeeds {call : NodeCall} {s : ShardId} (hs : s ∈ pool.shards) (h : call.Succeeds s)
    (m : Membership) :
    (call.turn M pool s m).1 = .ok () ∧ (call.turn M pool s m).2.voterIds = call.request.edit m.voterIds ∧
      ((call.turn M pool s m).2.Same m ↔ call.NothingToDo m) := by
  obtain ⟨request, outcome⟩ := call
  cases request with
  | add nodeId addr =>
    have hturn : (NodeCall.mk (.add nodeId addr) outcome).turn M pool s m =
        (.ok (), M.added m nodeId addr) := by
      simp only [turn, addNodeToShard, if_pos hs, h.1, h.2, MembershipApi.added]
    rw [hturn]
    exact ⟨rfl, MembershipApi.added_voters m nodeId addr, same_added_iff m nodeId addr⟩
  | remove nodeId =>
    have hchange : outcome.changeMembership s = .ok () := h
    have hfilter : m.voterIds.filter (fun id => id ≠ nodeId) = m.voterIds.erase nodeId :=
      Finset.filter_ne' _ _
    have hturn : (NodeCall.mk (.remove nodeId) outcome).turn M pool s m = (.ok (), M.removed m nodeId) := by
      simp only [turn, removeNodeFromShard, if_pos hs, hchange, hfilter, MembershipApi.removed]
    rw [hturn]
    exact ⟨rfl, MembershipApi.removed_voters m nodeId, same_removed_iff m nodeId⟩

/-- **A turn that fails** leaves the voters, but an added learner may stay behind. -/
theorem turn_fails {call : NodeCall} {s : ShardId} (hs : s ∈ pool.shards) (h : ¬ call.Succeeds s)
    (m : Membership) :
    (∃ e, (call.turn M pool s m).1 = .error e) ∧ ((call.turn M pool s m).2.Same m ↔ call.FailsClean s m) := by
  obtain ⟨request, outcome⟩ := call
  cases request with
  | add nodeId addr =>
    simp only [turn, addNodeToShard, if_pos hs]
    cases hlearner : outcome.addLearner s with
    | error e =>
      refine ⟨⟨_, rfl⟩, fun _ => Or.inl ?_, fun _ => ⟨rfl, rfl⟩⟩
      rw [hlearner]
      simp
    | ok u =>
      cases hchange : outcome.changeMembership s with
      | error e =>
        refine ⟨⟨_, rfl⟩, ?_⟩
        rw [show (NodeCall.mk (.add nodeId addr) outcome).FailsClean s m ↔ nodeId ∈ m.nodes by
          simp [FailsClean, hlearner]]
        exact same_addLearner_iff m nodeId _
      | ok u => exact absurd ⟨hlearner, hchange⟩ h
  | remove nodeId =>
    simp only [turn, removeNodeFromShard, if_pos hs]
    cases hchange : outcome.changeMembership s with
    | error e => exact ⟨⟨_, rfl⟩, fun _ => trivial, fun _ => ⟨rfl, rfl⟩⟩
    | ok u => exact absurd hchange h

end

end NodeCall

/-! ## Main result -/

/-- One completed call. -/
def callStep (M : MembershipApi) (pool : RaftPool) (ms : Memberships) (call : NodeCall) :
    Option Memberships :=
  some (call.run M pool ms).2

/-- All shards of the pool have the same voters. -/
def EqualVoters (pool : RaftPool) (ms : Memberships) : Prop :=
  ∀ s ∈ pool.shards, ∀ s' ∈ pool.shards, (ms s).voterIds = (ms s').voterIds

namespace NodeCall

/-- The answer is right about every shard: after `Err` its membership is as it was, after `Ok` it has been
changed as asked. -/
def Reports (M : MembershipApi) (pool : RaftPool) (ms : Memberships) (call : NodeCall) : Prop :=
  match (call.run M pool ms).1 with
  | .ok () => ∀ s ∈ pool.shards, ((call.run M pool ms).2 s).voterIds = call.request.edit (ms s).voterIds
  | .error _ => ∀ s ∈ pool.shards, ((call.run M pool ms).2 s).Same (ms s)

/-- If the call fails, first on shard `f`, then the shards before `f` were as the call wants them, and it
fails on `f` before it has changed anything. -/
def AllOrNothing (pool : RaftPool) (ms : Memberships) (call : NodeCall) : Prop :=
  ∀ f ∈ pool.shards, ¬ call.Succeeds f → (∀ s ∈ pool.shards, s < f → call.Succeeds s) →
    (∀ s ∈ pool.shards, s < f → call.NothingToDo (ms s)) ∧ call.FailsClean f (ms f)

section

variable {M : MembershipApi} {pool : RaftPool}

theorem nodup_listShards (hnodup : pool.shards.Nodup) : pool.listShards.Nodup :=
  (List.perm_insertionSort _ pool.shards).nodup_iff.mpr hnodup

/-- In the sorted list the shards in front of one are the smaller ones. -/
theorem mem_before_iff (hnodup : pool.shards.Nodup) {before after : List ShardId} {f : ShardId}
    (hsplit : pool.listShards = before ++ f :: after) (s : ShardId) :
    s ∈ before ↔ s ∈ pool.shards ∧ s < f := by
  have hsorted : pool.listShards.Pairwise (· ≤ ·) := List.pairwise_insertionSort _ _
  have hnd := nodup_listShards hnodup
  rw [← RaftPool.mem_listShards]
  rw [hsplit] at hsorted hnd ⊢
  rw [List.nodup_append] at hnd
  constructor
  · intro hs
    have hle := (List.pairwise_append.mp hsorted).2.2 s hs f List.mem_cons_self
    have hne := hnd.2.2 s hs f List.mem_cons_self
    exact ⟨List.mem_append_left _ hs, lt_of_le_of_ne hle hne⟩
  · rintro ⟨hs, hlt⟩
    rcases List.mem_append.mp hs with hbefore | hafter
    · exact hbefore
    · have hge : f ≤ s := by
        rcases List.mem_cons.mp hafter with rfl | hafter
        · exact le_rfl
        · exact (List.pairwise_cons.mp (List.pairwise_append.mp hsorted).2.1).1 s hafter
      exact absurd hlt (Nat.not_lt.mpr hge)

theorem turn_ok_iff {call : NodeCall} {s : ShardId} (hs : s ∈ pool.shards) (m : Membership) :
    (call.turn M pool s m).1 = .ok () ↔ call.Succeeds s := by
  constructor
  · intro hok
    by_contra hfails
    obtain ⟨⟨e, he⟩, _⟩ := turn_fails (M := M) hs hfails m
    rw [hok] at he
    cases he
  · intro h
    exact (turn_succeeds hs h m).1

/-- **One call**: its answer is right about every shard exactly when it changed all or nothing. -/
theorem reports_iff (hnodup : pool.shards.Nodup) (ms : Memberships) (call : NodeCall) :
    call.Reports M pool ms ↔ call.AllOrNothing pool ms := by
  unfold Reports
  rw [run_eq]
  rcases eachShard_cases (call.turn M pool) (nodup_listShards hnodup) ms with
    ⟨hok, hturns, hdone, _⟩ | ⟨e, before, f, after, hsplit, herr, hturns, hf, hdone, hat, hrest⟩
  · simp only [RaftPool.mem_listShards] at hturns hdone
    rw [hok]
    constructor
    · intro _ f hfs hfails
      exact absurd ((turn_ok_iff hfs (ms f)).mp (hturns f hfs)) hfails
    · intro _ s hs
      rw [hdone s hs]
      exact (turn_succeeds hs ((turn_ok_iff hs (ms s)).mp (hturns s hs)) (ms s)).2.1
  · have hbefore := mem_before_iff hnodup hsplit
    have hfs : f ∈ pool.shards := by
      rw [← RaftPool.mem_listShards, hsplit]
      simp
    have hsucc : ∀ s ∈ pool.shards, s < f → call.Succeeds s := by
      intro s hs hlt
      exact (turn_ok_iff hs (ms s)).mp (hturns s ((hbefore s).mpr ⟨hs, hlt⟩))
    have hfails : ¬ call.Succeeds f := by
      intro hsf
      rw [(turn_ok_iff hfs (ms f)).mpr hsf] at hf
      cases hf
    have hatf := (turn_fails (M := M) hfs hfails (ms f)).2
    rw [herr]
    constructor
    · -- a shard with a failing turn and only succeeding ones below it is `f`
      intro hsame g hgs hgfails hg
      obtain rfl : g = f := by
        rcases Nat.lt_trichotomy g f with hlt | heq | hgt
        · exact absurd (hsucc g hgs hlt) hgfails
        · exact heq
        · exact absurd (hg f hfs hgt) hfails
      refine ⟨?_, ?_⟩
      · intro s hs hlt
        have hdone' := hsame s hs
        rw [hdone s ((hbefore s).mpr ⟨hs, hlt⟩)] at hdone'
        exact (turn_succeeds hs (hsucc s hs hlt) (ms s)).2.2.mp hdone'
      · have hdone' := hsame g hfs
        rw [hat] at hdone'
        exact hatf.mp hdone'
    · intro hall s hs
      obtain ⟨hnothing, hclean⟩ := hall f hfs hfails hsucc
      rcases Nat.lt_trichotomy s f with hlt | rfl | hgt
      · rw [hdone s ((hbefore s).mpr ⟨hs, hlt⟩)]
        exact (turn_succeeds hs (hsucc s hs hlt) (ms s)).2.2.mpr (hnothing s hs hlt)
      · rw [hat]
        exact hatf.mpr hclean
      · have hnot : s ∉ before := fun hmem => Nat.lt_asymm hgt ((hbefore s).mp hmem).2
        rw [hrest s hnot (Nat.ne_of_gt hgt)]
        exact ⟨rfl, rfl⟩

/-- A call whose answer is right keeps the voters of all shards equal. -/
theorem Reports.equalVoters {ms : Memberships} {call : NodeCall} (h : call.Reports M pool ms)
    (hequal : EqualVoters pool ms) : EqualVoters pool (call.run M pool ms).2 := by
  intro s hs s' hs'
  unfold Reports at h
  split at h
  · rw [h s hs, h s' hs', hequal s hs s' hs']
  · rw [(h s hs).1, (h s' hs').1, hequal s hs s' hs']

end

end NodeCall

/-- **All shards keep the same membership, exactly.**  For every sequence of calls on a pool whose shards
have equal voters: they have equal voters between any two calls and every answer is right about every
shard, if and only if each call that fails does so before it has changed anything. -/
theorem same_membership_iff (M : MembershipApi) {pool : RaftPool} (hnodup : pool.shards.Nodup)
    {ms : Memberships} (hequal : EqualVoters pool ms) (calls : List NodeCall) :
    (Runs.Throughout (callStep M pool) (EqualVoters pool) ms calls ∧
      Runs.Along (callStep M pool) (fun ms call => call.Reports M pool ms) ms calls) ↔
    Runs.Along (callStep M pool) (fun ms call => call.AllOrNothing pool ms) ms calls := by
  have halong : Runs.Along (callStep M pool) (fun ms call => call.Reports M pool ms) ms calls ↔
      Runs.Along (callStep M pool) (fun ms call => call.AllOrNothing pool ms) ms calls :=
    Runs.along_congr (I := fun _ => True) (fun _ _ _ _ _ _ => trivial)
      (fun ms call _ => NodeCall.reports_iff hnodup ms call) trivial
  rw [← halong]
  refine and_iff_right_of_imp ?_
  refine Runs.throughout_of_along ?_ hequal
  intro ms call ms' hms hreports hstep
  cases hstep
  exact hreports.equalVoters hms

/-! ## Two shards -/

/-- A pool with shards 0 and 1. -/
def twoShards : RaftPool := ⟨[0, 1], ShardRouter.new⟩

/-- Both shards with the members of the compose file. -/
def composeShards : Memberships := fun _ => uniformApi.initMembers composeMembers

/-- Every openraft call succeeds. -/
def allSucceed : Outcome := ⟨fun _ => .ok (), fun _ => .ok ()⟩

/-- This node does not lead the given shard, so that every change of it is refused. -/
def notLeading (s : ShardId) : Outcome where
  addLearner s' := if s' = s then .error "has to forward request" else .ok ()
  changeMembership s' := if s' = s then .error "has to forward request" else .ok ()

theorem allOrNothing_allSucceed (pool : RaftPool) (ms : Memberships) (nodeId : NodeId) (addr : String) :
    (NodeCall.mk (.add nodeId addr) allSucceed).AllOrNothing pool ms :=
  fun _ _ hfails _ => absurd ⟨rfl, rfl⟩ hfails

/-- Node 4 is added to both shards; then a removal is refused by the first shard. -/
theorem same_membership_after_refusal :
    Runs.Throughout (callStep uniformApi twoShards) (EqualVoters twoShards) composeShards
        [⟨.add 4 "node-4:4001", allSucceed⟩, ⟨.remove 2, notLeading 0⟩] ∧
      Runs.Along (callStep uniformApi twoShards)
        (fun ms call => call.Reports uniformApi twoShards ms) composeShards
        [⟨.add 4 "node-4:4001", allSucceed⟩, ⟨.remove 2, notLeading 0⟩] := by
  refine (same_membership_iff uniformApi (by decide) (fun _ _ _ _ => rfl) _).mpr ?_
  refine ⟨allOrNothing_allSucceed _ _ _ _, ?_⟩
  intro ms _
  refine ⟨?_, fun _ _ => trivial⟩
  intro f hf hfails hbelow
  refine ⟨?_, trivial⟩
  intro s hs hlt
  -- shard 0 is the one that fails
  have hzero : f = 0 := by
    by_contra hne
    exact hfails (by simp [NodeCall.Succeeds, notLeading, hne])
  rw [hzero] at hlt
  exact absurd hlt (Nat.not_lt_zero s)

/-- **A failed call can leave the shards apart.**  This node leads shard 0 but not shard 1: adding node 4
answers with an error, and node 4 is now a voter of shard 0 only. -/
theorem refused_add_splits_shards :
    EqualVoters twoShards composeShards ∧
      (clusterAddNode uniformApi twoShards (notLeading 1) 4 "node-4:4001" composeShards).1 =
        (500, "add_learner on shard 1: has to forward request") ∧
      ((NodeCall.mk (.add 4 "node-4:4001") (notLeading 1)).run uniformApi twoShards composeShards).1 =
        .error "add_learner on shard 1: has to forward request" ∧
      (composeShards 0).voterIds = {1, 2, 3} ∧
      (((NodeCall.mk (.add 4 "node-4:4001") (notLeading 1)).run uniformApi twoShards composeShards).2 0).voterIds
        = {1, 2, 3, 4} ∧
      (((NodeCall.mk (.add 4 "node-4:4001") (notLeading 1)).run uniformApi twoShards composeShards).2 1).voterIds
        = {1, 2, 3} := by
  refine ⟨fun _ _ _ _ => rfl, ?_⟩
  decide +kernel

end RaftTimeDB
