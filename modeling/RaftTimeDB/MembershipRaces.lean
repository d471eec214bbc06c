import RaftTimeDB.ShardMembership

/-!
# Concurrent membership changes

Several `add_node_all_shards` and `remove_node_all_shards` calls served at once by the leader, cut at their
awaits: on each shard a call adds the learner, reads the voter set from the metrics, and hands the edited
set to `change_membership`.

* A shard has its committed membership, the membership its metrics show (one that was committed, and that
  `publish` brings up to date), and at most one uncommitted change.  openraft refuses a change while
  another one is uncommitted; it may also refuse for other reasons.
* The pool does not change meanwhile, so that `get_raft` finds every listed shard.

Principal results: `step_inv` — what every move preserves; `no_lost_membership_update` — if every accepted
change was computed from the voters that are still committed, then calls that all return `Ok` have left
their edits, and nothing else, in every shard; `stale_read_loses_update` — otherwise an edit can be lost.
-/

set_option autoImplicit false

namespace RaftTimeDB

def NodeRequest.nodeId : NodeRequest → NodeId
  | .add nodeId _ => nodeId
  | .remove nodeId => nodeId

/-! ## Calls and shards -/

/-- Where a call is on its current shard. -/
inductive NodeCallPc where
  /-- about to call `add_learner` -/
  | learner
  /-- waiting for the learner to be added -/
  | learnerSent
  /-- about to read the voters from the metrics -/
  | read
  /-- about to call `change_membership`; the voters read -/
  | change (seen : Finset NodeId)
  /-- waiting for the change to be committed -/
  | changeSent
  deriving DecidableEq

/-- A call: the shards it has yet to finish, the current one first. -/
structure CallState where
  todo : List ShardId
  pc : NodeCallPc
  failed : Bool
  deriving DecidableEq

/-- The voters a call has read and not yet used. -/
def NodeCallPc.seen? : NodeCallPc → Option (Finset NodeId)
  | .change seen => some seen
  | _ => none

/-- Where a turn starts. -/
def NodeRequest.firstPc : NodeRequest → NodeCallPc
  | .add _ _ => .learner
  | .remove _ => .read

namespace CallState

def start (pool : RaftPool) (request : NodeRequest) : CallState :=
  ⟨pool.listShards, request.firstPc, false⟩

/-- The shard whose turn it is; `none` once the call has returned. -/
def current? (c : CallState) : Option ShardId := if c.failed then none else c.todo.head?

/-- The call has returned `Ok`. -/
def ReturnedOk (c : CallState) : Prop := c.todo = [] ∧ c.failed = false

instance (c : CallState) : Decidable c.ReturnedOk := inferInstanceAs (Decidable (_ ∧ _))

/-- What a call does when its change has been committed. -/
def advance (request : NodeRequest) (c : CallState) : CallState :=
  match c.pc with
  | .learnerSent => { c with pc := .read }
  | .changeSent => { c with todo := c.todo.tail, pc := request.firstPc }
  | _ => c

end CallState

/-- A shard's Raft group on the leader; `ι` names the calls. -/
structure ShardGroup (ι : Type*) where
  committed : Membership
  metrics : Membership
  /-- the uncommitted change and the call that waits for it -/
  pending : Option (ι × Membership)

structure RaceState (ι : Type*) where
  group : ShardId → ShardGroup ι
  calls : ι → CallState

inductive RaceLabel (ι : Type*) where
  | learner (i : ι) (refused : Bool)
  | read (i : ι)
  | change (i : ι) (refused : Bool)
  | commit (s : ShardId)
  | publish (s : ShardId)

namespace RaceState

variable {ι : Type*} [DecidableEq ι]

def setCall (st : RaceState ι) (i : ι) (c : CallState) : RaceState ι :=
  { st with calls := Function.update st.calls i c }

def setGroup (st : RaceState ι) (s : ShardId) (g : ShardGroup ι) : RaceState ι :=
  { st with group := Function.update st.group s g }

@[simp] theorem setCall_self (st : RaceState ι) (i : ι) (c : CallState) :
    (st.setCall i c).calls i = c := Function.update_self _ _ _

@[simp] theorem setCall_of_ne (st : RaceState ι) {i j : ι} (h : j ≠ i) (c : CallState) :
    (st.setCall i c).calls j = st.calls j := Function.update_of_ne h _ _

@[simp] theorem setCall_group (st : RaceState ι) (i : ι) (c : CallState) :
    (st.setCall i c).group = st.group := rfl

omit [DecidableEq ι] in
@[simp] theorem setGroup_self (st : RaceState ι) (s : ShardId) (g : ShardGroup ι) :
    (st.setGroup s g).group s = g := Function.update_self _ _ _

omit [DecidableEq ι] in
@[simp] theorem setGroup_of_ne (st : RaceState ι) {s t : ShardId} (h : t ≠ s) (g : ShardGroup ι) :
    (st.setGroup s g).group t = st.group t := Function.update_of_ne h _ _

omit [DecidableEq ι] in
@[simp] theorem setGroup_calls (st : RaceState ι) (s : ShardId) (g : ShardGroup ι) :
    (st.setGroup s g).calls = st.calls := rfl

/-- A membership change is handed to openraft: an error ends the call, otherwise it waits. -/
def submit (st : RaceState ι) (i : ι) (s : ShardId) (change : Membership → Membership)
    (sent : NodeCallPc) (refused : Bool) : RaceState ι :=
  if refused ∨ (st.group s).pending.isSome then
    st.setCall i { st.calls i with failed := true }
  else
    (st.setCall i { st.calls i with pc := sent }).setGroup s
      { st.group s with pending := some (i, change (st.group s).committed) }

def step (M : MembershipApi) (request : ι → NodeRequest) (st : RaceState ι) :
    RaceLabel ι → Option (RaceState ι)
  | .learner i refused =>
      match (st.calls i).current?, (st.calls i).pc, request i with
      | some s, .learner, .add nodeId addr =>
          some (st.submit i s (fun m => M.addLearner m nodeId ⟨addr⟩) .learnerSent refused)
      | _, _, _ => none
  | .read i =>
      match (st.calls i).current?, (st.calls i).pc with
      | some s, .read =>
          some (st.setCall i { st.calls i with pc := .change (st.group s).metrics.voterIds })
      | _, _ => none
  | .change i refused =>
      match (st.calls i).current?, (st.calls i).pc with
      | some s, .change seen =>
          some (st.submit i s (fun m => M.changeMembership m ((request i).edit seen)) .changeSent
            refused)
      | _, _ => none
  | .commit s =>
      match (st.group s).pending with
      | some (i, m) =>
          some ((st.setCall i ((st.calls i).advance (request i))).setGroup s
            { st.group s with committed := m, pending := none })
      | none => none
  | .publish s => some (st.setGroup s { st.group s with metrics := (st.group s).committed })

/-- All calls at their start, no change uncommitted. -/
def init (pool : RaftPool) (request : ι → NodeRequest) (ms : Memberships) : RaceState ι where
  group s := ⟨ms s, ms s, none⟩
  calls i := .start pool (request i)

end RaceState

/-! ## Edits -/

section

variable {ι : Type*} {request : ι → NodeRequest}

/-- A node votes after the requests that have passed: one of them added it, or it did before and none of
them removed it. -/
def Expected (request : ι → NodeRequest) (passed : ι → Prop) (before : Finset NodeId) (id : NodeId) : Prop :=
  (∃ i, passed i ∧ ∃ addr, request i = .add id addr) ∨
    (id ∈ before ∧ ∀ i, passed i → request i ≠ .remove id)

theorem expected_none (before : Finset NodeId) (id : NodeId) :
    Expected request (fun _ => False) before id ↔ id ∈ before := by
  simp [Expected]

/-- **One more request passes**: the voters take its edit.  The requests are for distinct nodes, so that it
undoes none of the others. -/
theorem expected_edit (hids : Function.Injective fun i => (request i).nodeId) {passed passed' : ι → Prop}
    {i : ι} (hpassed : ∀ j, passed' j ↔ passed j ∨ j = i) {before voters : Finset NodeId}
    (hvoters : ∀ id, id ∈ voters ↔ Expected request passed before id) (id : NodeId) :
    id ∈ (request i).edit voters ↔ Expected request passed' before id := by
  have hown : ∀ j, (request j).nodeId = (request i).nodeId → j = i := fun j h => hids h
  have hshift : (∀ addr, request i ≠ .add id addr) → request i ≠ .remove id →
      (Expected request passed' before id ↔ Expected request passed before id) := by
    intro hadd hremove
    unfold Expected
    constructor
    · rintro (⟨j, hj, addr, hreq⟩ | ⟨hbefore, hnone⟩)
      · rcases (hpassed j).mp hj with hj | rfl
        · exact Or.inl ⟨j, hj, addr, hreq⟩
        · exact absurd hreq (hadd addr)
      · exact Or.inr ⟨hbefore, fun j hj => hnone j ((hpassed j).mpr (Or.inl hj))⟩
    · rintro (⟨j, hj, addr, hreq⟩ | ⟨hbefore, hnone⟩)
      · exact Or.inl ⟨j, (hpassed j).mpr (Or.inl hj), addr, hreq⟩
      · refine Or.inr ⟨hbefore, ?_⟩
        intro j hj
        rcases (hpassed j).mp hj with hj | rfl
        · exact hnone j hj
        · exact hremove
  cases hreq : request i with
  | add nodeId addr =>
    rw [NodeRequest.edit, Finset.mem_insert, hvoters]
    by_cases hid : id = nodeId
    · subst hid
      exact iff_of_true (Or.inl rfl) (Or.inl ⟨i, (hpassed i).mpr (Or.inr rfl), addr, hreq⟩)
    · rw [hshift (by rw [hreq]; rintro addr' ⟨⟩; exact hid rfl) (by rw [hreq]; rintro ⟨⟩)]
      exact or_iff_right hid
  | remove nodeId =>
    rw [NodeRequest.edit, Finset.mem_erase, hvoters]
    by_cases hid : id = nodeId
    · subst hid
      refine iff_of_false (fun h => h.1 rfl) ?_
      rintro (⟨j, _, addr, hadd⟩ | ⟨_, hnone⟩)
      · obtain rfl := hown j (by rw [hadd, hreq]; rfl)
        rw [hreq] at hadd
        cases hadd
      · exact hnone i ((hpassed i).mpr (Or.inr rfl)) hreq
    · rw [hshift (by rw [hreq]; rintro addr' ⟨⟩) (by rw [hreq]; rintro ⟨⟩; exact hid rfl)]
      exact and_iff_right hid

end

/-! ## The invariant -/

namespace RaceState

variable {ι : Type*} [DecidableEq ι]

/-- The call waits for a change of the given shard that leaves the given voters. -/
structure Awaits (request : ι → NodeRequest) (st : RaceState ι) (i : ι) (s : ShardId)
    (voters : Finset NodeId) : Prop where
  current : (st.calls i).current? = some s
  change : ((st.calls i).pc = .learnerSent ∧ voters = (st.group s).committed.voterIds) ∨
    ((st.calls i).pc = .changeSent ∧ voters = (request i).edit (st.group s).committed.voterIds)

/-- The committed voters of every shard are those of the calls that have finished with it, and an
uncommitted change is the next edit. -/
structure Inv (pool : RaftPool) (request : ι → NodeRequest) (ms : Memberships) (st : RaceState ι) : Prop where
  nodup : ∀ i, (st.calls i).todo.Nodup
  voters : ∀ s ∈ pool.shards, ∀ id, id ∈ (st.group s).committed.voterIds ↔
    Expected request (fun i => s ∉ (st.calls i).todo) (ms s).voterIds id
  pending : ∀ s i m, (st.group s).pending = some (i, m) → st.Awaits request i s m.voterIds

/-- The set a call submits was computed from the voters that are still committed. -/
def Fresh (st : RaceState ι) : RaceLabel ι → Prop
  | .change i refused => ∀ s ∈ (st.calls i).current?, ∀ seen ∈ (st.calls i).pc.seen?,
      refused = false → (st.group s).pending.isNone → seen = (st.group s).committed.voterIds
  | _ => True

instance (st : RaceState ι) (l : RaceLabel ι) : Decidable (st.Fresh l) :=
  match l with
  | .change i _ => inferInstanceAs (Decidable (∀ s ∈ (st.calls i).current?, ∀ seen ∈ _, _ → _ → _))
  | .learner _ _ => isTrue trivial
  | .read _ => isTrue trivial
  | .commit _ => isTrue trivial
  | .publish _ => isTrue trivial

variable {pool : RaftPool} {request : ι → NodeRequest} {ms : Memberships} {st : RaceState ι}

omit [DecidableEq ι] in
theorem init_inv (hnodup : pool.shards.Nodup) : Inv pool request ms (init pool request ms) where
  nodup _ := NodeCall.nodup_listShards hnodup
  voters s hs id := by
    have hpassed : (fun i => s ∉ ((init pool request ms).calls i).todo) = fun _ => False := by
      funext i
      exact eq_false (not_not_intro (RaftPool.mem_listShards.mpr hs))
    rw [hpassed, expected_none]
    rfl
  pending _ _ _ h := by cases h

/-- A call that does not wait for a change may go on, as long as it stays on its shard. -/
theorem Inv.setCall (h : Inv pool request ms st) {i : ι} {c : CallState}
    (htodo : c.todo = (st.calls i).todo) (hwait : ∀ s m, (st.group s).pending ≠ some (i, m)) :
    Inv pool request ms (st.setCall i c) := by
  have hsame : ∀ j, ((st.setCall i c).calls j).todo = (st.calls j).todo := by
    intro j
    by_cases hj : j = i
    · subst hj
      rw [setCall_self, htodo]
    · rw [setCall_of_ne st hj]
  refine ⟨fun j => by rw [hsame j]; exact h.nodup j, ?_, ?_⟩
  · intro s hs id
    simp only [hsame]
    exact h.voters s hs id
  · intro s j m hpending
    have hj : j ≠ i := fun heq => hwait s m (heq ▸ hpending)
    obtain ⟨hcurrent, hchange⟩ := h.pending s j m hpending
    exact ⟨by rwa [setCall_of_ne st hj], by rwa [setCall_of_ne st hj]⟩

omit [DecidableEq ι] in
/-- A shard may get new metrics or an uncommitted change, as long as a call waits for the change. -/
theorem Inv.setGroup (h : Inv pool request ms st) {s : ShardId} {g : ShardGroup ι}
    (hcommitted : g.committed = (st.group s).committed)
    (hpending : ∀ i m, g.pending = some (i, m) → st.Awaits request i s m.voterIds) :
    Inv pool request ms (st.setGroup s g) := by
  have hsame : ∀ t, ((st.setGroup s g).group t).committed = (st.group t).committed := by
    intro t
    by_cases ht : t = s
    · subst ht
      rw [setGroup_self, hcommitted]
    · rw [setGroup_of_ne st ht]
  refine ⟨h.nodup, ?_, ?_⟩
  · intro t ht id
    rw [hsame t]
    exact h.voters t ht id
  · intro t j m hj
    have hawaits : st.Awaits request j t m.voterIds := by
      by_cases ht : t = s
      · subst ht
        rw [setGroup_self] at hj
        exact hpending j m hj
      · rw [setGroup_of_ne st ht] at hj
        exact h.pending t j m hj
    refine ⟨hawaits.current, ?_⟩
    rw [hsame t]
    exact hawaits.change

omit [DecidableEq ι] in
/-- A call at another point does not wait. -/
theorem Inv.not_pending (h : Inv pool request ms st) {i : ι} (hlearner : (st.calls i).pc ≠ .learnerSent)
    (hchange : (st.calls i).pc ≠ .changeSent) (s : ShardId) (m : Membership) :
    (st.group s).pending ≠ some (i, m) := by
  intro hpending
  rcases (h.pending s i m hpending).change with ⟨hpc, _⟩ | ⟨hpc, _⟩
  · exact hlearner hpc
  · exact hchange hpc

/-- **Handing a change to openraft** keeps the invariant if the change leaves the voters or edits them. -/
theorem Inv.submit (h : Inv pool request ms st) {i : ι} {s : ShardId} {change : Membership → Membership}
    {sent : NodeCallPc} {refused : Bool} (hcurrent : (st.calls i).current? = some s)
    (hwait : ∀ s m, (st.group s).pending ≠ some (i, m))
    (hchange : refused = false → (st.group s).pending = none →
      (sent = .learnerSent ∧ (change (st.group s).committed).voterIds = (st.group s).committed.voterIds) ∨
      (sent = .changeSent ∧
        (change (st.group s).committed).voterIds = (request i).edit (st.group s).committed.voterIds)) :
    Inv pool request ms (st.submit i s change sent refused) := by
  unfold RaceState.submit
  split
  · exact h.setCall rfl hwait
  · rename_i haccepted
    rw [not_or, Bool.not_eq_true, Bool.not_eq_true, Option.isSome_eq_false_iff, Option.isNone_iff_eq_none]
      at haccepted
    have hcall : Inv pool request ms (st.setCall i { st.calls i with pc := sent }) := h.setCall rfl hwait
    refine hcall.setGroup rfl ?_
    intro j m hpending
    obtain ⟨rfl, rfl⟩ : i = j ∧ change (st.group s).committed = m := by simpa using hpending
    refine ⟨?_, ?_⟩
    · rw [setCall_self]
      exact hcurrent
    · rw [setCall_self, setCall_group]
      exact hchange haccepted.1 haccepted.2

/-- A change is committed and the call that waited for it goes on, with that shard or past it. -/
theorem Inv.settle (h : Inv pool request ms st) {s : ShardId} {i : ι} {m : Membership} {c : CallState}
    (hcurrent : (st.calls i).current? = some s) (hnodup : c.todo.Nodup)
    (hother : ∀ t, t ≠ s → (t ∈ c.todo ↔ t ∈ (st.calls i).todo))
    (hvoters : s ∈ pool.shards → ∀ id, id ∈ m.voterIds ↔
      Expected request (fun j => s ∉ ((st.setCall i c).calls j).todo) (ms s).voterIds id) :
    Inv pool request ms
      ((st.setCall i c).setGroup s { st.group s with committed := m, pending := none }) := by
  refine ⟨?_, ?_, ?_⟩
  · intro j
    rw [setGroup_calls]
    by_cases hj : j = i
    · subst hj
      rwa [setCall_self]
    · rw [setCall_of_ne st hj]
      exact h.nodup j
  · intro t ht id
    by_cases hts : t = s
    · subst hts
      rw [setGroup_self, setGroup_calls]
      exact hvoters ht id
    · rw [setGroup_of_ne _ hts, setGroup_calls, setCall_group]
      have hpassed : (fun j => t ∉ ((st.setCall i c).calls j).todo) = fun j => t ∉ (st.calls j).todo := by
        funext j
        by_cases hj : j = i
        · subst hj
          rw [setCall_self, hother t hts]
        · rw [setCall_of_ne st hj]
      rw [hpassed]
      exact h.voters t ht id
  · intro t j m' hpending
    -- what is still uncommitted is on another shard, so that another call waits for it
    have hts : t ≠ s := by
      rintro rfl
      rw [setGroup_self] at hpending
      cases hpending
    rw [setGroup_of_ne _ hts, setCall_group] at hpending
    have hawaits := h.pending t j m' hpending
    have hj : j ≠ i := by
      rintro rfl
      exact hts (Option.some.inj (hawaits.current.symm.trans hcurrent))
    refine ⟨?_, ?_⟩
    · rw [setGroup_calls, setCall_of_ne st hj]
      exact hawaits.current
    · rw [setGroup_calls, setCall_of_ne st hj, setGroup_of_ne _ hts]
      exact hawaits.change

theorem todo_eq_cons {c : CallState} {s : ShardId} (h : c.current? = some s) : c.todo = s :: c.todo.tail := by
  unfold CallState.current? at h
  split at h
  · cases h
  · exact List.eq_cons_of_mem_head? h

/-- **A commit** leaves the voters as they were, or makes the edit of a call that is then done with the
shard. -/
theorem Inv.commit (h : Inv pool request ms st) (hids : Function.Injective fun i => (request i).nodeId)
    {s : ShardId} {i : ι} {m : Membership} (hpending : (st.group s).pending = some (i, m)) :
    Inv pool request ms ((st.setCall i ((st.calls i).advance (request i))).setGroup s
      { st.group s with committed := m, pending := none }) := by
  obtain ⟨hcurrent, hchange⟩ := h.pending s i m hpending
  have htodo := todo_eq_cons hcurrent
  have hnodup := h.nodup i
  rcases hchange with ⟨hpc, hsame⟩ | ⟨hpc, hedit⟩
  · have hadvance : (st.calls i).advance (request i) = { st.calls i with pc := .read } := by
      simp only [CallState.advance, hpc]
    rw [hadvance]
    refine h.settle hcurrent hnodup (fun _ _ => Iff.rfl) ?_
    intro hs id
    have hpassed : (fun j => s ∉ ((st.setCall i { st.calls i with pc := .read }).calls j).todo) =
        fun j => s ∉ (st.calls j).todo := by
      funext j
      by_cases hj : j = i
      · subst hj
        rw [setCall_self]
      · rw [setCall_of_ne st hj]
    rw [hpassed, hsame]
    exact h.voters s hs id
  · have hadvance : (st.calls i).advance (request i) =
        ⟨(st.calls i).todo.tail, (request i).firstPc, (st.calls i).failed⟩ := by
      simp only [CallState.advance, hpc]
    rw [htodo, List.nodup_cons] at hnodup
    rw [hadvance]
    refine h.settle hcurrent hnodup.2 ?_ ?_
    · intro t ht
      rw [htodo, List.mem_cons, List.tail_cons]
      exact (or_iff_right ht).symm
    · intro hs id
      rw [hedit]
      refine expected_edit hids ?_ (h.voters s hs) id
      intro j
      by_cases hj : j = i
      · subst hj
        rw [setCall_self]
        exact iff_of_true hnodup.1 (Or.inr rfl)
      · rw [setCall_of_ne st hj]
        exact (or_iff_left hj).symm

/-- **Every move** whose change is computed from the committed voters keeps the invariant. -/
theorem step_inv (M : MembershipApi) (hids : Function.Injective fun i => (request i).nodeId)
    {l : RaceLabel ι} {st' : RaceState ι} (h : Inv pool request ms st) (hfresh : st.Fresh l)
    (hstep : st.step M request l = some st') : Inv pool request ms st' := by
  cases l with
  | learner i refused =>
    simp only [step] at hstep
    split at hstep
    · rename_i s nodeId addr hcurrent hpc hreq
      cases hstep
      refine h.submit hcurrent (h.not_pending (by simp [hpc]) (by simp [hpc])) ?_
      intro _ _
      exact Or.inl ⟨rfl, M.addLearner_voters _ _ _⟩
    · cases hstep
  | read i =>
    simp only [step] at hstep
    split at hstep
    · rename_i s hcurrent hpc
      cases hstep
      exact h.setCall rfl (h.not_pending (by simp [hpc]) (by simp [hpc]))
    · cases hstep
  | change i refused =>
    simp only [step] at hstep
    split at hstep
    · rename_i s seen hcurrent hpc
      cases hstep
      refine h.submit hcurrent (h.not_pending (by simp [hpc]) (by simp [hpc])) ?_
      intro haccepted hnone
      refine Or.inr ⟨rfl, ?_⟩
      rw [M.change_voters, hfresh s hcurrent seen (by rw [hpc]; rfl) haccepted (by rw [hnone]; rfl)]
    · cases hstep
  | commit s =>
    simp only [step] at hstep
    split at hstep
    · rename_i i m hpending
      cases hstep
      exact h.commit hids hpending
    · cases hstep
  | publish s =>
    cases hstep
    exact h.setGroup rfl (h.pending s)

/-! ## Main result -/

/-- Once all calls have returned `Ok`: in every shard each added node votes, each removed node does not,
and every other node votes as before. -/
def NoLostUpdate (pool : RaftPool) (request : ι → NodeRequest) (ms : Memberships) (st : RaceState ι) :
    Prop :=
  (∀ i, (st.calls i).ReturnedOk) → ∀ s ∈ pool.shards,
    (∀ i id addr, request i = .add id addr → id ∈ (st.group s).committed.voterIds) ∧
    (∀ i id, request i = .remove id → id ∉ (st.group s).committed.voterIds) ∧
    ∀ id, (∀ i, (request i).nodeId ≠ id) →
      (id ∈ (st.group s).committed.voterIds ↔ id ∈ (ms s).voterIds)

omit [DecidableEq ι] in
theorem Inv.noLostUpdate (h : Inv pool request ms st)
    (hids : Function.Injective fun i => (request i).nodeId) : NoLostUpdate pool request ms st := by
  intro hok s hs
  have hpassed : ∀ i, s ∉ (st.calls i).todo := by
    intro i
    rw [(hok i).1]
    exact List.not_mem_nil
  have hvoters := h.voters s hs
  refine ⟨?_, ?_, ?_⟩
  · intro i id addr hreq
    exact (hvoters id).mpr (Or.inl ⟨i, hpassed i, addr, hreq⟩)
  · intro i id hreq hmem
    rcases (hvoters id).mp hmem with ⟨j, _, addr, hadd⟩ | ⟨_, hnone⟩
    · have hji : j = i := hids (by simp only [hadd, hreq, NodeRequest.nodeId])
      rw [hji, hreq] at hadd
      cases hadd
    · exact hnone i (hpassed i) hreq
  · intro id hid
    rw [hvoters id]
    constructor
    · rintro (⟨j, _, addr, hadd⟩ | ⟨hbefore, _⟩)
      · exact absurd (by rw [hadd]; rfl) (hid j)
      · exact hbefore
    · intro hbefore
      refine Or.inr ⟨hbefore, ?_⟩
      intro j _ hremove
      exact hid j (by rw [hremove]; rfl)

end RaceState

/-- **No lost membership update.**  In every interleaving of calls for distinct nodes in which each accepted
change was computed from voters that are still committed, no update is lost in any state reached. -/
theorem no_lost_membership_update {ι : Type*} [DecidableEq ι] (M : MembershipApi) {pool : RaftPool}
    (hnodup : pool.shards.Nodup) {request : ι → NodeRequest}
    (hids : Function.Injective fun i => (request i).nodeId) (ms : Memberships) {ls : List (RaceLabel ι)}
    (hfresh : Runs.Along (RaceState.step M request) RaceState.Fresh (RaceState.init pool request ms) ls) :
    Runs.Throughout (RaceState.step M request) (RaceState.NoLostUpdate pool request ms)
      (RaceState.init pool request ms) ls := by
  have hinit : RaceState.Inv pool request ms (RaceState.init pool request ms) := RaceState.init_inv hnodup
  have hinv := Runs.throughout_of_along
    (fun _ _ _ hst hC hstep => RaceState.step_inv M hids hst hC hstep) hinit hfresh
  exact hinv.imp fun _ hst => hst.noLostUpdate hids

/-! ## Two calls -/

/-- Two nodes are added. -/
def addFourAndFive : Bool → NodeRequest
  | false => .add 4 "node-4:4001"
  | true => .add 5 "node-5:4001"

/-- One call after the other, the metrics being up to date. -/
def oneAfterTheOther : List (RaceLabel Bool) :=
  [.learner false false, .commit 0, .learner true false, .commit 0,
    .publish 0, .read false, .change false false, .commit 0,
    .publish 0, .read true, .change true false, .commit 0]

/-- The second call reads the voters before the change of the first is committed. -/
def bothReadFirst : List (RaceLabel Bool) :=
  [.learner false false, .commit 0, .learner true false, .commit 0,
    .publish 0, .read false, .read true, .change false false, .commit 0,
    .publish 0, .change true false, .commit 0]

theorem addFourAndFive_distinct : Function.Injective fun i => (addFourAndFive i).nodeId := by
  decide

/-- One after the other the calls keep both updates. -/
theorem updates_kept_one_after_the_other :
    (∃ st, Runs.exec (RaceState.step uniformApi addFourAndFive)
          (RaceState.init .new addFourAndFive composeShards) oneAfterTheOther = some st ∧
        (∀ i, (st.calls i).ReturnedOk) ∧ (st.group 0).committed.voterIds = {1, 2, 3, 4, 5}) ∧
      Runs.Throughout (RaceState.step uniformApi addFourAndFive)
        (RaceState.NoLostUpdate .new addFourAndFive composeShards)
        (RaceState.init .new addFourAndFive composeShards) oneAfterTheOther :=
  ⟨Runs.exists_exec (by decide +kernel),
    no_lost_membership_update uniformApi (by decide) addFourAndFive_distinct composeShards
      (by decide +kernel)⟩

/-- **A stale read loses an update.**  Both calls return `Ok`, and node 4 is not a voter. -/
theorem stale_read_loses_update :
    ∃ st, Runs.exec (RaceState.step uniformApi addFourAndFive)
        (RaceState.init .new addFourAndFive composeShards) bothReadFirst = some st ∧
      (∀ i, (st.calls i).ReturnedOk) ∧ (st.group 0).committed.voterIds = {1, 2, 3, 5} ∧
      ¬ RaceState.NoLostUpdate .new addFourAndFive composeShards st := by
  obtain ⟨st, hexec, hok, hvoters⟩ : ∃ st, Runs.exec (RaceState.step uniformApi addFourAndFive)
      (RaceState.init .new addFourAndFive composeShards) bothReadFirst = some st ∧
      (∀ i, (st.calls i).ReturnedOk) ∧ (st.group 0).committed.voterIds = {1, 2, 3, 5} :=
    Runs.exists_exec (by decide +kernel)
  refine ⟨st, hexec, hok, hvoters, ?_⟩
  intro hkept
  have hmem := (hkept hok 0 (by decide)).1 false 4 _ rfl
  rw [hvoters] at hmem
  exact absurd hmem (by decide)

end RaftTimeDB
