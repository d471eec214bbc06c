import RaftTimeDB.ShardSet

/-!
# Entries applied before the channels are attached

`Raft::new` starts a group before `set_shard_config_tx` and `set_forwarder` run, and `apply` clones the
senders once, when it starts.  A call that starts too early has no sender to put its messages on, and they
are gone.

* `AllPut` — every entry applied so far has been put on its channel.
* `WiredFirst` — when `apply` clones a sender that its entries need, it is attached, and no tagged entry is
  applied that is not a command for shard 0.
* `Ready` — the rest of a running call is going to put everything, if the senders it has still to clone are
  attached by then.  Once a call is not ready, it leaves something out (`GroupMove.behind`).

Principal result: `all_put_iff` — no applied entry escapes exactly if the channels are attached before
they are needed; what is recorded as put is on its channel (`sent_last`).
-/

set_option autoImplicit false

namespace RaftTimeDB.Node

open JsonFormats (commandJson snapshotJson)

variable {nodeId : NodeId} {J : CommandJson} {K : SnapshotCodec}

/-! ## What is to be put where, and when it can be -/

/-- Every entry applied so far has been put on the channel it belongs to. -/
def AllPut (w : World) : Prop := ∀ s g, w.group s = some g → g.sent = g.due

/-- A tagged entry that is no command for the pool: `apply` puts it nowhere. -/
def Stray (J : CommandJson) (s : ShardId) (entry : Entry) : Prop :=
  ∃ raw ∈ tagged? entry, s ≠ 0 ∨ decodeShardConfig J raw = none

def Action.isForward : Action → Bool
  | .forward _ => true
  | _ => false

def Action.isDispatch : Action → Bool
  | .dispatch _ _ => true
  | _ => false

def Action.isRead : Action → Bool
  | .readForwarder => true
  | .readConfig => true
  | _ => false

/-- If the running call is about to clone a sender that it needs, the sender is attached. -/
def Group.Attached (g : Group) : Prop :=
  (g.todo.head? = some .readForwarder ∧ g.todo.any Action.isForward → g.sm.forwarder.isSome) ∧
    (g.todo.head? = some .readConfig ∧ g.todo.any Action.isDispatch → g.sm.shardConfigTx.isSome)

/-- The channels are attached before they are needed. -/
def WiredFirst (J : CommandJson) (w : World) : Label → Prop
  | .apply s entries => ∀ entry ∈ entries, ¬ Stray J s entry
  | .act s => ∀ g ∈ w.group s, g.Attached
  | _ => True

/-! ## The rest of a call -/

/-- A section puts what is due, with the senders the call has cloned. -/
def Action.Fits (s : ShardId) (forwarderTx configTx : Bool) : Action → Prop
  | .forward _ => forwarderTx = true
  | .dispatch _ _ => s = 0 ∧ configTx = true
  | .skip _ => False
  | _ => True

/-- Whether a call has a forwarder sender after a section, the channel being attached. -/
def Action.onForwarderTx (a : Action) (tx : Bool) : Bool :=
  match a with
  | .readForwarder => true
  | _ => tx

/-- Every section puts what is due, if the senders that are still to be cloned are attached by then. -/
def Ready (s : ShardId) : Bool → Bool → List Action → Prop
  | _, _, [] => True
  | forwarderTx, configTx, a :: as =>
      a.Fits s forwarderTx configTx ∧ Ready s (a.onForwarderTx forwarderTx) (a.onTx configTx) as

def Group.Ready (s : ShardId) (g : Group) : Prop := Node.Ready s g.forwarderTx g.configTx g.todo

section

variable {s : ShardId} {as : List Action}

theorem fits_forwarder_iff (a : Action) (forwarderTx configTx : Bool) :
    a.Fits s forwarderTx configTx ↔ a.Fits s true configTx ∧ (a.isForward = true → forwarderTx = true) := by
  cases a <;> simp [Action.Fits, Action.isForward]

theorem fits_config_iff (a : Action) (forwarderTx configTx : Bool) :
    a.Fits s forwarderTx configTx ↔ a.Fits s forwarderTx true ∧ (a.isDispatch = true → configTx = true) := by
  cases a <;> simp [Action.Fits, Action.isDispatch]

/-- Without the forwarder sender a call is ready exactly if it has nothing to forward. -/
theorem ready_forwarder_iff (hread : Action.readForwarder ∉ as) (forwarderTx configTx : Bool) :
    Ready s forwarderTx configTx as ↔
      Ready s true configTx as ∧ (as.any Action.isForward → forwarderTx = true) := by
  induction as generalizing configTx with
  | nil => simp [Ready]
  | cons a as ih =>
    rw [List.mem_cons, not_or] at hread
    have hkeep : ∀ tx, a.onForwarderTx tx = tx := by
      cases a with
      | readForwarder => exact absurd rfl hread.1
      | _ => exact fun _ => rfl
    simp only [Ready, hkeep, List.any_cons, Bool.or_eq_true]
    rw [fits_forwarder_iff, ih hread.2]
    tauto

/-- Without the config sender a call is ready exactly if it has nothing to dispatch. -/
theorem ready_config_iff (hread : Action.readConfig ∉ as) (forwarderTx configTx : Bool) :
    Ready s forwarderTx configTx as ↔
      Ready s forwarderTx true as ∧ (as.any Action.isDispatch → configTx = true) := by
  induction as generalizing forwarderTx with
  | nil => simp [Ready]
  | cons a as ih =>
    rw [List.mem_cons, not_or] at hread
    have hkeep : ∀ tx, a.onTx tx = tx := by
      cases a with
      | readConfig => exact absurd rfl hread.1
      | _ => exact fun _ => rfl
    simp only [Ready, hkeep, List.any_cons, Bool.or_eq_true]
    rw [fits_config_iff, ih hread.2]
    tauto

theorem ready_true_iff : Ready s true true as ↔ ∀ a ∈ as, a.Fits s true true := by
  induction as with
  | nil => simp [Ready]
  | cons a as ih =>
    have hforwarder : a.onForwarderTx true = true := by cases a <;> rfl
    have hconfig : a.onTx true = true := by cases a <;> rfl
    simp [Ready, hforwarder, hconfig, ih]

end

theorem fits_entry (J : CommandJson) (s : ShardId) (entry : Entry) :
    (∀ a ∈ entryActions J entry, a.Fits s true true) ↔ ¬ Stray J s entry := by
  unfold entryActions Stray tagged?
  cases entry.payload with
  | blank => simp [Action.Fits]
  | membership m => simp [Action.Fits]
  | normal request =>
    simp only [requestActions]
    split
    · cases hcmd : decodeShardConfig J request.rawMessage with
      | none => simp [Action.Fits, hcmd]
      | some cmd => simp [Action.Fits, hcmd]
    · simp [Action.Fits]

/-- **A call of `apply`** starts ready exactly if none of its entries is stray. -/
theorem ready_apply (J : CommandJson) (s : ShardId) (forwarderTx configTx : Bool) (entries : List Entry) :
    Ready s forwarderTx configTx (applyActions J entries) ↔ ∀ entry ∈ entries, ¬ Stray J s entry := by
  have hreads : Ready s forwarderTx configTx (applyActions J entries) ↔
      Ready s true true (entries.flatMap (entryActions J)) := by
    simp [applyActions, Ready, Action.Fits, Action.onForwarderTx, Action.onTx]
  rw [hreads, ready_true_iff]
  constructor
  · intro h entry hentry
    rw [← fits_entry]
    intro a ha
    exact h a (List.mem_flatMap.mpr ⟨entry, hentry, ha⟩)
  · intro h a ha
    obtain ⟨entry, hentry, ha⟩ := List.mem_flatMap.mp ha
    exact (fits_entry J s entry).mpr (h entry hentry) a ha

/-- **A call of `install_snapshot`** has nothing to put. -/
theorem ready_install (s : ShardId) (forwarderTx configTx : Bool) (snap : Snapshot)
    (replayOrder encodeOrder : List (String × ShardId)) :
    Ready s forwarderTx configTx (installActions K snap replayOrder encodeOrder) := by
  have hall : ∀ a ∈ installActions K snap replayOrder encodeOrder, ∀ f c, a.Fits s f c := by
    unfold installActions
    split
    · exact fun a ha => absurd ha List.not_mem_nil
    · intro a ha f c
      simp only [List.mem_cons, List.mem_append, List.mem_map, List.not_mem_nil, or_false] at ha
      rcases ha with rfl | rfl | ⟨cmd, _, rfl⟩ | rfl <;> exact trivial
  generalize installActions K snap replayOrder encodeOrder = as at hall
  induction as generalizing forwarderTx configTx with
  | nil => exact trivial
  | cons a as ih =>
    refine ⟨hall a List.mem_cons_self _ _, ih _ _ ?_⟩
    exact fun b hb => hall b (List.mem_cons_of_mem _ hb)

theorem reads_entry (J : CommandJson) (entry : Entry) : ∀ a ∈ entryActions J entry, a.isRead = false := by
  unfold entryActions
  cases entry.payload with
  | blank => simp [Action.isRead]
  | membership m => simp [Action.isRead]
  | normal request =>
    simp only [requestActions]
    split
    · cases decodeShardConfig J request.rawMessage <;> simp [Action.isRead]
    · simp [Action.isRead]

/-- No call of `apply` clones a sender twice. -/
theorem reads_apply (J : CommandJson) (entries : List Entry) :
    (applyActions J entries).filter Action.isRead = [.readForwarder, .readConfig] := by
  have hentries : (entries.flatMap (entryActions J)).filter Action.isRead = [] := by
    rw [List.filter_eq_nil_iff]
    intro a ha
    obtain ⟨entry, _, ha⟩ := List.mem_flatMap.mp ha
    simp [reads_entry J entry a ha]
  rw [applyActions, List.filter_cons_of_pos rfl, List.filter_cons_of_pos rfl, hentries]

theorem reads_install (snap : Snapshot) (replayOrder encodeOrder : List (String × ShardId)) :
    ((installActions K snap replayOrder encodeOrder).filter Action.isRead).Nodup := by
  unfold installActions
  split
  · exact List.nodup_nil
  · rename_i data _
    have hrest : ((replayCommands replayOrder data.toInner).map Action.replay ++
        [Action.cache ⟨snap.snapMeta, K.toVec encodeOrder data⟩]).filter Action.isRead = [] := by
      rw [List.filter_eq_nil_iff]
      intro a ha
      simp only [List.mem_append, List.mem_map, List.mem_singleton] at ha
      rcases ha with ⟨cmd, _, rfl⟩ | rfl <;> simp [Action.isRead]
    rw [List.filter_cons_of_neg Bool.false_ne_true, List.filter_cons_of_pos rfl, hrest]
    exact List.nodup_singleton _

/-! ## One section -/

/-- What the entry of a section should put on a channel. -/
def Action.owes (s : ShardId) : Action → List Posted
  | .dispatch cmd msg => [expected s (some cmd) msg]
  | .skip msg => [expected s none msg]
  | .forward msg => [expected s none msg]
  | _ => []

/-- What a section of `apply` puts on a channel, with the senders the call has cloned. -/
def Action.puts (forwarderTx configTx : Bool) : Action → List Posted
  | .dispatch cmd _ => if configTx then [.config cmd] else []
  | .forward msg => if forwarderTx then [.forward msg] else []
  | _ => []

section

variable {s : ShardId} {g : Group}

@[simp] theorem expected_none (s : ShardId) (msg : ForwarderMsg) : expected s none msg = .forward msg := by
  cases s <;> rfl

@[simp] theorem act_due (s : ShardId) (g : Group) (a : Action) :
    (g.act s a).due = g.due ++ a.owes s := by
  cases a <;> simp [Group.act, Group.setInner, Action.owes]

@[simp] theorem act_sent (s : ShardId) (g : Group) (a : Action) :
    (g.act s a).sent = g.sent ++ a.puts g.forwarderTx g.configTx := by
  cases a <;> simp [Group.act, Group.setInner, Action.puts]

theorem puts_eq_owes {f c : Bool} {a : Action} (h : a.Fits s f c) : a.puts f c = a.owes s := by
  cases a with
  | dispatch cmd msg =>
    obtain ⟨rfl, rfl⟩ := h
    rfl
  | skip msg => exact h.elim
  | forward msg =>
    cases h
    simp [Action.puts, Action.owes]
  | _ => rfl

theorem length_puts_le (s : ShardId) (f c : Bool) (a : Action) :
    (a.puts f c).length ≤ (a.owes s).length := by
  cases a with
  | dispatch cmd msg => cases c <;> simp [Action.puts, Action.owes]
  | forward msg => cases f <;> simp [Action.puts, Action.owes]
  | _ => simp [Action.puts]

/-- A section that does not fit leaves something out. -/
theorem length_puts_lt {f c : Bool} {a : Action} (hc : s ≠ 0 → c = false) (h : ¬ a.Fits s f c) :
    (a.puts f c).length < (a.owes s).length := by
  cases a with
  | dispatch cmd msg =>
    have hno : c = false := by
      by_cases hs : s = 0
      · rw [← Bool.not_eq_true]
        exact fun htrue => h ⟨hs, htrue⟩
      · exact hc hs
    simp [Action.puts, Action.owes, hno]
  | skip msg => simp [Action.puts, Action.owes]
  | forward msg =>
    have hno : f = false := by
      rw [← Bool.not_eq_true]
      exact h
    simp [Action.puts, Action.owes, hno]
  | _ => exact absurd trivial h

theorem act_noConfig (a : Action) (h : g.sm.shardConfigTx = none ∧ g.configTx = false) :
    (g.act s a).sm.shardConfigTx = none ∧ (g.act s a).configTx = false := by
  cases a with
  | readConfig => simp [Group.act, h.1]
  | dispatch cmd msg | replay cmd => simp [Group.act, Group.sendConfig, h.1, h.2]
  | forward msg =>
    simp only [Group.act, Group.sendForward]
    split <;> exact h
  | _ => exact h

end

/-! ## One group -/

/-- The channels of the senders the running call has cloned are there. -/
def Group.Cloned (g : Group) : Prop :=
  (g.forwarderTx = true → g.sm.forwarder.isSome) ∧ (g.configTx = true → g.sm.shardConfigTx.isSome)

/-- What holds of a group in every state. -/
structure GroupInv (s : ShardId) (g : Group) : Prop where
  /-- the running call clones each sender once -/
  once : (g.todo.filter Action.isRead).Nodup
  le : g.sent.length ≤ g.due.length
  /-- only shard 0 has a config channel -/
  config : s ≠ 0 → g.sm.shardConfigTx = none ∧ g.configTx = false
  /-- a sender that has been cloned is attached -/
  cloned : g.Cloned

/-- The shard on whose group a label makes or runs a call. -/
def Label.target? : Label → Option ShardId
  | .apply s _ => some s
  | .install s _ _ _ => some s
  | .act s => some s
  | _ => none

/-- No channel is detached. -/
def KeepsChannels (sm sm' : StateMachineStore) : Prop :=
  (sm.forwarder.isSome → sm'.forwarder.isSome) ∧ (sm.shardConfigTx.isSome → sm'.shardConfigTx.isSome)

/-- A move, as one group sees it. -/
inductive GroupMove (J : CommandJson) (K : SnapshotCodec) (s : ShardId) (g : Group) :
    Label → Group → Prop where
  | call {l : Label} {actions : List Action} (hl : l.call? J K = some (s, actions)) (hidle : g.todo = []) :
      GroupMove J K s g l { g with todo := actions }
  | act {a : Action} {rest : List Action} (htodo : g.todo = a :: rest) :
      GroupMove J K s g (.act s) (Group.act s { g with todo := rest } a)
  /-- nothing, or a change of the channels -/
  | other {l : Label} {sm : StateMachineStore} (htarget : l.target? ≠ some s)
      (hconfig : s ≠ 0 → sm.shardConfigTx = g.sm.shardConfigTx) (hkeep : KeepsChannels g.sm sm) :
      GroupMove J K s g l { g with sm := sm }

section

variable {s : ShardId} {g g' : Group} {l : Label}

theorem act_cloned (a : Action) (h : g.Cloned) : (g.act s a).Cloned := by
  cases a with
  | readForwarder => exact ⟨id, h.2⟩
  | readConfig => exact ⟨h.1, id⟩
  | dispatch cmd msg | replay cmd =>
    simp only [Group.Cloned, Group.act, Group.sendConfig]
    split
    · simpa [Group.Cloned, StateMachineStore.sendShardConfig] using h
    · exact h
  | forward msg =>
    simp only [Group.Cloned, Group.act, Group.sendForward]
    split
    · simpa [Group.Cloned, StateMachineStore.sendForwarder] using h
    · exact h
  | _ => exact h

/-- A message is the last one on its channel. -/
def Posted.Last (p : Posted) (sm : StateMachineStore) : Prop :=
  match p with
  | .config cmd => ∃ queue, sm.shardConfigTx = some (queue ++ [cmd])
  | .forward msg => ∃ queue, sm.forwarder = some (queue ++ [msg])

/-- **What is recorded as sent is on its channel**, right after the section that puts it there. -/
theorem puts_last (h : g.Cloned) {a : Action} {p : Posted} (hp : p ∈ a.puts g.forwarderTx g.configTx) :
    p.Last (g.act s a).sm := by
  cases a with
  | dispatch cmd msg =>
    simp only [Action.puts, List.mem_ite_nil_right, List.mem_singleton] at hp
    obtain ⟨htx, rfl⟩ := hp
    obtain ⟨queue, hqueue⟩ := Option.isSome_iff_exists.mp (h.2 htx)
    exact ⟨queue, by simp [Group.act, Group.sendConfig, htx, StateMachineStore.sendShardConfig, hqueue]⟩
  | forward msg =>
    simp only [Action.puts, List.mem_ite_nil_right, List.mem_singleton] at hp
    obtain ⟨htx, rfl⟩ := hp
    obtain ⟨queue, hqueue⟩ := Option.isSome_iff_exists.mp (h.1 htx)
    exact ⟨queue, by simp [Group.act, Group.sendForward, htx, StateMachineStore.sendForwarder, hqueue]⟩
  | _ => cases hp

theorem GroupInv.new (s : ShardId) : GroupInv s Group.new :=
  ⟨List.nodup_nil, le_refl _, fun _ => ⟨rfl, rfl⟩, nofun, nofun⟩

theorem GroupInv.move (h : GroupInv s g) (hmove : GroupMove J K s g l g') : GroupInv s g' := by
  cases hmove with
  | call hl hidle =>
    refine ⟨?_, h.le, h.config, h.cloned⟩
    cases l with
    | apply t entries =>
      cases hl
      rw [reads_apply]
      decide
    | install t snap replayOrder encodeOrder =>
      cases hl
      exact reads_install snap replayOrder encodeOrder
    | _ => cases hl
  | act htodo =>
    rename_i a rest
    refine ⟨?_, ?_, fun hs => act_noConfig a (h.config hs), act_cloned a h.cloned⟩
    · have honce := h.once
      rw [htodo] at honce
      rw [act_todo]
      exact honce.sublist ((List.sublist_cons_self a rest).filter _)
    · have hle := h.le
      have hputs := length_puts_le s g.forwarderTx g.configTx a
      simp only [act_sent, act_due, List.length_append]
      omega
  | other htarget hconfig hkeep =>
    refine ⟨h.once, h.le, ?_, ?_⟩
    · intro hs
      exact ⟨(hconfig hs).trans (h.config hs).1, (h.config hs).2⟩
    · exact ⟨fun htx => hkeep.1 (h.cloned.1 htx), fun htx => hkeep.2 (h.cloned.2 htx)⟩

theorem read_once {a : Action} {rest : List Action} (honce : ((a :: rest).filter Action.isRead).Nodup)
    (ha : a.isRead = true) : a ∉ rest := by
  rw [List.filter_cons_of_pos ha, List.nodup_cons] at honce
  exact fun hmem => honce.1 (List.mem_filter.mpr ⟨hmem, ha⟩)

theorem attached_of_not_read {a : Action} {rest : List Action} (htodo : g.todo = a :: rest)
    (ha : a.isRead = false) : g.Attached := by
  unfold Group.Attached
  rw [htodo, List.head?_cons]
  constructor
  · rintro ⟨hread, _⟩
    cases hread
    cases ha
  · rintro ⟨hread, _⟩
    cases hread
    cases ha

/-- **After a section** the call is ready exactly if it was, and the sender it cloned is attached if it needs
it. -/
theorem ready_act (hinv : GroupInv s g) {a : Action} {rest : List Action} (htodo : g.todo = a :: rest) :
    (Group.act s { g with todo := rest } a).Ready s ∧ a.Fits s g.forwarderTx g.configTx ↔
      g.Ready s ∧ g.Attached := by
  have honce := hinv.once
  rw [htodo] at honce
  have hattached := fun ha => attached_of_not_read (g := g) htodo ha
  unfold Group.Ready
  rw [act_todo, htodo]
  cases a with
  | readForwarder =>
    have hready := ready_forwarder_iff (s := s) (read_once honce rfl) g.sm.forwarder.isSome g.configTx
    simpa [Ready, Group.Attached, htodo, Group.act, Action.Fits, Action.onForwarderTx, Action.onTx,
      Action.isForward] using hready
  | readConfig =>
    have hready := ready_config_iff (s := s) (read_once honce rfl) g.forwarderTx g.sm.shardConfigTx.isSome
    simpa [Ready, Group.Attached, htodo, Group.act, Action.Fits, Action.onForwarderTx, Action.onTx,
      Action.isDispatch] using hready
  | _ => exact and_comm.trans (and_iff_left (hattached rfl)).symm

/-- **A group that has put everything and is ready** stays so exactly if the channels are attached before they
are needed. -/
theorem put_act (hinv : GroupInv s g) {a : Action} {rest : List Action} (htodo : g.todo = a :: rest)
    (hput : g.sent = g.due) (hready : g.Ready s) :
    let g' := Group.act s { g with todo := rest } a
    (g'.sent = g'.due ∧ g'.Ready s) ↔ g.Attached := by
  have hfits : a.Fits s g.forwarderTx g.configTx := by
    rw [Group.Ready, htodo] at hready
    exact hready.1
  have hsent : (Group.act s { g with todo := rest } a).sent = (Group.act s { g with todo := rest } a).due := by
    rw [act_sent, act_due, hput, puts_eq_owes hfits]
  have hact := ready_act hinv htodo
  constructor
  · intro h
    exact (hact.mp ⟨h.2, hfits⟩).2
  · intro h
    exact ⟨hsent, (hact.mpr ⟨hready, h⟩).1⟩

/-- The group has left something out, or is going to. -/
def Group.Behind (s : ShardId) (g : Group) : Prop := g.sent.length < g.due.length ∨ ¬ g.Ready s

/-- **What is left out stays left out.** -/
theorem GroupMove.behind (hinv : GroupInv s g) (hmove : GroupMove J K s g l g') (h : g.Behind s) :
    g'.Behind s := by
  cases hmove with
  | call hl hidle =>
    refine h.elim Or.inl fun hno => absurd ?_ hno
    rw [Group.Ready, hidle]
    exact trivial
  | act htodo =>
    rename_i a rest
    have hle := hinv.le
    have hputs := length_puts_le s g.forwarderTx g.configTx a
    by_cases hlt : g.sent.length < g.due.length
    · left
      simp only [act_sent, act_due, List.length_append]
      omega
    · have hno := h.resolve_left hlt
      by_cases hfits : a.Fits s g.forwarderTx g.configTx
      · right
        exact fun hready => hno ((ready_act hinv htodo).mp ⟨hready, hfits⟩).1
      · left
        have hless := length_puts_lt (fun hs => (hinv.config hs).2) hfits
        simp only [act_sent, act_due, List.length_append]
        omega
  | other htarget hconfig hkeep => exact h

end

/-! ## The whole node -/

/-- What holds of a node in every state. -/
structure WiringInv (w : World) : Prop where
  pool : PoolInv w
  fresh : w.boot = .fresh → w.group 0 = none
  groups : ∀ s g, w.group s = some g → GroupInv s g

section

variable {w w' : World} {l : Label}

/-- How a shard sees a move: its group is not there, or is started, or makes one of its moves. -/
def Seen (J : CommandJson) (K : SnapshotCodec) (w : World) (l : Label) (w' : World) (s : ShardId) : Prop :=
  (l.target? ≠ some s ∧ w.group s = none ∧ (w'.group s = none ∨ w'.group s = some Group.new)) ∨
    ∃ g g', w.group s = some g ∧ w'.group s = some g' ∧ GroupMove J K s g l g'

theorem Seen.of_eq {s : ShardId} (htarget : l.target? ≠ some s) (h : w'.group s = w.group s) :
    Seen J K w l w' s := by
  cases hg : w.group s with
  | none => exact Or.inl ⟨htarget, hg, Or.inl (h.trans hg)⟩
  | some g => exact Or.inr ⟨g, g, hg, h.trans hg, .other htarget (fun _ => rfl) ⟨id, id⟩⟩

/-- A group is started. -/
theorem Seen.new {s t : ShardId} (htarget : l.target? = none) (hnone : w.group t = none)
    (h : w'.group = (w.setGroup t Group.new).group) : Seen J K w l w' s := by
  have hno : l.target? ≠ some s := by
    rw [htarget]
    nofun
  by_cases hs : s = t
  · subst hs
    exact Or.inl ⟨hno, hnone, Or.inr (by rw [h, setGroup_self])⟩
  · exact Seen.of_eq hno (by rw [h, setGroup_of_ne w hs])

/-- The channels of a group change. -/
theorem Seen.channels {s t : ShardId} {g : Group} {sm : StateMachineStore} (htarget : l.target? = none)
    (hg : w.group t = some g) (h : w'.group = (w.setGroup t { g with sm := sm }).group)
    (hconfig : t ≠ 0 → sm.shardConfigTx = g.sm.shardConfigTx) (hkeep : KeepsChannels g.sm sm) :
    Seen J K w l w' s := by
  have hno : l.target? ≠ some s := by
    rw [htarget]
    nofun
  by_cases hs : s = t
  · subst hs
    exact Or.inr ⟨g, _, hg, by rw [h, setGroup_self], .other hno hconfig hkeep⟩
  · exact Seen.of_eq hno (by rw [h, setGroup_of_ne w hs])

/-- **Every shard sees every move** in one of these ways. -/
theorem step_seen (hinv : WiringInv w) (hstep : step nodeId J K w l = some w') (s : ShardId) :
    Seen J K w l w' s := by
  cases step_effect hstep with
  | bootCreate hboot => exact Seen.new rfl (hinv.fresh hboot) rfl
  | bootConfig hboot hg => exact Seen.channels rfl hg rfl (fun hs => absurd rfl hs) ⟨id, fun _ => rfl⟩
  | bootForwarder hboot hg => exact Seen.channels rfl hg rfl (fun _ => rfl) ⟨fun _ => rfl, id⟩
  | call hl horder hg hidle =>
    rename_i t actions g
    by_cases hs : s = t
    · subst hs
      exact Or.inr ⟨g, _, hg, setGroup_self w s _, .call hl hidle⟩
    · refine Seen.of_eq ?_ (setGroup_of_ne w hs _)
      have htarget : l.target? = some t := by
        cases l <;> cases hl <;> rfl
      rw [htarget]
      exact fun h => hs (Option.some.inj h).symm
  | act hg htodo =>
    rename_i t g a rest
    by_cases hs : s = t
    · subst hs
      exact Or.inr ⟨g, _, hg, setGroup_self w s _, .act htodo⟩
    · exact Seen.of_eq (fun h => hs (Option.some.inj h).symm) (setGroup_of_ne w hs _)
  | receive hboot hidle hg hqueue =>
    exact Seen.channels rfl hg rfl (fun hs => absurd rfl hs) ⟨id, fun _ => rfl⟩
  | createOk hl => exact Seen.new rfl (hinv.pool.unreplaced hl) rfl
  | wire hl hg => exact Seen.channels rfl hg rfl (fun _ => rfl) ⟨fun _ => rfl, id⟩
  | _ => exact Seen.of_eq nofun rfl

theorem WiringInv.start : WiringInv World.start :=
  ⟨PoolInv.start, fun _ => rfl, fun _ _ h => by cases h⟩

/-- Before `RaftPool::new` starts shard 0 nothing else does. -/
theorem fresh_step (h : WiringInv w) (hstep : step nodeId J K w l = some w') (hfresh : w'.boot = .fresh) :
    w'.group 0 = none := by
  have hset : ∀ {s : ShardId} {g g' : Group}, w.boot = .fresh → w.group s = some g →
      (w.setGroup s g').group 0 = none := by
    intro s g g' hboot hg
    have hnone := h.fresh hboot
    rw [setGroup_of_ne w _ g']
    · exact hnone
    · rintro rfl
      rw [hnone] at hg
      cases hg
  cases step_effect hstep with
  | bootCreate hboot => cases hfresh
  | bootConfig hboot hg => cases hfresh
  | bootForwarder hboot hg => cases hfresh
  | bootListener hboot => cases hfresh
  | call hl horder hg hidle => exact hset hfresh hg
  | act hg htodo => exact hset hfresh hg
  | receive hboot hidle hg hqueue => exact hset hfresh hg
  | createOk hl =>
    exact (setGroup_of_ne w (h.pool.ne_zero (Or.inr hl)) _).trans (h.fresh hfresh)
  | wire hl hg => exact hset hfresh hg
  | _ => exact h.fresh hfresh

theorem wiring_step (h : WiringInv w) (hstep : step nodeId J K w l = some w') : WiringInv w' := by
  refine ⟨pool_step h.pool hstep, fresh_step h hstep, ?_⟩
  intro s g' hg'
  rcases step_seen h hstep s with ⟨_, _, hnew⟩ | ⟨g, g'', hg, hg'', hmove⟩
  · rw [hg'] at hnew
    obtain rfl := Option.some.inj (hnew.resolve_left nofun)
    exact GroupInv.new s
  · obtain rfl := Option.some.inj (hg'.symm.trans hg'')
    exact (h.groups s g hg).move hmove

/-- Every group has put everything so far, and is ready for the rest. -/
def AllReady (w : World) : Prop := ∀ s g, w.group s = some g → g.sent = g.due ∧ g.Ready s

/-- **A move keeps every group ready** exactly if the channels are attached before they are needed. -/
theorem allReady_step (hinv : WiringInv w) (hready : AllReady w) (hstep : step nodeId J K w l = some w') :
    AllReady w' ↔ WiredFirst J w l := by
  constructor
  · intro hready'
    cases l with
    | apply s entries =>
      rcases step_seen hinv hstep s with ⟨htarget, _⟩ | ⟨g, g', hg, hg', hmove⟩
      · exact absurd rfl htarget
      · have hnow := (hready' s g' hg').2
        cases hmove with
        | call hl hidle =>
          cases hl
          exact (ready_apply J s g.forwarderTx g.configTx entries).mp hnow
        | other htarget hconfig hkeep => exact absurd rfl htarget
    | act s =>
      intro g₀ hg₀
      rcases step_seen hinv hstep s with ⟨htarget, _⟩ | ⟨g, g', hg, hg', hmove⟩
      · exact absurd rfl htarget
      · obtain rfl := Option.some.inj (hg.symm.trans hg₀)
        cases hmove with
        | call hl hidle => cases hl
        | act htodo =>
          exact (put_act (hinv.groups s g hg) htodo (hready s g hg).1 (hready s g hg).2).mp (hready' s _ hg')
        | other htarget hconfig hkeep => exact absurd rfl htarget
    | _ => exact trivial
  · intro hwired s g' hg'
    rcases step_seen hinv hstep s with ⟨_, _, hnew⟩ | ⟨g, g'', hg, hg'', hmove⟩
    · rw [hg'] at hnew
      obtain rfl := Option.some.inj (hnew.resolve_left nofun)
      exact ⟨rfl, trivial⟩
    · obtain rfl := Option.some.inj (hg'.symm.trans hg'')
      obtain ⟨hput, hrest⟩ := hready s g hg
      cases hmove with
      | call hl hidle =>
        refine ⟨hput, ?_⟩
        cases l with
        | apply t entries =>
          cases hl
          exact (ready_apply J s g.forwarderTx g.configTx entries).mpr hwired
        | install t snap replayOrder encodeOrder =>
          cases hl
          exact ready_install s g.forwarderTx g.configTx snap replayOrder encodeOrder
        | _ => cases hl
      | act htodo => exact (put_act (hinv.groups s g hg) htodo hput hrest).mpr (hwired g hg)
      | other htarget hconfig hkeep => exact ⟨hput, hrest⟩

/-- **What a group leaves out it never makes up for.** -/
theorem behind_exec {s : ShardId} {g : Group} {ls : List Label} (hinv : WiringInv w) (hg : w.group s = some g)
    (hbehind : g.Behind s) (hexec : Runs.exec (step nodeId J K) w ls = some w') :
    ∃ g', w'.group s = some g' ∧ g'.Behind s := by
  have hboth : WiringInv w' ∧ ∃ g', w'.group s = some g' ∧ g'.Behind s := by
    refine Runs.exec_inv (I := fun w => WiringInv w ∧ ∃ g, w.group s = some g ∧ g.Behind s) ?_
      ⟨hinv, g, hg, hbehind⟩ hexec
    rintro w l w' ⟨hinv, g, hg, hbehind⟩ hstep
    refine ⟨wiring_step hinv hstep, ?_⟩
    rcases step_seen hinv hstep s with ⟨_, hnone, _⟩ | ⟨g₀, g', hg₀, hg', hmove⟩
    · rw [hg] at hnone
      cases hnone
    · obtain rfl := Option.some.inj (hg.symm.trans hg₀)
      exact ⟨g', hg', hmove.behind (hinv.groups s g hg) hbehind⟩
  exact hboth.2

end

/-- **What a section records as sent** is on an attached channel after it, in every run. -/
theorem sent_last {ls : List Label} {w w' : World} {s : ShardId}
    (hexec : Runs.exec (step nodeId J K) World.start ls = some w)
    (hstep : step nodeId J K w (.act s) = some w') :
    ∃ g g' new, w.group s = some g ∧ w'.group s = some g' ∧ g'.sent = g.sent ++ new ∧
      ∀ p ∈ new, p.Last g'.sm := by
  have hinv : WiringInv w := Runs.exec_inv (fun _ _ _ hinv h => wiring_step hinv h) WiringInv.start hexec
  rcases step_seen hinv hstep s with ⟨htarget, _⟩ | ⟨g, g', hg, hg', hmove⟩
  · exact absurd rfl htarget
  · cases hmove with
    | call hl hidle => cases hl
    | act htodo =>
      rename_i a rest
      have hcloned : Group.Cloned { g with todo := rest } := (hinv.groups s g hg).cloned
      exact ⟨g, _, _, hg, hg', act_sent s { g with todo := rest } a, fun p hp => puts_last hcloned hp⟩
    | other htarget hconfig hkeep => exact absurd rfl htarget

/-! ## Main result -/

/-- No call is running. -/
def World.Idle (w : World) : Prop := ∀ s g, w.group s = some g → g.todo = []

/-- In a run that ends idle and puts everything every group is ready all the time. -/
theorem throughout_allReady {ls : List Label} {w : World}
    (hexec : Runs.exec (step nodeId J K) World.start ls = some w) (hidle : w.Idle)
    (hput : Runs.Throughout (step nodeId J K) AllPut World.start ls) :
    Runs.Throughout (step nodeId J K) AllReady World.start ls := by
  rw [Runs.throughout_iff_forall] at hput ⊢
  intro ls₁ ls₂ v hls hv s g hg
  refine ⟨hput ls₁ ls₂ v hls hv s g hg, ?_⟩
  by_contra hno
  have hinv : WiringInv v := Runs.exec_inv (fun _ _ _ hinv h => wiring_step hinv h) WiringInv.start hv
  rw [hls, Runs.exec_append_some] at hexec
  obtain ⟨v', hv', hend⟩ := hexec
  obtain rfl := Option.some.inj (hv.symm.trans hv')
  obtain ⟨g', hg', hbehind⟩ := behind_exec hinv hg (Or.inr hno) hend
  have hready : g'.Ready s := by
    rw [Group.Ready, hidle s g' hg']
    exact trivial
  have hless := hbehind.resolve_right fun hno => hno hready
  have hall : Runs.exec (step nodeId J K) World.start ls = some w := by
    rw [hls]
    exact Runs.exec_append_some.mpr ⟨v, hv, hend⟩
  rw [hput ls [] w (List.append_nil ls).symm hall s g' hg'] at hless
  exact absurd hless (lt_irrefl _)

/-- **No applied entry escapes** exactly if the channels are attached before they are needed.  In a run whose
moves all meet `WiredFirst`, every decodable command applied on shard 0 has been put on the config channel
and every other Normal entry on the forwarder channel of its shard, in every state; and a run that leaves
no call unfinished and has this property meets `WiredFirst` all along.  What a section records as put is
the last message on the channel it was put on. -/
theorem all_put_iff (nodeId : NodeId) (J : CommandJson) (K : SnapshotCodec) (ls : List Label) :
    (Runs.Along (step nodeId J K) (WiredFirst J) World.start ls →
      Runs.Throughout (step nodeId J K) AllPut World.start ls) ∧
    ∀ w, Runs.exec (step nodeId J K) World.start ls = some w →
      (w.Idle → (Runs.Throughout (step nodeId J K) AllPut World.start ls ↔
        Runs.Along (step nodeId J K) (WiredFirst J) World.start ls)) ∧
      ∀ s w', step nodeId J K w (.act s) = some w' →
        ∃ g g' new, w.group s = some g ∧ w'.group s = some g' ∧ g'.sent = g.sent ++ new ∧
          ∀ p ∈ new, p.Last g'.sm := by
  have hstart : AllReady World.start := fun _ _ h => by cases h
  have henough : Runs.Along (step nodeId J K) (WiredFirst J) World.start ls →
      Runs.Throughout (step nodeId J K) AllPut World.start ls := by
    intro hwired
    have hready := Runs.throughout_of_along (I := fun w => WiringInv w ∧ AllReady w)
      (fun _ _ _ hinv hl h => ⟨wiring_step hinv.1 h, (allReady_step hinv.1 hinv.2 h).mpr hl⟩)
      ⟨WiringInv.start, hstart⟩ hwired
    exact hready.imp fun _ hw s g hg => (hw.2 s g hg).1
  refine ⟨henough, fun w hexec => ⟨fun hidle => ⟨fun hput => ?_, henough⟩,
    fun s w' hstep => sent_last hexec hstep⟩⟩
  exact (Runs.throughout_iff_along (fun _ _ _ hinv h => wiring_step hinv h)
    (fun _ _ _ hinv hready h => allReady_step hinv hready h) WiringInv.start hstart hexec).mp
    (throughout_allReady hexec hidle hput)

/-! ## A stored log -/

instance (s : ShardId) (entry : Entry) : Decidable (Stray J s entry) :=
  inferInstanceAs (Decidable (∃ raw ∈ tagged? entry, _))

instance (g : Group) : Decidable g.Attached := inferInstanceAs (Decidable ((_ → _) ∧ (_ → _)))

instance (w : World) : ∀ l, Decidable (WiredFirst J w l)
  | .apply s entries => inferInstanceAs (Decidable (∀ entry ∈ entries, ¬ Stray J s entry))
  | .act s => inferInstanceAs (Decidable (∀ g ∈ w.group s, g.Attached))
  | .boot | .install .. | .receive | .handle | .create _ | .wire | .insert | .message .. => isTrue trivial

/-- A shard was created and a reducer called before the restart. -/
def storedLog : List Entry :=
  [⟨⟨⟨1, 1⟩, 0⟩, .normal ⟨encodeShardConfig commandJson (.createShard 1), 1⟩⟩,
    ⟨⟨⟨1, 1⟩, 1⟩, .normal ⟨[3], 1⟩⟩]

def applyStored : List Label := .apply 0 storedLog :: List.replicate 9 (.act 0)

/-- openraft applies the log as soon as shard 0 is started. -/
def earlyRun : List Label := .boot :: List.append applyStored [.boot, .boot, .boot]

/-- **The stored log is applied too early**, between `Raft::new` and `set_shard_config_tx`: neither the
command nor the call reaches a channel, then or later. -/
theorem early_apply_escapes :
    (∃ w g, Runs.exec (step 1 commandJson snapshotJson) World.start earlyRun = some w ∧
      w.group 0 = some g ∧ w.boot = .running ∧ g.todo = [] ∧
      g.due = [.config (.createShard 1), .forward ⟨1, 1, [3]⟩] ∧ g.sent = [] ∧
      g.sm.shardConfigTx = some [] ∧ g.sm.forwarder = some []) ∧
    ¬ ∀ ls, Runs.Throughout (step 1 commandJson snapshotJson) AllPut World.start ls := by
  obtain ⟨w, hexec, g, hg, hrest⟩ : ∃ w,
      Runs.exec (step 1 commandJson snapshotJson) World.start earlyRun = some w ∧ ∃ g ∈ w.group 0,
      w.boot = .running ∧ g.todo = [] ∧ g.due = [.config (.createShard 1), .forward ⟨1, 1, [3]⟩] ∧
      g.sent = [] ∧ g.sm.shardConfigTx = some [] ∧ g.sm.forwarder = some [] :=
    Runs.exists_exec (by decide +kernel)
  refine ⟨⟨w, g, hexec, hg, hrest⟩, ?_⟩
  intro hall
  have hend : AllPut w :=
    Runs.throughout_iff_forall.mp (hall earlyRun) earlyRun [] w (List.append_nil earlyRun).symm hexec
  have hput := hend 0 g hg
  rw [hrest.2.2.1, hrest.2.2.2.1] at hput
  cases hput

/-- The same log, applied after the channels are attached; then a call on the new shard. -/
def wiredRun : List Label :=
  .boot :: .boot :: .boot :: List.append applyStored
    [.boot, .receive, .handle, .create true, .wire, .insert,
      .apply 1 [⟨⟨⟨1, 1⟩, 0⟩, .normal ⟨[4], 1⟩⟩], .act 1, .act 1, .act 1, .act 1, .act 1]

/-- Nothing escapes in it. -/
theorem wired_first_puts_all :
    Runs.Throughout (step 1 commandJson snapshotJson) AllPut World.start wiredRun ∧
      ∃ w, Runs.exec (step 1 commandJson snapshotJson) World.start wiredRun = some w ∧
        (w.group 0).map (·.sent) = some [.config (.createShard 1), .forward ⟨1, 1, [3]⟩] ∧
        (w.group 1).map (·.sent) = some [.forward ⟨0, 1, [4]⟩] := by
  have hwired : Runs.Along (step 1 commandJson snapshotJson) (WiredFirst commandJson) World.start wiredRun := by
    decide +kernel
  refine ⟨(all_put_iff 1 commandJson snapshotJson wiredRun).1 hwired, ?_⟩
  exact Runs.exists_exec (by decide +kernel)

end RaftTimeDB.Node
