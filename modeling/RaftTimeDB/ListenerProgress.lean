import RaftTimeDB.Isolation

/-!
# How far the listener has come

The config commands that shard 0's entries carry go through the config channel one by one: those the
listener is done with, the one in its hand, those in the channel.  The pool is what the first of these
make of it.

* `World.applied` — the commands of the entries applied on shard 0 so far, in log order.
* `Progress` — the commands the listener is done with, and what they have left in the pool.  A shard
  whose creation failed is missing there.

Principal result: `progress_step` — every move keeps track; the commands the listener is done with only
get more.  Snapshots installed on shard 0 are left out: they send commands no entry carries.
-/

set_option autoImplicit false

namespace RaftTimeDB.Node

variable {nodeId : NodeId} {J : CommandJson} {K : SnapshotCodec}

/-! ## Applied commands -/

def Posted.config? : Posted → Option ShardConfigCommand
  | .config cmd => some cmd
  | .forward _ => none

def Group.applied (g : Group) : List ShardConfigCommand := g.due.filterMap Posted.config?

/-- The config commands of the entries applied on shard 0. -/
def World.applied (w : World) : List ShardConfigCommand :=
  match w.group 0 with
  | some g => g.applied
  | none => []

/-- The command of the entry a section applies. -/
def Action.applied? : Action → Option ShardConfigCommand
  | .dispatch cmd _ => some cmd
  | _ => none

/-- The sections of an `apply` call: what is sent is the command of an entry, and the call has cloned the
sender by then. -/
def Applying : Bool → List Action → Prop
  | _, [] => True
  | tx, a :: as =>
      (a.command? = a.applied? ∧ (a.command?.isSome = true → tx = true)) ∧ Applying (a.onTx tx) as

theorem applying_of_forall {as : List Action} (h : ∀ a ∈ as, a.command? = a.applied?) :
    Applying true as := by
  induction as with
  | nil => trivial
  | cons a as ih =>
    have htx : a.onTx true = true := by cases a <;> rfl
    refine ⟨⟨h a List.mem_cons_self, fun _ => rfl⟩, ?_⟩
    rw [htx]
    exact ih fun b hb => h b (List.mem_cons_of_mem _ hb)

theorem command?_entryActions (entry : Entry) :
    ∀ a ∈ entryActions J entry, a.command? = a.applied? := by
  unfold entryActions
  cases entry.payload with
  | blank => simp [Action.command?, Action.applied?]
  | membership m => simp [Action.command?, Action.applied?]
  | normal request =>
    simp only [requestActions]
    split
    · cases decodeShardConfig J request.rawMessage <;> simp [Action.command?, Action.applied?]
    · simp [Action.command?, Action.applied?]

theorem applying_apply (tx : Bool) (entries : List Entry) : Applying tx (applyActions J entries) := by
  refine ⟨⟨rfl, nofun⟩, ⟨rfl, nofun⟩, applying_of_forall ?_⟩
  intro a ha
  obtain ⟨entry, -, ha⟩ := List.mem_flatMap.mp ha
  exact command?_entryActions entry a ha

/-- While a call of `apply` runs, what it sends is what it applies. -/
theorem Applying.sends {tx : Bool} {as : List Action} (h : Applying tx as) :
    sends tx as = as.filterMap Action.applied? := by
  induction as generalizing tx with
  | nil => rfl
  | cons a as ih =>
    obtain ⟨⟨hcmd, htx⟩, hrest⟩ := h
    rw [Node.sends, ih hrest]
    cases happlied : a.applied? with
    | none =>
      rw [hcmd, happlied, List.filterMap_cons_none happlied]
      cases tx <;> rfl
    | some cmd =>
      rw [happlied] at hcmd
      rw [htx (by rw [hcmd]; rfl), hcmd, List.filterMap_cons_some happlied]
      rfl

theorem act_applied (g : Group) (a : Action) :
    (g.act 0 a).applied = g.applied ++ a.applied?.toList := by
  cases a with
  | dispatch cmd msg => simp [Group.act, Group.applied, Action.applied?, expected, Posted.config?]
  | skip msg => simp [Group.act, Group.applied, Action.applied?, expected, Posted.config?]
  | forward msg => simp [Group.act, Group.applied, Action.applied?, expected, Posted.config?]
  | _ => simp [Group.act, Group.setInner, Group.applied, Action.applied?]

/-! ## The listener -/

/-- The command the listener is working on. -/
def ListenerPc.inHand : ListenerPc → List ShardConfigCommand
  | .idle => []
  | .handling cmd => [cmd]
  | .creating s => [.createShard s]
  | .wiring s => [.createShard s]
  | .inserting s => [.createShard s]

/-- The commands a label hands to shard 0. -/
def Label.commands (J : CommandJson) : Label → List ShardConfigCommand
  | .apply s entries => if s = 0 then commandsOf J entries else []
  | _ => []

/-- No snapshot is installed on shard 0. -/
def Label.NoInstall : Label → Prop
  | .install s _ _ _ => s ≠ 0
  | _ => True

/-- Shard 0 was given the commands `cmds`, and the listener is done with `finished`. -/
structure Progress (cmds finished : List ShardConfigCommand) (w : World) (g : Group)
    (queue : List ShardConfigCommand) : Prop where
  booted : w.boot ≠ .fresh ∧ w.boot ≠ .created
  group : w.group 0 = some g
  attached : g.sm.shardConfigTx = some queue
  applying : Applying g.configTx g.todo
  handed : cmds = g.applied ++ g.todo.filterMap Action.applied?
  split : g.applied = finished ++ (w.listener.inHand ++ queue)
  router : w.pool.router = ⟨routesOf finished, 0⟩
  created : ∀ s ∈ createdOf finished, s ∈ w.pool.shards ∨ (s, false) ∈ w.attempts
  pool : ∀ s ∈ w.pool.shards, s = 0 ∨ s ∈ createdOf finished

section

variable {cmds finished : List ShardConfigCommand} {w w' : World} {g : Group}
  {queue : List ShardConfigCommand}

/-- Moves that leave shard 0 and the pool alone, and the listener with what it has in hand. -/
theorem Progress.of_eq (h : Progress cmds finished w g queue)
    (hboot : w'.boot ≠ .fresh ∧ w'.boot ≠ .created) (hgroup : w'.group 0 = w.group 0)
    (hpool : w'.pool = w.pool) (hhand : w'.listener.inHand = w.listener.inHand)
    (hattempts : ∀ attempt ∈ w.attempts, attempt ∈ w'.attempts) :
    Progress cmds finished w' g queue where
  booted := hboot
  group := hgroup.trans h.group
  attached := h.attached
  applying := h.applying
  handed := h.handed
  split := by rw [hhand]; exact h.split
  router := by rw [hpool]; exact h.router
  created s hs := by
    rw [hpool]
    exact (h.created s hs).imp_right (hattempts _)
  pool := by rw [hpool]; exact h.pool

/-- **The listener is done with its command.** -/
theorem Progress.finish (h : Progress cmds finished w g queue) {cmd : ShardConfigCommand}
    (hboot : w'.boot = w.boot) (hgroup : w'.group 0 = w.group 0)
    (hhand : w.listener.inHand = [cmd]) (hidle : w'.listener = .idle)
    (hrouter : w'.pool.router = ⟨cmd.applyRoute w.pool.router.routes, w.pool.router.defaultShard⟩)
    (hshards : ∀ s, s ∈ w.pool.shards → s ∈ w'.pool.shards)
    (hattempts : ∀ attempt ∈ w.attempts, attempt ∈ w'.attempts)
    (hcreated : ∀ s, cmd.created? = some s → s ∈ w'.pool.shards ∨ (s, false) ∈ w'.attempts)
    (hnew : ∀ s ∈ w'.pool.shards, s ∈ w.pool.shards ∨ cmd.created? = some s) :
    Progress cmds (finished ++ [cmd]) w' g queue where
  booted := by rw [hboot]; exact h.booted
  group := hgroup.trans h.group
  attached := h.attached
  applying := h.applying
  handed := h.handed
  split := by
    rw [h.split, hhand, hidle, List.append_assoc]
    rfl
  router := by rw [hrouter, h.router, routesOf_snoc]
  created s hs := by
    rw [createdOf, List.filterMap_append, List.mem_append] at hs
    rcases hs with hs | hs
    · exact (h.created s hs).imp (hshards s) (hattempts _)
    · exact hcreated s (by simpa using hs)
  pool s hs := by
    rw [createdOf, List.filterMap_append, List.mem_append]
    rcases hnew s hs with hs | hs
    · exact (h.pool s hs).imp_right .inl
    · exact .inr (.inr (by simpa using hs))

/-- **A section of a call on shard 0.** -/
theorem Progress.act (h : Progress cmds finished w g queue) {a : Action} {rest : List Action}
    (htodo : g.todo = a :: rest) :
    ∃ queue', Progress cmds finished (w.setGroup 0 (Group.act 0 { g with todo := rest } a))
      (Group.act 0 { g with todo := rest } a) queue' := by
  obtain ⟨htx, hqueue⟩ := act_queue 0 (g := { g with todo := rest }) h.attached a
  simp only at htx hqueue
  have happlying := h.applying
  rw [htodo] at happlying
  obtain ⟨⟨hcmd, hcloned⟩, hrest⟩ := happlying
  have hsent : (if g.configTx then a.command?.toList else []) = a.applied?.toList := by
    rw [← hcmd]
    cases hsome : a.command? with
    | none => cases g.configTx <;> rfl
    | some cmd => rw [if_pos (hcloned (by rw [hsome]; rfl))]
  have happlied := act_applied { g with todo := rest } a
  refine ⟨_, ⟨h.booted, setGroup_self w 0 _, hqueue, ?_, ?_, ?_, h.router, h.created, h.pool⟩⟩
  · rw [htx, act_todo]
    exact hrest
  · rw [happlied, act_todo, h.handed, htodo]
    cases hsome : a.applied? <;> simp [Group.applied, hsome]
  · rw [happlied, hsent]
    show g.applied ++ a.applied?.toList = finished ++ (w.listener.inHand ++ (queue ++ a.applied?.toList))
    rw [h.split]
    simp only [List.append_assoc]

/-- **openraft calls `apply` on shard 0.** -/
theorem Progress.call (h : Progress cmds finished w g queue) (hidle : g.todo = [])
    (entries : List Entry) :
    Progress (cmds ++ commandsOf J entries) finished
      (w.setGroup 0 { g with todo := applyActions J entries })
      { g with todo := applyActions J entries } queue := by
  have happlying : Applying g.configTx (applyActions J entries) := applying_apply g.configTx entries
  have hhanded := h.handed
  rw [hidle, List.filterMap_nil, List.append_nil] at hhanded
  refine ⟨h.booted, setGroup_self w 0 _, h.attached, happlying, ?_, h.split, h.router, h.created, h.pool⟩
  show cmds ++ commandsOf J entries = g.applied ++ (applyActions J entries).filterMap Action.applied?
  rw [← happlying.sends, sends_apply, hhanded]

/-- **Every move keeps track of the listener.** -/
theorem progress_step {l : Label} (hpool : PoolInv w) (h : Progress cmds finished w g queue)
    (hl : l.NoInstall) (hstep : step nodeId J K w l = some w') :
    ∃ finished' g' queue', finished <+: finished' ∧
      Progress (cmds ++ l.commands J) finished' w' g' queue' := by
  -- moves that hand nothing to shard 0 and leave the listener with what it has
  have hkeep : ∀ {w'' : World} {g' : Group} {queue' : List ShardConfigCommand},
      Progress cmds finished w'' g' queue' → l.commands J = [] →
      ∃ finished' g' queue', finished <+: finished' ∧
        Progress (cmds ++ l.commands J) finished' w'' g' queue' := by
    intro w'' g' queue' hprogress hnone
    rw [hnone, List.append_nil]
    exact ⟨finished, g', queue', List.prefix_rfl, hprogress⟩
  have hsame : ∀ attempt ∈ w.attempts, attempt ∈ w.attempts := fun _ h => h
  cases step_effect hstep with
  | bootCreate hboot => exact absurd hboot h.booted.1
  | bootConfig hboot hg => exact absurd hboot h.booted.2
  | bootForwarder hboot hg =>
    rw [h.group, Option.some.injEq] at hg
    subst hg
    exact hkeep ⟨⟨nofun, nofun⟩, setGroup_self w 0 _, h.attached, h.applying, h.handed, h.split,
      h.router, h.created, h.pool⟩ rfl
  | bootListener hboot => exact hkeep (h.of_eq ⟨nofun, nofun⟩ rfl rfl rfl hsame) rfl
  | call hcall horder hg hidle =>
    rename_i s actions g'
    cases l with
    | apply s' entries =>
      simp only [Label.call?, Option.some.injEq, Prod.mk.injEq] at hcall
      obtain ⟨rfl, rfl⟩ := hcall
      by_cases hs : s' = 0
      · subst hs
        rw [h.group, Option.some.injEq] at hg
        subst hg
        rw [Label.commands, if_pos rfl]
        exact ⟨finished, _, queue, List.prefix_rfl, h.call hidle entries⟩
      · exact hkeep (h.of_eq h.booted (setGroup_of_ne w (Ne.symm hs) _) rfl rfl hsame) (if_neg hs)
    | install s' snap replayOrder encodeOrder =>
      simp only [Label.call?, Option.some.injEq, Prod.mk.injEq] at hcall
      obtain ⟨rfl, rfl⟩ := hcall
      exact hkeep (h.of_eq h.booted (setGroup_of_ne w (Ne.symm hl) _) rfl rfl hsame) rfl
    | _ => cases hcall
  | act hg htodo =>
    rename_i s g' a rest
    by_cases hs : s = 0
    · subst hs
      rw [h.group, Option.some.injEq] at hg
      subst hg
      obtain ⟨queue', hact⟩ := h.act htodo
      exact hkeep hact rfl
    · exact hkeep (h.of_eq h.booted (setGroup_of_ne w (Ne.symm hs) _) rfl rfl hsame) rfl
  | receive hboot hidle hg hqueue =>
    rename_i g' cmd rest
    rw [h.group, Option.some.injEq] at hg
    subst hg
    rw [h.attached, Option.some.injEq] at hqueue
    subst hqueue
    have hsplit := h.split
    rw [hidle] at hsplit
    exact hkeep ⟨h.booted, setGroup_self w 0 _, rfl, h.applying, h.handed, hsplit, h.router,
      h.created, h.pool⟩ rfl
  | absent hlistener hs =>
    exact hkeep (h.of_eq h.booted rfl rfl (by rw [hlistener]; rfl) hsame) rfl
  | createOk hlistener =>
    have hne := hpool.ne_zero (Or.inr hlistener)
    exact hkeep (h.of_eq h.booted (setGroup_of_ne w hne _) rfl (by rw [hlistener]; rfl)
      fun attempt hin => List.mem_append_left _ hin) rfl
  | wire hlistener hg =>
    rename_i s g'
    have hne := hpool.ne_zero (s := s) (Or.inl (by rw [hlistener]; rfl))
    exact hkeep (h.of_eq h.booted (setGroup_of_ne w hne _) rfl (by rw [hlistener]; rfl) hsame) rfl
  | propose hboot hwrite => exact hkeep (h.of_eq h.booted rfl rfl rfl hsame) rfl
  | pass => exact hkeep h rfl
  -- the moves with which the listener is done with a command
  | present hlistener hs =>
    rename_i s
    refine ⟨finished ++ [.createShard s], g, queue, List.prefix_append _ _, ?_⟩
    rw [show Label.commands J .handle = [] from rfl, List.append_nil]
    refine h.finish rfl rfl (by rw [hlistener]; rfl) rfl rfl (fun _ hin => hin) hsame ?_
      fun _ hin => .inl hin
    intro t ht
    cases ht
    exact .inl hs
  | route hlistener hcmd =>
    rename_i cmd
    refine ⟨finished ++ [cmd], g, queue, List.prefix_append _ _, ?_⟩
    rw [show Label.commands J .handle = [] from rfl, List.append_nil]
    have hshards := RaftPool.handleShardConfig_shards hcmd true w.pool
    refine h.finish rfl rfl (by rw [hlistener]; rfl) rfl ?_ ?_ hsame ?_ ?_
    · rw [← RaftPool.handleShardConfig_routes true, ← RaftPool.handleShardConfig_defaultShard true]
    · intro s hs
      rw [hshards]
      exact hs
    · intro s hs
      rw [hcmd] at hs
      cases hs
    · intro s hs
      rw [hshards] at hs
      exact .inl hs
  | createFail hlistener =>
    rename_i s
    refine ⟨finished ++ [.createShard s], g, queue, List.prefix_append _ _, ?_⟩
    rw [show Label.commands J (.create false) = [] from rfl, List.append_nil]
    refine h.finish rfl rfl (by rw [hlistener]; rfl) rfl rfl (fun _ hin => hin) ?_ ?_
      fun _ hin => .inl hin
    · exact fun attempt hin => List.mem_append_left _ hin
    · intro t ht
      cases ht
      exact .inr (List.mem_append_right _ (List.mem_singleton_self _))
  | insert hlistener =>
    rename_i s
    refine ⟨finished ++ [.createShard s], g, queue, List.prefix_append _ _, ?_⟩
    rw [show Label.commands J .insert = [] from rfl, List.append_nil]
    refine h.finish rfl rfl (by rw [hlistener]; rfl) rfl ?_ ?_ hsame ?_ ?_
    · show (insertShard w.pool s).router = w.pool.router
      unfold insertShard
      split <;> rfl
    · exact fun t ht => mem_insertShard.mpr (.inl ht)
    · intro t ht
      cases ht
      exact .inl (mem_insertShard.mpr (.inr rfl))
    · intro t ht
      rcases mem_insertShard.mp ht with ht | rfl
      · exact .inl ht
      · exact .inr rfl

end

/-! ## Whole runs -/

/-- The number of applied commands the listener is not done with. -/
def World.unfinished (w : World) : Nat :=
  w.listener.inHand.length +
    match w.group 0 with
    | some g => (g.sm.shardConfigTx.getD []).length
    | none => 0

/-- The commands the listener is done with. -/
def World.finished (w : World) : List ShardConfigCommand :=
  w.applied.take (w.applied.length - w.unfinished)

theorem Progress.finished_eq {cmds finished : List ShardConfigCommand} {w : World} {g : Group}
    {queue : List ShardConfigCommand} (h : Progress cmds finished w g queue) :
    w.finished = finished := by
  have happlied : w.applied = finished ++ (w.listener.inHand ++ queue) := by
    rw [World.applied, h.group]
    exact h.split
  have hunfinished : w.unfinished = (w.listener.inHand ++ queue).length := by
    rw [World.unfinished, h.group]
    show w.listener.inHand.length + (g.sm.shardConfigTx.getD []).length = _
    rw [h.attached, List.length_append, Option.getD_some]
  rw [World.finished, happlied, hunfinished, List.length_append, Nat.add_sub_cancel]
  exact List.take_left

/-- The starting point: nothing has been applied. -/
theorem Progress.attached_start : Progress [] [] World.attached
    { Group.new with sm := StateMachineStore.new.setShardConfigTx } [] where
  booted := ⟨nofun, nofun⟩
  group := setGroup_self World.start 0 _
  attached := rfl
  applying := trivial
  handed := rfl
  split := rfl
  router := rfl
  created s hs := by cases hs
  pool s hs := .inl (List.mem_singleton.mp hs)

theorem PoolInv.attached_start : PoolInv World.attached := by
  have hboot : Runs.exec (step 0 JsonFormats.commandJson JsonFormats.snapshotJson) World.start
      [.boot, .boot] = some World.attached := exec_attached
  exact Runs.exec_inv (fun _ _ _ hinv h => pool_step hinv h) PoolInv.start hboot

/-- **A whole run keeps track of the listener.** -/
theorem progress_exec : ∀ {ls : List Label} {cmds finished : List ShardConfigCommand} {w w' : World}
    {g : Group} {queue : List ShardConfigCommand}, PoolInv w → Progress cmds finished w g queue →
    (∀ l ∈ ls, l.NoInstall) → Runs.exec (step nodeId J K) w ls = some w' →
    ∃ finished' g' queue', Progress (cmds ++ ls.flatMap (Label.commands J)) finished' w' g' queue'
  | [], cmds, finished, w, w', g, queue, _, h, _, hexec => by
    simp only [Runs.exec_nil, Option.some.injEq] at hexec
    subst hexec
    rw [List.flatMap_nil, List.append_nil]
    exact ⟨finished, g, queue, h⟩
  | l :: ls, cmds, finished, w, w', g, queue, hpool, h, hno, hexec => by
    obtain ⟨t, ht, hrest⟩ := Runs.exec_cons_some.mp hexec
    obtain ⟨finished', g', queue', -, hnext⟩ := progress_step hpool h (hno l List.mem_cons_self) ht
    rw [List.flatMap_cons, ← List.append_assoc]
    exact progress_exec (pool_step hpool ht) hnext
      (fun l' hl' => hno l' (List.mem_cons_of_mem _ hl')) hrest

end RaftTimeDB.Node
