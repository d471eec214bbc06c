import RaftTimeDB.ListenerProgress

/-!
# The shard management endpoints

`shard_create`, `shard_add_route` and `shard_remove_route` of `crates/proxy/src/api.rs`, and the lookups
that follow them on the same node (`get_raft`, `route_module`, the first lines of `propose_write`).

* A request is checked (only `shard_create` checks anything), encoded and handed to shard 0's
  `client_write`; the answer is 200 once that returns `Ok`.
* What is committed reaches the pool through the config channel and the listener of `Node`.

Principal results: `routes_exist_iff` — when every module's shard exists; `answers_visible` — when a 200
is visible on the node that gave it.
-/

set_option autoImplicit false

namespace RaftTimeDB.ShardApi

open JsonFormats (commandJson snapshotJson)
open Node (World Label ConfigEvent Progress PoolInv history tagged?)

variable {nodeId : NodeId} {J : CommandJson} {K : SnapshotCodec}

/-! ## Requests -/

inductive ShardRequest where
  | create (shardId : ShardId)
  | addRoute (moduleName : String) (shardId : ShardId)
  | removeRoute (moduleName : String)
  deriving DecidableEq, Repr

namespace ShardRequest

def command : ShardRequest → ShardConfigCommand
  | .create shardId => .createShard shardId
  | .addRoute moduleName shardId => .addRoute moduleName shardId
  | .removeRoute moduleName => .removeRoute moduleName

/-- The answer to a request that is not passed on. -/
def rejection? : ShardRequest → Option (Nat × String)
  | .create shardId => if shardId = 0 then some (400, "shard 0 always exists") else none
  | _ => none

/-- What an endpoint hands to shard 0's `client_write`; nothing if it rejects the request. -/
def payload? (J : CommandJson) (nodeId : NodeId) (req : ShardRequest) : Option ReducerCallRequest :=
  match req.rejection? with
  | some _ => none
  | none => some ⟨encodeShardConfig J req.command, nodeId⟩

/-- The text of the answer 200. -/
def okText : ShardRequest → String
  | .create shardId => "Shard " ++ toString shardId ++ " created"
  | .addRoute moduleName shardId => "Route " ++ moduleName ++ " -> shard " ++ toString shardId ++ " added"
  | .removeRoute moduleName => "Route for " ++ moduleName ++ " removed"

/-- The answer of an endpoint; `err` is the error text of a failed `client_write`. -/
def answer (err : String) (req : ShardRequest) (result : ClientWriteResult) : Nat × String :=
  match req.rejection? with
  | some rejection => rejection
  | none => if result = .ok then (200, req.okText) else (500, err)

end ShardRequest

/-- The commands of the accepted requests, in the order of the log. -/
def acceptedCommands (reqs : List ShardRequest) : List ShardConfigCommand :=
  (reqs.filter fun req => req.rejection?.isNone).map ShardRequest.command

/-- The payloads that the accepted requests put into shard 0's log. -/
def committed (J : CommandJson) (nodeId : NodeId) (reqs : List ShardRequest) : List Bytes :=
  (reqs.filterMap (ShardRequest.payload? J nodeId)).map (·.rawMessage)

/-! ## Routes and shards -/

/-- The shard of the module exists, and `propose_write` finds it. -/
def Served (pool : RaftPool) (name : String) : Prop :=
  (pool.getRaft (pool.routeModule name)).isSome = true ∧
  pool.proposeTarget (pool.routeModule name) = .ok (pool.routeModule name)

/-- Every module's last route leads to shard 0 or to a shard that is created. -/
def Grounded (cmds : List ShardConfigCommand) : Prop :=
  ∀ name shardId, lastTarget cmds name = some shardId → shardId = 0 ∨ shardId ∈ createdOf cmds

/-- Every route is added after its shard is created. -/
def CreatesFirst (cmds : List ShardConfigCommand) : Prop :=
  ∀ before name shardId after, cmds = before ++ .addRoute name shardId :: after →
    shardId = 0 ∨ shardId ∈ createdOf before

/-- The config channel is empty and the listener waits for the next command. -/
def Drained (w : World) : Prop :=
  w.listener = .idle ∧ ∀ g ∈ w.group 0, g.sm.shardConfigTx = some []

theorem served_iff {pool : RaftPool} {name : String} :
    Served pool name ↔ pool.routeModule name ∈ pool.shards := by
  rw [Served, RaftPool.getRaft_isSome, RaftPool.proposeTarget_ok_iff, and_self_iff]

/-- A module's last route was added by some command. -/
theorem exists_addRoute {cmds : List ShardConfigCommand} {name : String} {shardId : ShardId}
    (h : lastTarget cmds name = some shardId) :
    ∃ before after, cmds = before ++ .addRoute name shardId :: after := by
  induction cmds using List.reverseRecOn with
  | nil => cases h
  | append_singleton cmds cmd ih =>
    rw [← routesOf_lookup, routesOf_snoc, applyRoute_lookup, routesOf_lookup] at h
    cases htarget : cmd.target? name with
    | none =>
      rw [htarget, Option.getD_none] at h
      obtain ⟨before, after, rfl⟩ := ih h
      exact ⟨before, after ++ [cmd], by simp⟩
    | some target =>
      rw [htarget, Option.getD_some] at h
      subst h
      refine ⟨cmds, [], ?_⟩
      cases cmd with
      | createShard s => cases htarget
      | addRoute moduleName s =>
        simp only [ShardConfigCommand.target?] at htarget
        split at htarget
        · rename_i hname
          cases htarget
          rw [hname]
        · cases htarget
      | removeRoute moduleName =>
        simp only [ShardConfigCommand.target?] at htarget
        split at htarget <;> cases htarget

theorem CreatesFirst.grounded {cmds finished : List ShardConfigCommand} (h : CreatesFirst cmds)
    (hinit : finished <+: cmds) : Grounded finished := by
  intro name shardId hlast
  obtain ⟨before, after, hsplit⟩ := exists_addRoute hlast
  obtain ⟨rest, hrest⟩ := hinit
  have hcmds : cmds = before ++ .addRoute name shardId :: (after ++ rest) := by
    rw [← hrest, hsplit]
    simp
  refine (h before name shardId _ hcmds).imp_right fun hcreated => ?_
  rw [hsplit, createdOf, List.filterMap_append]
  exact List.mem_append_left _ hcreated

section Listener

variable {cmds finished : List ShardConfigCommand} {w : World} {g : Node.Group}
  {queue : List ShardConfigCommand}

theorem routeModule_eq (h : Progress cmds finished w g queue) (name : String) :
    w.pool.routeModule name = (lastTarget finished name).getD 0 := by
  rw [RaftPool.routeModule, ShardRouter.route, h.router, routesOf_lookup]

/-- Without a failed creation the pool has the shards whose creation the listener is done with. -/
theorem mem_shards_iff (hpool : PoolInv w) (h : Progress cmds finished w g queue)
    (hcreated : w.AllCreated) (shardId : ShardId) :
    shardId ∈ w.pool.shards ↔ shardId = 0 ∨ shardId ∈ createdOf finished := by
  refine ⟨h.pool shardId, ?_⟩
  rintro (rfl | hin)
  · exact hpool.zero
  · rcases h.created shardId hin with hin | hfailed
    · exact hin
    · cases hcreated _ hfailed

/-- Every module is served exactly when the commands the listener is done with are grounded. -/
theorem served_iff_grounded (hpool : PoolInv w) (h : Progress cmds finished w g queue)
    (hcreated : w.AllCreated) : (∀ name, Served w.pool name) ↔ Grounded finished := by
  constructor
  · intro hserved name shardId hlast
    have hin := served_iff.mp (hserved name)
    rw [routeModule_eq h, hlast, Option.getD_some] at hin
    exact h.pool shardId hin
  · intro hgrounded name
    rw [served_iff, routeModule_eq h]
    cases hlast : lastTarget finished name with
    | none => exact hpool.zero
    | some shardId => exact (mem_shards_iff hpool h hcreated shardId).mpr (hgrounded name shardId hlast)

theorem finished_initial (h : Progress cmds finished w g queue) : finished <+: cmds := by
  rw [h.handed, h.split, List.append_assoc]
  exact List.prefix_append _ _

theorem finished_of_drained (h : Progress cmds finished w g queue) (hdrained : Drained w) :
    finished = w.applied := by
  have hqueue := hdrained.2 g h.group
  rw [h.attached, Option.some.injEq] at hqueue
  rw [World.applied, h.group]
  show finished = g.applied
  rw [h.split, hdrained.1, hqueue]
  exact (List.append_nil _).symm

end Listener

/-! ## From requests to commands -/

/-- The command an event of shard 0 carries. -/
def eventCommand? (J : CommandJson) : ConfigEvent → Option ShardConfigCommand
  | .entry raw => decodeShardConfig J raw
  | .snapshot _ => none

theorem commandsOf_eq_tagged (entries : List Entry) :
    commandsOf J entries =
      ((entries.filterMap tagged?).map ConfigEvent.entry).filterMap (eventCommand? J) := by
  rw [commandsOf, List.filterMap_map, List.filterMap_filterMap]
  refine List.filterMap_congr fun entry _ => ?_
  unfold Entry.command? tagged?
  cases entry.payload with
  | blank => rfl
  | membership m => rfl
  | normal request =>
    simp only
    split
    · rfl
    · rename_i htag
      exact decodeShardConfig_untagged htag

/-- The commands shard 0 is given are those of its configuration events. -/
theorem commands_eq_events {l : Label} (h : l.NoInstall) :
    l.commands J = l.configEvents.filterMap (eventCommand? J) := by
  cases l with
  | apply s entries =>
    simp only [Label.commands, Label.configEvents]
    split
    · exact commandsOf_eq_tagged entries
    · rfl
  | install s snap replayOrder encodeOrder =>
    simp only [Label.commands, Label.configEvents, if_neg (show s ≠ 0 from h)]
    rfl
  | _ => rfl

theorem committed_commands (nodeId : NodeId) (hJ : ∀ cmd, J.fromSlice (J.toVec cmd) = some cmd)
    (reqs : List ShardRequest) :
    ((committed J nodeId reqs).map ConfigEvent.entry).filterMap (eventCommand? J) =
      acceptedCommands reqs := by
  have hdecode : ∀ cmd, eventCommand? J (.entry (encodeShardConfig J cmd)) = some cmd := by
    intro cmd
    simp [eventCommand?, decodeShardConfig, encodeShardConfig, hJ]
  induction reqs with
  | nil => rfl
  | cons req reqs ih =>
    cases hreject : req.rejection? with
    | some rejection =>
      have hnone : req.payload? J nodeId = none := by rw [ShardRequest.payload?, hreject]
      rw [committed, List.filterMap_cons_none hnone, acceptedCommands,
        List.filter_cons_of_neg (by simp [hreject])]
      exact ih
    | none =>
      have hsome : req.payload? J nodeId = some ⟨encodeShardConfig J req.command, nodeId⟩ := by
        rw [ShardRequest.payload?, hreject]
      rw [committed, List.filterMap_cons_some hsome, acceptedCommands,
        List.filter_cons_of_pos (by simp [hreject]), List.map_cons, List.map_cons, List.map_cons,
        List.filterMap_cons_some (hdecode req.command)]
      exact congrArg (req.command :: ·) ih

/-- A run whose configuration events are the committed requests hands shard 0 their commands. -/
theorem run_commands (hJ : ∀ cmd, J.fromSlice (J.toVec cmd) = some cmd) {reqs : List ShardRequest}
    {ls : List Label} (h : history ls = (committed J nodeId reqs).map ConfigEvent.entry) :
    (∀ l ∈ ls, l.NoInstall) ∧ ls.flatMap (Label.commands J) = acceptedCommands reqs := by
  have hno : ∀ l ∈ ls, l.NoInstall := by
    intro l hl
    cases l with
    | install s snap replayOrder encodeOrder =>
      rintro rfl
      have hevent : ConfigEvent.snapshot snap.bytes ∈ history ls :=
        List.mem_flatMap.mpr ⟨_, hl, by simp [Label.configEvents]⟩
      rw [h] at hevent
      obtain ⟨raw, -, heq⟩ := List.mem_map.mp hevent
      cases heq
    | _ => trivial
  refine ⟨hno, ?_⟩
  rw [← committed_commands nodeId hJ reqs, ← h, history, List.filterMap_flatMap]
  exact List.flatMap_congr fun l hl => commands_eq_events (hno l hl)

/-- **When routes do not dangle.**  The accepted requests are committed through shard 0 and no creation
fails.  In every state, every module is served exactly when, among the commands the listener is done
with, every module's last route leads to shard 0 or to a shard that is created.  These are all the
commands applied once the config channel is empty and the listener idle.  It is enough that every route
is added after its shard is created. -/
theorem routes_exist_iff (hJ : ∀ cmd, J.fromSlice (J.toVec cmd) = some cmd)
    {reqs : List ShardRequest} {ls : List Label} {w : World}
    (hexec : Runs.exec (Node.step nodeId J K) World.attached ls = some w)
    (hcommitted : history ls = (committed J nodeId reqs).map ConfigEvent.entry)
    (hcreated : w.AllCreated) :
    ((∀ name, Served w.pool name) ↔ Grounded w.finished) ∧
    w.finished <+: acceptedCommands reqs ∧
    (Drained w → w.finished = w.applied) ∧
    (CreatesFirst (acceptedCommands reqs) → ∀ name, Served w.pool name) := by
  obtain ⟨hno, hcmds⟩ := run_commands hJ hcommitted
  have hpool : PoolInv w :=
    Runs.exec_inv (fun _ _ _ hinv h => Node.pool_step hinv h) PoolInv.attached_start hexec
  obtain ⟨finished, g, queue, hprogress⟩ :=
    Node.progress_exec PoolInv.attached_start Progress.attached_start hno hexec
  rw [List.nil_append, hcmds] at hprogress
  have hinit := finished_initial hprogress
  have hiff := served_iff_grounded hpool hprogress hcreated
  rw [hprogress.finished_eq]
  refine ⟨hiff, hinit, fun hdrained => finished_of_drained hprogress hdrained, ?_⟩
  exact fun hfirst => hiff.mpr (hfirst.grounded hinit)

/-- Shard 1 is created and gets a module; a request for shard 0 is rejected. -/
def createThenRoute : List ShardRequest := [.create 0, .create 1, .addRoute "m" 1]

/-- The entry of a request in shard 0's log. -/
def entryOf (index : Nat) (req : ShardRequest) : Entry :=
  ⟨⟨⟨1, 1⟩, index⟩, .normal ⟨encodeShardConfig commandJson req.command, 1⟩⟩

def createThenRouteRun : List Label :=
  List.append (.apply 0 [entryOf 0 (.create 1), entryOf 1 (.addRoute "m" 1)] :: List.replicate 10 (.act 0))
    [.boot, .boot, .receive, .handle, .create true, .wire, .insert, .receive, .handle]

/-- The module is served by its shard, and every other by shard 0. -/
theorem created_route_served :
    ∃ w, Runs.exec (Node.step 1 commandJson snapshotJson) World.attached createThenRouteRun = some w ∧
      w.pool.routeModule "m" = 1 ∧ ∀ name, Served w.pool name := by
  obtain ⟨w, h, hcreated, hroute⟩ : ∃ w,
      Runs.exec (Node.step 1 commandJson snapshotJson) World.attached createThenRouteRun = some w ∧
      (∀ attempt ∈ w.attempts, attempt.2 = true) ∧ w.pool.routeModule "m" = 1 :=
    Runs.exists_exec (by decide +kernel)
  have hhistory : history createThenRouteRun =
      (committed commandJson 1 createThenRoute).map ConfigEvent.entry := by decide +kernel
  have hfirst : CreatesFirst (acceptedCommands createThenRoute) := by
    have hcommands : acceptedCommands createThenRoute = [.createShard 1, .addRoute "m" 1] := by decide
    intro before name shardId after hsplit
    rw [hcommands] at hsplit
    rcases before with _ | ⟨first, _ | ⟨second, before⟩⟩
    · cases hsplit
    · cases hsplit
      exact .inr (List.mem_singleton_self 1)
    · simp at hsplit
  have hserved := routes_exist_iff JsonFormats.command.fromSlice_toVec h hhistory hcreated
  exact ⟨w, h, hroute, hserved.2.2.2 hfirst⟩

/-- A route to shard 5 is committed and carried out. -/
def routeOnlyRun : List Label :=
  List.append (.apply 0 [entryOf 0 (.addRoute "m" 5)] :: List.replicate 6 (.act 0))
    [.boot, .boot, .receive, .handle]

/-- `shard_add_route` accepts a route to shard 5, which nobody has created.  With nothing left to do,
`propose_write` for a client of the module fails. -/
theorem route_without_shard_dangles :
    (∃ w, Runs.exec (Node.step 1 commandJson snapshotJson) World.attached routeOnlyRun = some w ∧
      (∀ attempt ∈ w.attempts, attempt.2 = true) ∧ w.listener = .idle ∧
      (∀ g ∈ w.group 0, g.sm.shardConfigTx = some []) ∧ w.pool.routeModule "m" = 5 ∧
      w.pool.getRaft 5 = none ∧ w.pool.proposeTarget 5 = .error "shard 5 not found") ∧
    history routeOnlyRun =
      (committed commandJson 1 [.addRoute "m" 5]).map ConfigEvent.entry ∧
    ¬ ∀ (nodeId : NodeId) (K : SnapshotCodec) (reqs : List ShardRequest) (ls : List Label) (w : World),
      Runs.exec (Node.step nodeId commandJson K) World.attached ls = some w →
      history ls = (committed commandJson nodeId reqs).map ConfigEvent.entry →
      w.AllCreated → Drained w → ∀ name, Served w.pool name := by
  have hrun : ∃ w, Runs.exec (Node.step 1 commandJson snapshotJson) World.attached routeOnlyRun = some w ∧
      (∀ attempt ∈ w.attempts, attempt.2 = true) ∧ w.listener = .idle ∧
      (∀ g ∈ w.group 0, g.sm.shardConfigTx = some []) ∧ w.pool.routeModule "m" = 5 ∧
      w.pool.getRaft 5 = none ∧ w.pool.proposeTarget 5 = .error "shard 5 not found" :=
    Runs.exists_exec (by decide +kernel)
  have hhistory : history routeOnlyRun =
      (committed commandJson 1 [.addRoute "m" 5]).map ConfigEvent.entry := by decide +kernel
  refine ⟨hrun, hhistory, ?_⟩
  intro hclaim
  obtain ⟨w, h, hcreated, hidle, hqueue, hroute, hraft, -⟩ := hrun
  have hserved := (hclaim 1 snapshotJson _ _ w h hhistory hcreated ⟨hidle, hqueue⟩ "m").1
  rw [hroute, hraft] at hserved
  cases hserved

/-! ## Answers -/

/-- What a command is about: a shard id or a module. -/
def subject : ShardConfigCommand → ShardId ⊕ String
  | .createShard shardId => .inl shardId
  | .addRoute moduleName _ => .inr moduleName
  | .removeRoute moduleName => .inr moduleName

/-- What the answer to a request says of the node. -/
def ShardRequest.Shows (pool : RaftPool) : ShardRequest → Prop
  | .create shardId => (pool.getRaft shardId).isSome = true
  | .addRoute moduleName shardId => pool.routeModule moduleName = shardId
  | .removeRoute moduleName => pool.routeModule moduleName = pool.router.defaultShard

/-- A node and the requests it has answered with 200, each with the place of its command among the
applied ones. -/
structure Frontend where
  node : World
  answered : List (Nat × ShardRequest)

inductive Move where
  | node (l : Label)
  /-- `client_write` has returned `Ok`, so the command has been applied; the endpoint answers -/
  | answer (place : Nat) (req : ShardRequest)

instance : ∀ l : Label, Decidable l.NoInstall
  | .install s _ _ _ => inferInstanceAs (Decidable (s ≠ 0))
  | .boot => isTrue trivial
  | .apply _ _ => isTrue trivial
  | .act _ => isTrue trivial
  | .receive => isTrue trivial
  | .handle => isTrue trivial
  | .create _ => isTrue trivial
  | .wire => isTrue trivial
  | .insert => isTrue trivial
  | .message _ _ => isTrue trivial

/-- A node without snapshots on shard 0, and its endpoints. -/
def serve (nodeId : NodeId) (J : CommandJson) (K : SnapshotCodec) (f : Frontend) :
    Move → Option Frontend
  | .node l =>
      if l.NoInstall then (Node.step nodeId J K f.node l).map fun node => { f with node := node }
      else none
  | .answer place req =>
      if req.rejection? = none ∧ f.node.applied[place]? = some req.command then
        some { f with answered := f.answered ++ [(place, req)] }
      else none

def Frontend.start : Frontend := ⟨World.attached, []⟩

/-- Every request answered with 200 shows on the node, until a later command on the same shard id or
module is applied. -/
def Visible (f : Frontend) : Prop :=
  ∀ place req, (place, req) ∈ f.answered →
    (∀ later cmd, place < later → f.node.applied[later]? = some cmd →
      subject cmd ≠ subject req.command) →
    req.Shows f.node.pool

/-- No attempt to create the shard of a request has failed. -/
def ShardRequest.NotFailed (attempts : List (ShardId × Bool)) : ShardRequest → Prop
  | .create shardId => (shardId, false) ∉ attempts
  | _ => True

/-- An answer is given only when the listener is done with the command, and no creation of its shard has
failed. -/
def AnswersLate (f : Frontend) : Move → Prop
  | .answer place req => place < f.node.finished.length ∧ req.NotFailed f.node.attempts
  | .node _ => True

instance (attempts : List (ShardId × Bool)) : ∀ req : ShardRequest, Decidable (req.NotFailed attempts)
  | .create shardId => inferInstanceAs (Decidable ((shardId, false) ∉ attempts))
  | .addRoute _ _ => isTrue trivial
  | .removeRoute _ => isTrue trivial

instance (f : Frontend) : ∀ m, Decidable (AnswersLate f m)
  | .answer place req =>
      inferInstanceAs (Decidable (place < f.node.finished.length ∧ req.NotFailed f.node.attempts))
  | .node _ => isTrue trivial

/-- The answered requests are among those the listener is done with, and their shards are in the map. -/
structure Kept (f : Frontend) (cmds finished : List ShardConfigCommand) (g : Node.Group)
    (queue : List ShardConfigCommand) : Prop where
  pool : PoolInv f.node
  progress : Progress cmds finished f.node g queue
  done : ∀ place req, (place, req) ∈ f.answered → finished[place]? = some req.command
  shard : ∀ place shardId, (place, .create shardId) ∈ f.answered → shardId ∈ f.node.pool.shards

/-- The last command of a list that names a module decides its target. -/
theorem lastTarget_of_getElem? {cmds : List ShardConfigCommand} {place : Nat}
    {cmd : ShardConfigCommand} {name : String} {target : Option ShardId}
    (hcmd : cmds[place]? = some cmd) (htarget : cmd.target? name = some target)
    (hlater : ∀ later cmd', place < later → cmds[later]? = some cmd' → cmd'.target? name = none) :
    lastTarget cmds name = target := by
  obtain ⟨hlt, hget⟩ := List.getElem?_eq_some_iff.mp hcmd
  have hsplit : cmds = cmds.take place ++ cmd :: cmds.drop (place + 1) := by
    rw [← hget, List.getElem_cons_drop, List.take_append_drop]
  have hnone : (cmds.drop (place + 1)).filterMap (ShardConfigCommand.target? name) = [] := by
    rw [List.filterMap_eq_nil_iff]
    intro cmd' hmem
    obtain ⟨k, hk⟩ := List.mem_iff_getElem?.mp hmem
    rw [List.getElem?_drop] at hk
    exact hlater _ cmd' (by omega) hk
  rw [lastTarget, hsplit, List.filterMap_append, List.filterMap_cons_some htarget, hnone]
  simp

theorem target?_none_of_subject {cmd : ShardConfigCommand} {name : String}
    (h : subject cmd ≠ .inr name) : cmd.target? name = none := by
  cases cmd with
  | createShard s => rfl
  | addRoute moduleName s =>
    have hne : moduleName ≠ name := fun heq => h (by rw [subject, heq])
    simp [ShardConfigCommand.target?, hne]
  | removeRoute moduleName =>
    have hne : moduleName ≠ name := fun heq => h (by rw [subject, heq])
    simp [ShardConfigCommand.target?, hne]

section Kept

variable {f f' : Frontend} {cmds finished : List ShardConfigCommand} {g : Node.Group}
  {queue : List ShardConfigCommand}

theorem Kept.visible (h : Kept f cmds finished g queue) : Visible f := by
  intro place req hin hlater
  have hcmd := h.done place req hin
  -- the listener's commands come first among the applied ones
  have hinit : finished <+: f.node.applied := by
    rw [← h.progress.finished_eq]
    exact List.take_prefix _ _
  have hroute : ∀ name target, req.command.target? name = some target →
      subject req.command = .inr name → f.node.pool.routeModule name = target.getD 0 := by
    intro name target htarget hsubject
    rw [routeModule_eq h.progress, lastTarget_of_getElem? hcmd htarget]
    intro later cmd' hlt hcmd'
    refine target?_none_of_subject ?_
    rw [← hsubject]
    exact hlater later cmd' hlt (Lists.getElem?_of_initial hinit hcmd')
  cases req with
  | create shardId => exact RaftPool.getRaft_isSome.mpr (h.shard place shardId hin)
  | addRoute moduleName shardId =>
    exact hroute moduleName (some shardId) (by simp [ShardRequest.command, ShardConfigCommand.target?]) rfl
  | removeRoute moduleName =>
    have hdefault : f.node.pool.router.defaultShard = 0 := by rw [h.progress.router]
    rw [ShardRequest.Shows, hdefault]
    exact hroute moduleName none (by simp [ShardRequest.command, ShardConfigCommand.target?]) rfl

/-- **Every move that answers late keeps the answers.** -/
theorem kept_step {m : Move} (h : Kept f cmds finished g queue) (hm : AnswersLate f m)
    (hstep : serve nodeId J K f m = some f') :
    ∃ cmds' finished' g' queue', Kept f' cmds' finished' g' queue' := by
  cases m with
  | node l =>
    simp only [serve] at hstep
    split at hstep
    · rename_i hl
      obtain ⟨node, hnode, rfl⟩ := Option.map_eq_some_iff.mp hstep
      obtain ⟨finished', g', queue', hinit, hprogress⟩ :=
        Node.progress_step h.pool h.progress hl hnode
      refine ⟨_, finished', g', queue', Node.pool_step h.pool hnode, hprogress, ?_, ?_⟩
      · intro place req hin
        exact Lists.getElem?_of_initial hinit (h.done place req hin)
      · intro place shardId hin
        exact Node.step_shards hnode (h.shard place shardId hin)
    · cases hstep
  | answer place req =>
    simp only [serve] at hstep
    split at hstep
    · rename_i hguard
      cases hstep
      -- the command is one the listener is done with
      have hcmd : finished[place]? = some req.command := by
        have hlt := hm.1
        rw [← h.progress.finished_eq, Node.World.finished, List.getElem?_take]
        rw [Node.World.finished, List.length_take] at hlt
        rw [if_pos (by omega)]
        exact hguard.2
      refine ⟨cmds, finished, g, queue, h.pool, h.progress, ?_, ?_⟩
      · intro place' req' hin
        rcases List.mem_append.mp hin with hin | hin
        · exact h.done place' req' hin
        · cases List.mem_singleton.mp hin
          exact hcmd
      · intro place' shardId hin
        rcases List.mem_append.mp hin with hin | hin
        · exact h.shard place' shardId hin
        · obtain ⟨rfl, rfl⟩ := Prod.mk.inj (List.mem_singleton.mp hin)
          have hcreated : shardId ∈ createdOf finished :=
            List.mem_filterMap.mpr ⟨_, List.mem_of_getElem? hcmd, rfl⟩
          exact (h.progress.created shardId hcreated).resolve_right hm.2
    · cases hstep

end Kept

/-- **When a successful answer is visible.**  In every run in which each answer is given only when the
listener is done with the command, and no creation of its shard has failed, every answer shows on the
node in every state, until a later command on the same shard id or module is applied. -/
theorem answers_visible {moves : List Move}
    (hlate : Runs.Along (serve nodeId J K) AnswersLate Frontend.start moves) :
    Runs.Throughout (serve nodeId J K) Visible Frontend.start moves := by
  have hkept : Runs.Throughout (serve nodeId J K)
      (fun f => ∃ cmds finished g queue, Kept f cmds finished g queue) Frontend.start moves := by
    refine Runs.throughout_of_along ?_ ?_ hlate
    · rintro f m f' ⟨cmds, finished, g, queue, h⟩ hm hstep
      exact kept_step h hm hstep
    · exact ⟨[], [], _, [], PoolInv.attached_start, Progress.attached_start, fun _ _ h => (by cases h),
        fun _ _ h => (by cases h)⟩
  refine hkept.imp ?_
  rintro f ⟨cmds, finished, g, queue, h⟩
  exact h.visible

/-- The entry of a request is applied on shard 0. -/
def applyRun (index : Nat) (req : ShardRequest) : List Label :=
  .apply 0 [entryOf index req] :: List.replicate 6 (.act 0)

/-- The listener is started, takes a creation and carries it out, or fails to. -/
def createRun (ok : Bool) : List Label :=
  [.boot, .boot, .receive, .handle, .create ok] ++ if ok then [.wire, .insert] else []

/-- Shard 1 is created and, when that is carried out, answered; then a route to it. -/
def patientMoves : List Move :=
  List.append ((applyRun 0 (.create 1) ++ createRun true).map Move.node)
    (.answer 0 (.create 1) ::
      List.append ((applyRun 1 (.addRoute "m" 1) ++ [Label.receive, Label.handle]).map Move.node)
        [.answer 1 (.addRoute "m" 1)])

/-- Both answers show. -/
theorem patient_answers_show :
    ∃ f, Runs.exec (serve 1 commandJson snapshotJson) Frontend.start patientMoves = some f ∧
      (f.node.pool.getRaft 1).isSome = true ∧ f.node.pool.routeModule "m" = 1 := by
  obtain ⟨f, h, happlied, hanswered⟩ : ∃ f,
      Runs.exec (serve 1 commandJson snapshotJson) Frontend.start patientMoves = some f ∧
      f.node.applied = [.createShard 1, .addRoute "m" 1] ∧
      f.answered = [(0, .create 1), (1, .addRoute "m" 1)] := Runs.exists_exec (by decide +kernel)
  have hlate : Runs.Along (serve 1 commandJson snapshotJson) AnswersLate Frontend.start patientMoves := by
    decide +kernel
  have hvisible : Visible f :=
    Runs.throughout_iff_forall.mp (answers_visible hlate) patientMoves [] f (by simp) h
  have hlater : ∀ (later : Nat) (cmd : ShardConfigCommand), 0 < later →
      f.node.applied[later]? = some cmd → cmd = .addRoute "m" 1 ∧ later = 1 := by
    rw [happlied]
    intro later cmd hlt hcmd
    rcases later with _ | _ | later
    · exact absurd hlt (Nat.lt_irrefl 0)
    · exact ⟨(Option.some.inj hcmd).symm, rfl⟩
    · cases hcmd
  refine ⟨f, h, hvisible 0 (.create 1) (by rw [hanswered]; decide) ?_,
    hvisible 1 (.addRoute "m" 1) (by rw [hanswered]; decide) ?_⟩
  · intro later cmd hlt hcmd
    rw [(hlater later cmd hlt hcmd).1]
    decide
  · intro later cmd hlt hcmd
    have hone := (hlater later cmd (by omega) hcmd).2
    omega

/-- Shard 1 is created: its command is applied, the call of `apply` has returned, and the endpoint
answers. -/
def promptMoves : List Move :=
  List.append ((applyRun 0 (.create 1)).map Move.node) [.answer 0 (.create 1)]

/-- The same answer after the listener has tried and failed. -/
def failedMoves : List Move :=
  List.append ((applyRun 0 (.create 1) ++ createRun false).map Move.node) [.answer 0 (.create 1)]

/-- In both cases "Shard 1 created" has been answered and the node has no shard 1; after the failure it
never gets one. -/
theorem prompt_answer_invisible :
    (∃ f, Runs.exec (serve 1 commandJson snapshotJson) Frontend.start promptMoves = some f ∧
      f.answered = [(0, .create 1)] ∧ f.node.applied = [.createShard 1] ∧
      (∀ g ∈ f.node.group 0, g.todo = []) ∧ f.node.pool.getRaft 1 = none) ∧
    (∃ f, Runs.exec (serve 1 commandJson snapshotJson) Frontend.start failedMoves = some f ∧
      f.answered = [(0, .create 1)] ∧ f.node.finished = [.createShard 1] ∧
      f.node.pool.getRaft 1 = none) ∧
    ShardRequest.answer "" (.create 1) .ok = (200, "Shard 1 created") ∧
    ¬ ∀ (nodeId : NodeId) (J : CommandJson) (K : SnapshotCodec) (moves : List Move),
      Runs.Throughout (serve nodeId J K) Visible Frontend.start moves := by
  have hprompt : ∃ f,
      Runs.exec (serve 1 commandJson snapshotJson) Frontend.start promptMoves = some f ∧
      f.answered = [(0, .create 1)] ∧ f.node.applied = [.createShard 1] ∧
      (∀ g ∈ f.node.group 0, g.todo = []) ∧ f.node.pool.getRaft 1 = none :=
    Runs.exists_exec (by decide +kernel)
  have hfailed : ∃ f,
      Runs.exec (serve 1 commandJson snapshotJson) Frontend.start failedMoves = some f ∧
      f.answered = [(0, .create 1)] ∧ f.node.finished = [.createShard 1] ∧
      f.node.pool.getRaft 1 = none := Runs.exists_exec (by decide +kernel)
  refine ⟨hprompt, hfailed, by decide, ?_⟩
  intro hclaim
  obtain ⟨f, h, hanswered, happlied, -, hraft⟩ := hprompt
  have hvisible : Visible f :=
    Runs.throughout_iff_forall.mp (hclaim 1 commandJson snapshotJson promptMoves) promptMoves [] f
      (by simp) h
  have hshows := hvisible 0 (.create 1) (by rw [hanswered]; decide) (by
    rw [happlied]
    intro later cmd hlt hcmd
    rcases later with _ | later
    · exact absurd hlt (Nat.lt_irrefl 0)
    · cases hcmd)
  rw [ShardRequest.Shows, hraft] at hshows
  cases hshows

end RaftTimeDB.ShardApi
