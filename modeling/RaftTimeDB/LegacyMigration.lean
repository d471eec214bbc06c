import RaftTimeDB.Lib.Runs
import RaftTimeDB.StoreRefinement

/-!
# Opening stores and the legacy migration

`PersistentLogStore::new`, one file operation at a time.  Older versions kept the log of shard 0 in
`{data_dir}/raft-log.redb`; opening shard 0 moves that file to `{data_dir}/shard-0/raft-log.redb`.

* The disk has the legacy file and the subdirectories of the data directory by name, each with or
  without a `raft-log.redb`.  A data directory that does not exist yet is one with nothing in it.
* `std::fs::rename` takes effect at once and replaces a file at its target, `create_dir_all` leaves an
  existing directory alone, and `Database::create` leaves an existing file alone.
* Calls for any shards follow one another.  A crash may come between any two operations, and every
  operation whose error the source returns may fail; `open_table` may fail too, and the source goes on.
* `World.opened` records the calls that returned a store, with the rows it holds.

Principal results: `exec_new` — a call without faults is `DataDir.openStore`; `step_change` — all an
operation can do to the disk; `migration_safe` — over any sequence of calls, crashes and failures, the
stores hold what the initial files held, and nothing is overwritten or lost.
-/

set_option autoImplicit false

namespace RaftTimeDB.LegacyMigration

/-! ## Databases -/

/-- A redb file.  A table that has not been made yet is `none`. -/
structure Database where
  logTable : Option (Table Bytes)
  metaTable : Option (Finmap (fun _ : String => Bytes))

namespace Database

/-- What `Database::create` makes where there is no file. -/
def empty : Database := ⟨none, none⟩

/-- The rows of a database. -/
def store (db : Database) : PersistentLogStore :=
  ⟨db.logTable.getD Table.empty, db.metaTable.getD ∅⟩

/-- `open_table` at `LOG_TABLE` and `META_TABLE`, each of which makes the table if it is missing. -/
def openTables (logOk metaOk : Bool) (db : Database) : Database where
  logTable := if logOk then some (db.logTable.getD Table.empty) else db.logTable
  metaTable := if metaOk then some (db.metaTable.getD ∅) else db.metaTable

@[simp] theorem store_empty : empty.store = PersistentLogStore.new := rfl

/-- Making tables adds no rows. -/
@[simp] theorem store_openTables (logOk metaOk : Bool) (db : Database) :
    (db.openTables logOk metaOk).store = db.store := by
  cases logOk <;> cases metaOk <;> rfl

end Database

/-! ## The disk -/

structure Disk where
  /-- `{data_dir}/raft-log.redb` -/
  legacy : Option Database
  /-- the subdirectories of the data directory, each with its `raft-log.redb` -/
  dirs : String → Option (Option Database)

/-- The name of a shard's directory. -/
def shardDir (s : ShardId) : String := "shard-" ++ toString s

theorem shardDir_injective {s t : ShardId} (h : shardDir s = shardDir t) : s = t := by
  have hdigits : Nat.toDigits 10 s = Nat.toDigits 10 t := by
    have htext := congrArg String.toList h
    simpa [shardDir] using htext
  exact Codec.toDigits_injective hdigits

namespace Disk

/-- The database file of a shard. -/
def file (d : Disk) (s : ShardId) : Option Database := (d.dirs (shardDir s)).join

/-- Put a database at the path of a shard. -/
def put (d : Disk) (s : ShardId) (db : Database) : Disk :=
  { d with dirs := Function.update d.dirs (shardDir s) (some (some db)) }

/-- `create_dir_all` at the directory of a shard. -/
def createDirAll (d : Disk) (s : ShardId) : Disk :=
  { d with dirs := Function.update d.dirs (shardDir s) (some (d.file s)) }

/-- `std::fs::rename` of the legacy file to the path of a shard.  It fails if there is no such file
or no such directory. -/
def rename (d : Disk) (s : ShardId) : Option Disk :=
  match d.legacy, d.dirs (shardDir s) with
  | some db, some _ => some { d.put s db with legacy := none }
  | _, _ => none

/-- `Database::create` at the path of a shard. -/
def createDatabase (d : Disk) (s : ShardId) : Option Disk :=
  match d.dirs (shardDir s) with
  | some (some _) => some d
  | some none => some (d.put s Database.empty)
  | none => none

@[simp] theorem put_legacy (d : Disk) (s : ShardId) (db : Database) :
    (d.put s db).legacy = d.legacy := rfl

@[simp] theorem createDirAll_legacy (d : Disk) (s : ShardId) :
    (d.createDirAll s).legacy = d.legacy := rfl

@[simp] theorem put_dirs_self (d : Disk) (s : ShardId) (db : Database) :
    (d.put s db).dirs (shardDir s) = some (some db) := Function.update_self _ _ _

theorem put_dirs_of_ne (d : Disk) {s : ShardId} {name : String} (h : name ≠ shardDir s)
    (db : Database) : (d.put s db).dirs name = d.dirs name := Function.update_of_ne h _ _

@[simp] theorem createDirAll_dirs_self (d : Disk) (s : ShardId) :
    (d.createDirAll s).dirs (shardDir s) = some (d.file s) := Function.update_self _ _ _

theorem createDirAll_dirs_of_ne (d : Disk) {s : ShardId} {name : String} (h : name ≠ shardDir s) :
    (d.createDirAll s).dirs name = d.dirs name := Function.update_of_ne h _ _

@[simp] theorem put_file_self (d : Disk) (s : ShardId) (db : Database) :
    (d.put s db).file s = some db := by
  unfold file
  rw [put_dirs_self]
  rfl

theorem put_file_of_ne (d : Disk) {s t : ShardId} (h : t ≠ s) (db : Database) :
    (d.put s db).file t = d.file t := by
  unfold file
  rw [put_dirs_of_ne d (fun heq => h (shardDir_injective heq)) db]

@[simp] theorem createDirAll_file (d : Disk) (s t : ShardId) :
    (d.createDirAll s).file t = d.file t := by
  by_cases h : t = s
  · subst h
    show ((d.createDirAll t).dirs (shardDir t)).join = d.file t
    rw [createDirAll_dirs_self]
    rfl
  · unfold file
    rw [createDirAll_dirs_of_ne d (fun heq => h (shardDir_injective heq))]

theorem file_eq_some {d : Disk} {s : ShardId} {db : Database} :
    d.file s = some db ↔ d.dirs (shardDir s) = some (some db) := by
  unfold file
  exact Option.join_eq_some_iff

/-- The rows a store of the shard must have: those of its file, for shard 0 without a file those of
the legacy file, and else none. -/
def meant (d : Disk) (s : ShardId) : PersistentLogStore :=
  match d.file s with
  | some db => db.store
  | none =>
      if s = 0 then
        match d.legacy with
        | some db => db.store
        | none => PersistentLogStore.new
      else PersistentLogStore.new

theorem meant_of_file {d : Disk} {s : ShardId} {db : Database} (h : d.file s = some db) :
    d.meant s = db.store := by
  unfold meant
  rw [h]

/-- What is meant for a shard depends on its file and, for shard 0, on the legacy file. -/
theorem meant_congr {d d' : Disk} {s : ShardId} (hfile : d'.file s = d.file s)
    (hlegacy : s = 0 → d'.legacy = d.legacy) : d'.meant s = d.meant s := by
  unfold meant
  rw [hfile]
  by_cases hs : s = 0
  · rw [hlegacy hs]
  · rw [if_neg hs, if_neg hs]

/-- The databases of the disk as `DataDir` has them. -/
def toDataDir (d : Disk) : DataDir where
  legacy := d.legacy.map Database.store
  file s := (d.file s).map Database.store

end Disk

/-! ## PersistentLogStore::new -/

/-- The operation a call carries out next. -/
inductive Pc where
  /-- `old_path.exists()` -/
  | legacyExists
  /-- `shard_dir.join("raft-log.redb").exists()` -/
  | shardExists
  | createDirToMigrate
  | rename
  | createDir
  | createDatabase
  | beginWrite
  | openTables (view : Database)
  | commit (view : Database)
  /-- the transaction is durable, the call has not returned -/
  | committed (view : Database)

/-- The error of the operation is returned. -/
def Pc.fallible : Pc → Bool
  | .createDirToMigrate | .rename | .createDir | .createDatabase | .beginWrite | .commit _ => true
  | .legacyExists | .shardExists | .openTables _ | .committed _ => false

structure Call where
  shardId : ShardId
  pc : Pc

structure World where
  disk : Disk
  call : Option Call
  /-- the calls that have returned a store, with its rows -/
  opened : List (ShardId × PersistentLogStore)

def World.start (d : Disk) : World := ⟨d, none, []⟩

/-- The call for `s` goes on at `pc` with the disk `d`. -/
def World.goto (w : World) (d : Disk) (s : ShardId) (pc : Pc) : World :=
  { w with disk := d, call := some ⟨s, pc⟩ }

/-- The next operation of a call for `s`, if it succeeds. -/
def World.next (w : World) (s : ShardId) : Pc → Option World
  | .legacyExists =>
      some (w.goto w.disk s (if w.disk.legacy.isSome then .shardExists else .createDir))
  | .shardExists =>
      some (w.goto w.disk s (if (w.disk.file s).isSome then .createDir else .createDirToMigrate))
  | .createDirToMigrate => some (w.goto (w.disk.createDirAll s) s .rename)
  | .rename => (w.disk.rename s).map fun d => w.goto d s .createDir
  | .createDir => some (w.goto (w.disk.createDirAll s) s .createDatabase)
  | .createDatabase => (w.disk.createDatabase s).map fun d => w.goto d s .beginWrite
  | .beginWrite => (w.disk.file s).map fun db => w.goto w.disk s (.openTables db)
  -- the results of `open_table` come with a label of their own
  | .openTables _ => none
  | .commit view => some (w.goto (w.disk.put s view) s (.committed view))
  | .committed view => some { w with call := none, opened := w.opened ++ [(s, view.store)] }

inductive Label where
  | call (s : ShardId)
  | next
  | openTables (logOk metaOk : Bool)
  | fail
  | crash
  deriving DecidableEq

def step (w : World) : Label → Option World
  | .call s =>
      match w.call with
      | none => some (w.goto w.disk s (if s = 0 then .legacyExists else .createDir))
      | some _ => none
  | .next =>
      match w.call with
      | some c => w.next c.shardId c.pc
      | none => none
  | .openTables logOk metaOk =>
      match w.call with
      | some ⟨s, .openTables view⟩ =>
          some (w.goto w.disk s (.commit (view.openTables logOk metaOk)))
      | _ => none
  | .fail =>
      match w.call with
      | some c => if c.pc.fallible then some { w with call := none } else none
      | none => none
  | .crash => some { w with call := none }

/-! ### A call without faults -/

/-- The operations from `create_dir_all` on. -/
def opening : List Label := [.next, .next, .next, .openTables true true, .next, .next]

/-- The operations before, for a call on the disk `d`. -/
def migrating (d : Disk) (s : ShardId) : List Label :=
  if s = 0 then
    if d.legacy.isSome then
      if (d.file s).isSome then [.next, .next] else [.next, .next, .next, .next]
    else [.next]
  else []

theorem toDataDir_put (d : Disk) (s : ShardId) (db : Database) :
    (d.put s db).toDataDir = d.toDataDir.setFile s db.store := by
  show (⟨_, fun t => ((d.put s db).file t).map Database.store⟩ : DataDir) = ⟨_, _⟩
  congr 1
  funext t
  by_cases h : t = s
  · subst h
    rw [Disk.put_file_self, Function.update_self]
    rfl
  · rw [Disk.put_file_of_ne d h, Function.update_of_ne h]
    rfl

theorem toDataDir_createDirAll (d : Disk) (s : ShardId) :
    (d.createDirAll s).toDataDir = d.toDataDir := by
  show (⟨_, fun t => ((d.createDirAll s).file t).map Database.store⟩ : DataDir) = ⟨_, _⟩
  congr 1
  funext t
  rw [Disk.createDirAll_file]

/-- The transaction that opens the tables keeps the rows of the file. -/
theorem exec_transaction {w : World} {s : ShardId} {db : Database}
    (hcall : w.call = some ⟨s, .beginWrite⟩) (hfile : w.disk.file s = some db) :
    Runs.exec step w [.next, .openTables true true, .next, .next] =
      some ⟨w.disk.put s (db.openTables true true), none, w.opened ++ [(s, db.store)]⟩ := by
  have hbegin : step w .next = some (w.goto w.disk s (.openTables db)) := by
    simp only [step, hcall, World.next, hfile, Option.map_some]
  refine Runs.exec_cons_some.mpr ⟨_, hbegin, ?_⟩
  rw [← Database.store_openTables true true db]
  rfl

theorem exec_opening {w : World} {s : ShardId} (hcall : w.call = some ⟨s, .createDir⟩) :
    ∃ d, Runs.exec step w opening =
        some ⟨d, none, w.opened ++ [(s, ((w.disk.file s).getD Database.empty).store)]⟩ ∧
      d.toDataDir =
        w.disk.toDataDir.setFile s ((w.disk.file s).getD Database.empty).store := by
  have hdir : step w .next = some (w.goto (w.disk.createDirAll s) s .createDatabase) := by
    simp only [step, hcall, World.next]
  cases hfile : w.disk.file s with
  | none =>
    -- `Database::create` makes the file
    have hcreate : step (w.goto (w.disk.createDirAll s) s .createDatabase) .next =
        some (w.goto ((w.disk.createDirAll s).put s .empty) s .beginWrite) := by
      simp [step, World.next, World.goto, Disk.createDatabase, hfile]
    have hopen := exec_transaction (w := w.goto ((w.disk.createDirAll s).put s .empty) s .beginWrite)
      rfl (Disk.put_file_self _ s .empty)
    refine ⟨_, Runs.exec_cons_some.mpr ⟨_, hdir, Runs.exec_cons_some.mpr ⟨_, hcreate, hopen⟩⟩, ?_⟩
    show (((w.disk.createDirAll s).put s .empty).put s _).toDataDir = _
    rw [toDataDir_put, toDataDir_put, toDataDir_createDirAll, Database.store_openTables]
    simp [DataDir.setFile]
  | some db =>
    have hcreate : step (w.goto (w.disk.createDirAll s) s .createDatabase) .next =
        some (w.goto (w.disk.createDirAll s) s .beginWrite) := by
      simp [step, World.next, World.goto, Disk.createDatabase, hfile]
    have hopen := exec_transaction (w := w.goto (w.disk.createDirAll s) s .beginWrite)
      rfl ((Disk.createDirAll_file _ s s).trans hfile)
    refine ⟨_, Runs.exec_cons_some.mpr ⟨_, hdir, Runs.exec_cons_some.mpr ⟨_, hcreate, hopen⟩⟩, ?_⟩
    show ((w.disk.createDirAll s).put s _).toDataDir = _
    rw [toDataDir_put, toDataDir_createDirAll, Database.store_openTables]
    rfl

/-- The operations before `create_dir_all` are the migration of `DataDir`. -/
theorem exec_migrating (w : World) (s : ShardId) :
    ∃ d, Runs.exec step (w.goto w.disk s (if s = 0 then .legacyExists else .createDir))
        (migrating w.disk s) = some (w.goto d s .createDir) ∧
      d.toDataDir = w.disk.toDataDir.migrate s := by
  by_cases hs : s = 0
  · subst hs
    cases hlegacy : w.disk.legacy with
    | none =>
      refine ⟨w.disk, ?_, ?_⟩
      · simp [migrating, hlegacy, Runs.exec, step, World.next, World.goto]
      · simp [DataDir.migrate, Disk.toDataDir, hlegacy]
    | some old =>
      cases hfile : w.disk.file 0 with
      | some db =>
        refine ⟨w.disk, ?_, ?_⟩
        · simp [migrating, hlegacy, hfile, Runs.exec, step, World.next, World.goto]
        · exact (DataDir.migrate_of_file (by simp [Disk.toDataDir, hfile]; rfl)).symm
      | none =>
        refine ⟨{ (w.disk.createDirAll 0).put 0 old with legacy := none }, ?_, ?_⟩
        · simp [migrating, hlegacy, hfile, Runs.exec, step, World.next, World.goto, Disk.rename]
        · have hlegacy' : w.disk.toDataDir.legacy = some old.store := by
            simp [Disk.toDataDir, hlegacy]
          have hfile' : w.disk.toDataDir.file 0 = none := by
            simp [Disk.toDataDir, hfile]
          unfold DataDir.migrate
          rw [hlegacy']
          simp only [hfile', and_self, if_true]
          show { ((w.disk.createDirAll 0).put 0 old).toDataDir with legacy := none } = _
          rw [toDataDir_put, toDataDir_createDirAll]
  · refine ⟨w.disk, ?_, ?_⟩
    · simp [migrating, hs]
    · unfold DataDir.migrate
      split
      · rw [if_neg (fun h => hs h.1)]
      · rfl

/-- **A call without faults** opens the store that `DataDir.openStore` says, and leaves the same
databases. -/
theorem exec_new (w : World) (s : ShardId) (hcall : w.call = none) :
    ∃ d, Runs.exec step w (.call s :: (migrating w.disk s ++ opening)) =
        some ⟨d, none, w.opened ++ [(s, (w.disk.toDataDir.openStore s).2)]⟩ ∧
      d.toDataDir = (w.disk.toDataDir.openStore s).1 := by
  obtain ⟨d₁, hmigrating, hd₁⟩ := exec_migrating w s
  obtain ⟨d, hopening, hd⟩ := exec_opening (w := w.goto d₁ s .createDir) rfl
  have hcalled : step w (.call s) =
      some (w.goto w.disk s (if s = 0 then .legacyExists else .createDir)) := by
    simp only [step, hcall]
  have hexec := Runs.exec_cons_some.mpr
    ⟨_, hcalled, Runs.exec_append_some.mpr ⟨_, hmigrating, hopening⟩⟩
  have hfile : d₁.toDataDir.file s = (d₁.file s).map Database.store := rfl
  refine ⟨d, ?_, ?_⟩
  · rw [hexec]
    unfold DataDir.openStore
    rw [← hd₁]
    cases h : d₁.file s <;> simp [World.goto, hfile, h]
  · rw [hd]
    unfold DataDir.openStore
    rw [← hd₁]
    cases h : d₁.file s with
    | none => simp [World.goto, hfile, h]
    | some db =>
      have hsame : d₁.toDataDir.setFile s db.store = d₁.toDataDir := by
        have hdb : d₁.toDataDir.file s = some db.store := by rw [hfile, h, Option.map_some]
        unfold DataDir.setFile
        rw [← hdb, Function.update_eq_self]
      simp [World.goto, hfile, h, hsame]

/-! ## What an operation does to the disk -/

/-- A call for `s` may make the directory of `s`, move the legacy file to a shard 0 that has no
file, make an empty file where there is none to be opened or moved, and rewrite the file of `s` with
the same rows. -/
inductive Disk.Change (d : Disk) (s : ShardId) : Disk → Prop
  | same : Change d s d
  | dir : Change d s (d.createDirAll s)
  | moved {old : Database} (hs : s = 0) (hlegacy : d.legacy = some old) (hfile : d.file s = none) :
      Change d s { d.put s old with legacy := none }
  | made (hfile : d.file s = none) (hlegacy : s = 0 → d.legacy = none) :
      Change d s (d.put s Database.empty)
  | rewritten {db view : Database} (hfile : d.file s = some db) (hstore : view.store = db.store) :
      Change d s (d.put s view)

/-- What a call knows of the disk before its next operation.  The two checks of the migration still
hold when the file is moved, and `Database::create` makes a file only if there is nothing to move. -/
def Pc.Knows (d : Disk) (s : ShardId) : Pc → Prop
  | .legacyExists => s = 0
  | .shardExists => s = 0
  | .createDirToMigrate => s = 0 ∧ d.file s = none
  | .rename => s = 0 ∧ d.file s = none
  | .createDir => s = 0 → d.file s = none → d.legacy = none
  | .createDatabase => s = 0 → d.file s = none → d.legacy = none
  | .beginWrite => ∃ db, d.file s = some db
  | .openTables view => d.file s = some view
  | .commit view => ∃ db, d.file s = some db ∧ view.store = db.store
  | .committed view => d.file s = some view

def World.Aware (w : World) : Prop := ∀ c, w.call = some c → c.pc.Knows w.disk c.shardId

theorem rename_eq_some {d d' : Disk} {s : ShardId} (h : d.rename s = some d') :
    ∃ old, d.legacy = some old ∧ d' = { d.put s old with legacy := none } := by
  unfold Disk.rename at h
  split at h
  · rename_i old _ hlegacy _
    cases h
    exact ⟨old, hlegacy, rfl⟩
  · cases h

theorem createDatabase_eq_some {d d' : Disk} {s : ShardId} (h : d.createDatabase s = some d') :
    (d' = d ∧ ∃ db, d.file s = some db) ∨ (d.file s = none ∧ d' = d.put s Database.empty) := by
  unfold Disk.createDatabase at h
  split at h
  · rename_i db hdir
    cases h
    exact .inl ⟨rfl, db, Disk.file_eq_some.mpr hdir⟩
  · rename_i hdir
    cases h
    refine .inr ⟨?_, rfl⟩
    unfold Disk.file
    rw [hdir]
    rfl
  · cases h

/-- **One operation of a call**: its effect on the disk, what the call knows after it, and what it
returns. -/
theorem next_cases {w w' : World} {s : ShardId} {pc : Pc} (hknows : pc.Knows w.disk s)
    (h : w.next s pc = some w') :
    w.disk.Change s w'.disk ∧
    ((w'.opened = w.opened ∧ ∃ pc', w'.call = some ⟨s, pc'⟩ ∧ pc'.Knows w'.disk s) ∨
      (w'.call = none ∧ ∃ view, w'.disk.file s = some view ∧
        w'.opened = w.opened ++ [(s, view.store)])) := by
  cases pc with
  | legacyExists =>
    cases h
    refine ⟨.same, .inl ⟨rfl, _, rfl, ?_⟩⟩
    show Pc.Knows w.disk s (if w.disk.legacy.isSome then .shardExists else .createDir)
    cases hlegacy : w.disk.legacy with
    | some old => exact hknows
    | none => exact fun _ _ => hlegacy
  | shardExists =>
    cases h
    refine ⟨.same, .inl ⟨rfl, _, rfl, ?_⟩⟩
    show Pc.Knows w.disk s (if (w.disk.file s).isSome then .createDir else .createDirToMigrate)
    cases hfile : w.disk.file s with
    | some db =>
      intro _ hnone
      rw [hfile] at hnone
      cases hnone
    | none => exact ⟨hknows, hfile⟩
  | createDirToMigrate =>
    cases h
    refine ⟨.dir, .inl ⟨rfl, _, rfl, hknows.1, ?_⟩⟩
    rw [World.goto, Disk.createDirAll_file]
    exact hknows.2
  | rename =>
    obtain ⟨d, hd, rfl⟩ := Option.map_eq_some_iff.mp h
    obtain ⟨old, hlegacy, rfl⟩ := rename_eq_some hd
    exact ⟨.moved hknows.1 hlegacy hknows.2, .inl ⟨rfl, _, rfl, fun _ _ => rfl⟩⟩
  | createDir =>
    cases h
    refine ⟨.dir, .inl ⟨rfl, _, rfl, ?_⟩⟩
    intro hs hnone
    rw [World.goto, Disk.createDirAll_file] at hnone
    exact hknows hs hnone
  | createDatabase =>
    obtain ⟨d, hd, rfl⟩ := Option.map_eq_some_iff.mp h
    obtain ⟨rfl, hfile⟩ | ⟨hfile, rfl⟩ := createDatabase_eq_some hd
    · exact ⟨.same, .inl ⟨rfl, _, rfl, hfile⟩⟩
    · refine ⟨.made hfile (fun hs => hknows hs hfile), .inl ⟨rfl, _, rfl, ?_⟩⟩
      exact ⟨_, Disk.put_file_self _ _ _⟩
  | beginWrite =>
    obtain ⟨db, hfile, rfl⟩ := Option.map_eq_some_iff.mp h
    exact ⟨.same, .inl ⟨rfl, _, rfl, hfile⟩⟩
  | openTables view => cases h
  | commit view =>
    obtain ⟨db, hfile, hstore⟩ := hknows
    cases h
    exact ⟨.rewritten hfile hstore, .inl ⟨rfl, _, rfl, Disk.put_file_self _ _ _⟩⟩
  | committed view =>
    cases h
    exact ⟨.same, .inr ⟨rfl, view, hknows, rfl⟩⟩

/-- **One step**: either the disk stays, or a running call changes it, and only a call that returns
adds to the opened stores. -/
theorem step_change {w w' : World} {l : Label} (haware : w.Aware) (h : step w l = some w') :
    w'.Aware ∧
    ((w'.disk = w.disk ∧ w'.opened = w.opened) ∨
      ∃ c, w.call = some c ∧ w.disk.Change c.shardId w'.disk ∧
        (w'.opened = w.opened ∨ ∃ view, w'.disk.file c.shardId = some view ∧
          w'.opened = w.opened ++ [(c.shardId, view.store)])) := by
  have hidle : World.Aware { w with call := none } := fun c hc => by cases hc
  cases l with
  | call s =>
    simp only [step] at h
    split at h
    · cases h
      refine ⟨?_, .inl ⟨rfl, rfl⟩⟩
      rintro c hc
      cases hc
      show Pc.Knows w.disk s (if s = 0 then .legacyExists else .createDir)
      split
      · rename_i hs
        exact hs
      · rename_i hs
        exact fun hzero => absurd hzero hs
    · cases h
  | next =>
    simp only [step] at h
    split at h
    · rename_i c hcall
      obtain ⟨hchange, ⟨hopened, pc', hcall', hknows⟩ | ⟨hcall', hopened⟩⟩ :=
        next_cases (haware c hcall) h
      · refine ⟨?_, .inr ⟨c, hcall, hchange, .inl hopened⟩⟩
        rintro c' hc'
        rw [hcall'] at hc'
        cases hc'
        exact hknows
      · refine ⟨?_, .inr ⟨c, hcall, hchange, .inr hopened⟩⟩
        rintro c' hc'
        rw [hcall'] at hc'
        cases hc'
    · cases h
  | openTables logOk metaOk =>
    simp only [step] at h
    split at h
    · rename_i s view hcall
      cases h
      refine ⟨?_, .inl ⟨rfl, rfl⟩⟩
      rintro c hc
      cases hc
      exact ⟨view, haware _ hcall, Database.store_openTables logOk metaOk view⟩
    · cases h
  | fail =>
    simp only [step] at h
    split at h
    · split at h
      · cases h
        exact ⟨hidle, .inl ⟨rfl, rfl⟩⟩
      · cases h
    · cases h
  | crash =>
    cases h
    exact ⟨hidle, .inl ⟨rfl, rfl⟩⟩

/-! ### What changes keep -/

namespace Disk.Change

variable {d d' : Disk} {s : ShardId}

/-- No other directory is touched. -/
theorem dirs_of_ne (h : d.Change s d') {name : String} (hname : name ≠ shardDir s) :
    d'.dirs name = d.dirs name := by
  cases h with
  | same => rfl
  | dir => exact createDirAll_dirs_of_ne d hname
  | moved hs hlegacy hfile => exact put_dirs_of_ne d hname _
  | made hfile hlegacy => exact put_dirs_of_ne d hname _
  | rewritten hfile hstore => exact put_dirs_of_ne d hname _

theorem file_of_ne (h : d.Change s d') {t : ShardId} (ht : t ≠ s) : d'.file t = d.file t := by
  unfold file
  rw [h.dirs_of_ne fun heq => ht (shardDir_injective heq)]

/-- Only shard 0 touches the legacy file. -/
theorem legacy_of_ne (h : d.Change s d') (hs : s ≠ 0) : d'.legacy = d.legacy := by
  cases h with
  | moved hzero hlegacy hfile => exact absurd hzero hs
  | same | dir | made _ _ | rewritten _ _ => rfl

/-- A file of the shard keeps its rows. -/
theorem file_kept (h : d.Change s d') {db : Database} (hdb : d.file s = some db) :
    ∃ db', d'.file s = some db' ∧ db'.store = db.store := by
  cases h with
  | same => exact ⟨db, hdb, rfl⟩
  | dir => exact ⟨db, by rw [createDirAll_file]; exact hdb, rfl⟩
  | moved hs hlegacy hfile =>
    rw [hfile] at hdb
    cases hdb
  | made hfile hlegacy =>
    rw [hfile] at hdb
    cases hdb
  | rewritten hfile hstore =>
    cases hfile.symm.trans hdb
    exact ⟨_, put_file_self _ _ _, hstore⟩

/-- **What is meant for a shard does not change.** -/
theorem meant_eq (h : d.Change s d') (t : ShardId) : d'.meant t = d.meant t := by
  by_cases ht : t = s
  · subst ht
    cases h with
    | same => rfl
    | dir => exact meant_congr (createDirAll_file d t t) fun _ => rfl
    | @moved old hs hlegacy hfile =>
      have hmoved : meant { d.put t old with legacy := none } t = old.store :=
        meant_of_file (put_file_self d t old)
      rw [hmoved]
      unfold meant
      rw [hfile, hlegacy]
      simp [hs]
    | made hfile hlegacy =>
      rw [meant_of_file (put_file_self d t _), Database.store_empty]
      unfold meant
      rw [hfile]
      by_cases hs : t = 0
      · simp [hs, hlegacy hs]
      · simp [hs]
    | rewritten hfile hstore => rw [meant_of_file (put_file_self d t _), meant_of_file hfile, hstore]
  · refine meant_congr (h.file_of_ne ht) ?_
    -- shard 0 looks at the legacy file, which a call for another shard leaves alone
    rintro rfl
    exact h.legacy_of_ne (Ne.symm ht)

end Disk.Change

/-- Every directory and every database is still there with its rows; the legacy file may have become
the file of shard 0, if that had none. -/
structure Kept (d d' : Disk) : Prop where
  dir : ∀ name, (d.dirs name).isSome → (d'.dirs name).isSome
  file : ∀ name db, d.dirs name = some (some db) →
    ∃ db', d'.dirs name = some (some db') ∧ db'.store = db.store
  legacy : ∀ old, d.legacy = some old → d'.legacy = some old ∨
    (d.file 0 = none ∧ d'.legacy = none ∧ ∃ db, d'.file 0 = some db ∧ db.store = old.store)
  gone : d.legacy = none → d'.legacy = none

theorem Kept.refl (d : Disk) : Kept d d :=
  ⟨fun _ h => h, fun _ db h => ⟨db, h, rfl⟩, fun _ h => .inl h, fun h => h⟩

theorem Kept.file_of_shard {d d' : Disk} (h : Kept d d') {s : ShardId} {db : Database}
    (hdb : d.file s = some db) : ∃ db', d'.file s = some db' ∧ db'.store = db.store := by
  obtain ⟨db', hdb', hstore⟩ := h.file (shardDir s) db (Disk.file_eq_some.mp hdb)
  exact ⟨db', Disk.file_eq_some.mpr hdb', hstore⟩

theorem Kept.trans {d₁ d₂ d₃ : Disk} (h₁ : Kept d₁ d₂) (h₂ : Kept d₂ d₃) : Kept d₁ d₃ where
  dir name h := h₂.dir name (h₁.dir name h)
  file name db h := by
    obtain ⟨db', h', hstore⟩ := h₁.file name db h
    obtain ⟨db'', h'', hstore'⟩ := h₂.file name db' h'
    exact ⟨db'', h'', hstore'.trans hstore⟩
  legacy old h := by
    obtain h' | ⟨hnone, hgone, db, hdb, hstore⟩ := h₁.legacy old h
    · obtain h'' | ⟨hnone, hgone, hmoved⟩ := h₂.legacy old h'
      · exact .inl h''
      · refine .inr ⟨?_, hgone, hmoved⟩
        by_contra hsome
        obtain ⟨db, hdb⟩ := Option.ne_none_iff_exists'.mp hsome
        obtain ⟨db', hdb', _⟩ := h₁.file_of_shard hdb
        rw [hnone] at hdb'
        cases hdb'
    · obtain ⟨db', hdb', hstore'⟩ := h₂.file_of_shard hdb
      exact .inr ⟨hnone, h₂.gone hgone, db', hdb', hstore'.trans hstore⟩
  gone h := h₂.gone (h₁.gone h)

theorem Disk.Change.kept {d d' : Disk} {s : ShardId} (h : d.Change s d') : Kept d d' where
  dir name hname := by
    by_cases hs : name = shardDir s
    · subst hs
      cases h with
      | same => exact hname
      | dir => rw [createDirAll_dirs_self]; rfl
      | moved _ _ _ | made _ _ | rewritten _ _ =>
        show ((d.put s _).dirs (shardDir s)).isSome = true
        rw [put_dirs_self]
        rfl
    · rw [h.dirs_of_ne hs]
      exact hname
  file name db hdb := by
    by_cases hs : name = shardDir s
    · subst hs
      obtain ⟨db', hdb', hstore⟩ := h.file_kept (file_eq_some.mpr hdb)
      exact ⟨db', file_eq_some.mp hdb', hstore⟩
    · rw [h.dirs_of_ne hs]
      exact ⟨db, hdb, rfl⟩
  legacy old hold := by
    cases h with
    | @moved old' hs hlegacy hfile =>
      subst hs
      cases hlegacy.symm.trans hold
      exact .inr ⟨hfile, rfl, old, put_file_self d 0 old, rfl⟩
    | same | dir | made _ _ | rewritten _ _ => exact .inl hold
  gone hnone := by
    cases h with
    | moved hs hlegacy hfile => rfl
    | same | dir | made _ _ | rewritten _ _ => exact hnone

/-- The same directories and the same databases, row by row. -/
def SameContents (d d' : Disk) : Prop :=
  d'.legacy = d.legacy ∧ ∀ name, (d'.dirs name).map (·.map Database.store) =
    (d.dirs name).map (·.map Database.store)

/-- A call for a shard that has a file changes nothing. -/
theorem Disk.Change.sameContents {d d' : Disk} {s : ShardId} {db : Database} (h : d.Change s d')
    (hdb : d.file s = some db) : SameContents d d' := by
  constructor
  · cases h with
    | moved hs hlegacy hfile =>
      rw [hfile] at hdb
      cases hdb
    | same | dir | made _ _ | rewritten _ _ => rfl
  · intro name
    by_cases hname : name = shardDir s
    · subst hname
      obtain ⟨db', hdb', hstore⟩ := h.file_kept hdb
      rw [file_eq_some.mp hdb', file_eq_some.mp hdb]
      simp [hstore]
    · rw [h.dirs_of_ne hname]

/-! ## Sequences of calls -/

/-- The stores that have been opened have the rows of their files, which are those the initial disk
meant. -/
structure World.Ok (d₀ : Disk) (w : World) : Prop where
  aware : w.Aware
  meant : ∀ s, w.disk.meant s = d₀.meant s
  opened : ∀ s store, (s, store) ∈ w.opened → ∃ db, w.disk.file s = some db ∧ db.store = store

theorem World.Ok.start (d₀ : Disk) : (World.start d₀).Ok d₀ where
  aware c hc := by cases hc
  meant s := rfl
  opened s store h := by cases h

theorem step_kept {w w' : World} {l : Label} (haware : w.Aware) (h : step w l = some w') :
    Kept w.disk w'.disk := by
  obtain ⟨_, ⟨hdisk, _⟩ | ⟨c, _, hchange, _⟩⟩ := step_change haware h
  · rw [hdisk]
    exact Kept.refl _
  · exact hchange.kept

theorem step_ok {d₀ : Disk} {w w' : World} {l : Label} (hok : w.Ok d₀) (h : step w l = some w') :
    w'.Ok d₀ := by
  have hkept := step_kept hok.aware h
  obtain ⟨haware, hcases⟩ := step_change hok.aware h
  refine ⟨haware, ?_, ?_⟩
  · intro s
    obtain ⟨hdisk, _⟩ | ⟨c, _, hchange, _⟩ := hcases
    · rw [hdisk]
      exact hok.meant s
    · rw [hchange.meant_eq s]
      exact hok.meant s
  · have hold : ∀ s store, (s, store) ∈ w.opened → ∃ db, w'.disk.file s = some db ∧ db.store = store := by
      intro s store hmem
      obtain ⟨db, hdb, rfl⟩ := hok.opened s store hmem
      exact hkept.file_of_shard hdb
    intro s store hmem
    obtain ⟨_, hopened⟩ | ⟨c, _, _, hopened | ⟨view, hview, hopened⟩⟩ := hcases
    · rw [hopened] at hmem
      exact hold s store hmem
    · rw [hopened] at hmem
      exact hold s store hmem
    · rw [hopened] at hmem
      rcases List.mem_append.mp hmem with hmem | hmem
      · exact hold s store hmem
      · cases List.mem_singleton.mp hmem
        exact ⟨view, hview, rfl⟩

/-- Every opened store has the rows the initial disk meant for its shard, and so has its file. -/
def HoldsInitial (d₀ : Disk) (w : World) : Prop :=
  ∀ s store, (s, store) ∈ w.opened →
    store = d₀.meant s ∧ ∃ db, w.disk.file s = some db ∧ db.store = store

/-- A call leaves the files of other shards alone, and unless it is for shard 0 the legacy file. -/
def OwnFilesOnly (w w' : World) : Prop :=
  ∀ c, w.call = some c →
    (c.shardId ≠ 0 → w'.disk.legacy = w.disk.legacy) ∧
    ∀ s, s ≠ c.shardId → w'.disk.file s = w.disk.file s

/-- A call for a shard that has been opened before changes nothing. -/
def ReopenChangesNothing (w w' : World) : Prop :=
  ∀ c, w.call = some c → (∃ store, (c.shardId, store) ∈ w.opened) → SameContents w.disk w'.disk

theorem step_ownFilesOnly {w w' : World} {l : Label} (haware : w.Aware) (h : step w l = some w') :
    OwnFilesOnly w w' := by
  intro c hc
  obtain ⟨_, ⟨hdisk, _⟩ | ⟨c', hc', hchange, _⟩⟩ := step_change haware h
  · rw [hdisk]
    exact ⟨fun _ => rfl, fun _ _ => rfl⟩
  · cases hc'.symm.trans hc
    exact ⟨fun hs => hchange.legacy_of_ne hs, fun s hs => hchange.file_of_ne hs⟩

theorem step_reopen {d₀ : Disk} {w w' : World} {l : Label} (hok : w.Ok d₀)
    (h : step w l = some w') : ReopenChangesNothing w w' := by
  rintro c hc ⟨store, hmem⟩
  obtain ⟨db, hdb, _⟩ := hok.opened c.shardId store hmem
  obtain ⟨_, ⟨hdisk, _⟩ | ⟨c', hc', hchange, _⟩⟩ := step_change hok.aware h
  · rw [hdisk]
    exact ⟨rfl, fun _ => rfl⟩
  · cases hc'.symm.trans hc
    exact hchange.sameContents hdb

/-- **The migration loses and overwrites nothing.**  Whatever is on the disk and whichever calls,
crashes and failures follow: every opened store holds what the initial disk meant for its shard, calls
touch no foreign files, no database is lost or overwritten between any two states, and opening a shard
again changes nothing. -/
theorem migration_safe (d₀ : Disk) (labels : List Label) :
    Runs.Throughout step (HoldsInitial d₀) (World.start d₀) labels ∧
    Runs.EachStep step OwnFilesOnly (World.start d₀) labels ∧
    Runs.Ascends step (fun w w' => Kept w.disk w'.disk) (World.start d₀) labels ∧
    Runs.EachStep step ReopenChangesNothing (World.start d₀) labels := by
  have hinv : ∀ w l w', World.Ok d₀ w → step w l = some w' → World.Ok d₀ w' :=
    fun _ _ _ hok h => step_ok hok h
  have hstart := World.Ok.start d₀
  refine ⟨?_, ?_, ?_, ?_⟩
  · refine Runs.throughout_iff_forall.mpr ?_
    intro ls₁ ls₂ w _ h s store hmem
    have hok := Runs.exec_inv hinv hstart h
    obtain ⟨db, hdb, hstore⟩ := hok.opened s store hmem
    refine ⟨?_, db, hdb, hstore⟩
    rw [← hok.meant s, Disk.meant_of_file hdb, hstore]
  · exact Runs.along_of_inv hinv (fun _ _ hok _ h => step_ownFilesOnly hok.aware h) hstart
  · have hkept : Runs.EachStep step (fun w w' => Kept w.disk w'.disk) (World.start d₀) labels :=
      Runs.along_of_inv hinv (fun _ _ hok _ h => step_kept hok.aware h) hstart
    exact (Runs.ascends_iff_along (fun w => Kept.refl w.disk) fun _ _ _ h₁ h₂ => h₁.trans h₂).mpr hkept
  · exact Runs.along_of_inv hinv (fun _ _ hok _ h => step_reopen hok h) hstart

end RaftTimeDB.LegacyMigration
