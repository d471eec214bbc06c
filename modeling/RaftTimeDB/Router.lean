import RaftTimeDB.Types
import Mathlib.Data.List.DropRight

/-!
# Shard router

Model of `crates/proxy/src/router/mod.rs`: shard config commands and their wire format, the
module name in a request path, and the routing table.

* A Rust `str` is read as its list of characters: every pattern the source splits or trims at is
  a single ASCII character.
* `HashMap<String, ShardId>` is `RouteMap`, a Mathlib `Finmap`: equal when it has the same keys
  and targets.  Where the source iterates over the map, the iteration order is a list that
  `Enumerates` it.
* `serde_json` is the parameter `CommandJson`; `JsonFormats` has the texts it writes.
-/

set_option autoImplicit false

namespace RaftTimeDB

/-! ## Routing tables -/

/-- `HashMap<String, ShardId>`. -/
abbrev RouteMap := Finmap (fun _ : String => ShardId)

/-- The table with the listed entries. -/
def RouteMap.ofList (order : List (String × ShardId)) : RouteMap :=
  order.foldr (fun p m => m.insert p.1 p.2) ∅

/-- `order` lists the entries of `m`, each once: a possible iteration order of the hash map. -/
structure Enumerates (order : List (String × ShardId)) (m : RouteMap) : Prop where
  nodup : (order.map Prod.fst).Nodup
  ofList_eq : RouteMap.ofList order = m

instance (order : List (String × ShardId)) (m : RouteMap) : Decidable (Enumerates order m) :=
  decidable_of_iff ((order.map Prod.fst).Nodup ∧ RouteMap.ofList order = m)
    ⟨fun h => ⟨h.1, h.2⟩, fun h => ⟨h.1, h.2⟩⟩

/-- Listing an entry in front of the others; the key must be new. -/
theorem Enumerates.cons {order : List (String × ShardId)} {m : RouteMap} (h : Enumerates order m)
    {name : String} (shard : ShardId) (hnew : name ∉ order.map Prod.fst) :
    Enumerates ((name, shard) :: order) (m.insert name shard) :=
  ⟨List.nodup_cons.mpr ⟨hnew, h.nodup⟩, by rw [← h.ofList_eq]; rfl⟩

theorem RouteMap.mem_ofList (order : List (String × ShardId)) (name : String) :
    name ∈ RouteMap.ofList order ↔ name ∈ order.map Prod.fst := by
  induction order with
  | nil => exact ⟨fun h => absurd h Finmap.notMem_empty, fun h => by cases h⟩
  | cons p order ih =>
    have hcons : RouteMap.ofList (p :: order) = (RouteMap.ofList order).insert p.1 p.2 := rfl
    rw [hcons, Finmap.mem_insert, List.map_cons, List.mem_cons, ih]

/-- Every table has an iteration order. -/
theorem exists_enumerates (m : RouteMap) : ∃ order, Enumerates order m := by
  refine Finmap.induction_on m ?_
  intro al
  induction al using AList.insertRec with
  | H0 => exact ⟨[], List.nodup_nil, rfl⟩
  | IH name shard al hnew ih =>
    obtain ⟨order, h⟩ := ih
    refine ⟨(name, shard) :: order, ?_⟩
    rw [← Finmap.insert_toFinmap]
    refine h.cons shard fun hmem => hnew ?_
    rw [← RouteMap.mem_ofList, h.ofList_eq] at hmem
    exact hmem

/-! ## Shard config commands -/

/-- Magic byte in front of shard config commands in Raft entries. -/
def SHARD_CONFIG_TAG : UInt8 := 0xFF

inductive ShardConfigCommand where
  | createShard (shardId : ShardId)
  | addRoute (moduleName : String) (shardId : ShardId)
  | removeRoute (moduleName : String)
  deriving DecidableEq, Repr

/-- `serde_json::to_vec` and `serde_json::from_slice` at `ShardConfigCommand`. -/
structure CommandJson where
  toVec : ShardConfigCommand → Bytes
  fromSlice : Bytes → Option ShardConfigCommand

/-- `encode_shard_config`: the tag byte, then the JSON text. -/
def encodeShardConfig (J : CommandJson) (cmd : ShardConfigCommand) : Bytes :=
  SHARD_CONFIG_TAG :: J.toVec cmd

/-- `decode_shard_config`: `none` if the tag is missing or the JSON text is invalid. -/
def decodeShardConfig (J : CommandJson) (data : Bytes) : Option ShardConfigCommand :=
  if data.head? ≠ some SHARD_CONFIG_TAG then none else J.fromSlice data.tail

/-! ## Module names -/

/-- The text before and after the first `c`; `none` if there is no `c`. -/
def splitOnce (c : Char) : List Char → Option (List Char × List Char)
  | [] => none
  | x :: xs => if x = c then some ([], xs) else (splitOnce c xs).map fun p => (x :: p.1, p.2)

/-- `extract_module_name` on characters.  `splitn(3, '/')` yields a third part only after two
slashes, and the third part keeps any further ones. -/
def moduleNameChars (path : List Char) : Option (List Char) :=
  let trimmed := path.dropWhile (· == '/')
  match splitOnce '/' trimmed with
  | none => none
  | some (first, rest) =>
    match splitOnce '/' rest with
    | none => none
    | some (_second, third) =>
      if first = "database".toList ∧ third ≠ [] then
        -- strip any query string, then trailing slashes
        let name := (third.takeWhile (· != '?')).rdropWhile (· == '/')
        if name = [] then none else some name
      else none

/-- `extract_module_name`. -/
def extractModuleName (path : String) : Option String :=
  (moduleNameChars path.toList).map String.ofList

/-! ## The router -/

structure ShardRouter where
  routes : RouteMap
  defaultShard : ShardId
  deriving DecidableEq

namespace ShardRouter

/-- `ShardRouter::new`: everything goes to shard 0. -/
def new : ShardRouter := ⟨∅, 0⟩

def route (r : ShardRouter) (databaseName : String) : ShardId :=
  (r.routes.lookup databaseName).getD r.defaultShard

def addRoute (r : ShardRouter) (databaseName : String) (shard : ShardId) : ShardRouter :=
  { r with routes := r.routes.insert databaseName shard }

/-- `remove_route` also returns the old target. -/
def removeRoute (r : ShardRouter) (databaseName : String) : Option ShardId × ShardRouter :=
  (r.routes.lookup databaseName, { r with routes := r.routes.erase databaseName })

end ShardRouter

/-- The shard a client connection is bound to (`handle_client_inner`): the route of the module its
path names, shard 0 if it names none. -/
def ShardRouter.shardOfPath (r : ShardRouter) (requestPath : String) : ShardId :=
  match extractModuleName requestPath with
  | some name => r.route name
  | none => 0

end RaftTimeDB
