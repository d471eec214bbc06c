import RaftTimeDB.Router
import RaftTimeDB.Lib.Trim

/-!
# Module names in request paths

What `extract_module_name` accepts.  A path is trimmed in front, split at its first two slashes,
cut at `?` and trimmed at its end, in this order; the results below describe the strings by their
shape.

* `moduleNameChars_eq_some_iff`: the accepted paths, on characters.
* `extractModuleName_grammar`: the accepted paths and the names they give.
* `query_neutral_iff`: when the query string of a path leaves its route alone.  The split comes
  before the cut, so a slash in the query can end the second segment.
-/

set_option autoImplicit false

namespace RaftTimeDB

/-! ## Splitting at a slash -/

theorem splitOnce_eq_some_iff (c : Char) (l a b : List Char) :
    splitOnce c l = some (a, b) ↔ l = a ++ c :: b ∧ c ∉ a := by
  induction l generalizing a with
  | nil => simp [splitOnce]
  | cons x l ih =>
    by_cases hx : x = c
    · subst hx
      cases a with
      | nil => simp [splitOnce, eq_comm]
      | cons y a =>
        simp only [splitOnce, if_true, Option.some.injEq, Prod.mk.injEq]
        constructor
        · rintro ⟨h, -⟩
          cases h
        · rintro ⟨h, hmem⟩
          cases h
          exact absurd List.mem_cons_self hmem
    · simp only [splitOnce, if_neg hx, Option.map_eq_some_iff]
      constructor
      · rintro ⟨⟨a', b'⟩, hsplit, hpair⟩
        cases hpair
        obtain ⟨rfl, hmem⟩ := (ih a').mp hsplit
        exact ⟨rfl, by simp [Ne.symm hx, hmem]⟩
      · rintro ⟨heq, hmem⟩
        cases a with
        | nil =>
          cases heq
          exact absurd rfl hx
        | cons y a =>
          cases heq
          exact ⟨(a, b), (ih a).mpr ⟨rfl, fun h => hmem (List.mem_cons_of_mem _ h)⟩, rfl⟩

/-! ## The part after the second slash -/

/-- The name in the third part of a path: without its query string and trailing slashes. -/
def nameOf (third : List Char) : List Char :=
  (third.takeWhile (· != '?')).rdropWhile (· == '/')

theorem nameOf_eq_iff (third n : List Char) :
    nameOf third = n ↔
      (∃ j t, third = n ++ List.replicate j '/' ++ t ∧ (t = [] ∨ t.head? = some '?')) ∧
      '?' ∉ n ∧ n.getLast? ≠ some '/' := by
  have hslashes : ∀ j, '?' ∉ List.replicate j '/' := by
    intro j hmem
    exact absurd (List.eq_of_mem_replicate hmem) (by decide)
  rw [nameOf, Trim.rdropWhile_eq_iff]
  constructor
  · rintro ⟨⟨j, hj⟩, hlast⟩
    obtain ⟨hmem, t, rfl, ht⟩ := (Trim.takeWhile_eq_iff _ _ _).mp hj
    exact ⟨⟨j, t, rfl, ht⟩, fun h => hmem (List.mem_append_left _ h), hlast⟩
  · rintro ⟨⟨j, t, rfl, ht⟩, hmem, hlast⟩
    refine ⟨⟨j, (Trim.takeWhile_eq_iff _ _ _).mpr ⟨?_, t, rfl, ht⟩⟩, hlast⟩
    rw [List.mem_append]
    exact fun h => h.elim hmem (hslashes j)

theorem nameOf_ne_nil_iff (third : List Char) :
    nameOf third ≠ [] ↔ ∃ c ∈ third.takeWhile (· != '?'), c ≠ '/' := by
  rw [nameOf, Ne, List.rdropWhile_eq_nil_iff]
  simp only [beq_iff_eq, not_forall, exists_prop]

/-- Text from a `?` on does not count. -/
theorem nameOf_append_query {third : List Char} (h : '?' ∉ third) (q : List Char) :
    nameOf (third ++ '?' :: q) = nameOf third := by
  have hcut : (third ++ '?' :: q).takeWhile (· != '?') = third :=
    (Trim.takeWhile_eq_iff _ _ _).mpr ⟨h, '?' :: q, rfl, .inr rfl⟩
  have hself : third.takeWhile (· != '?') = third :=
    (Trim.takeWhile_eq_iff _ _ _).mpr ⟨h, [], (List.append_nil _).symm, .inl rfl⟩
  rw [nameOf, nameOf, hcut, hself]

/-! ## The path -/

/-- A path up to the end of its second segment. -/
def pathHead (i : Nat) (s : List Char) : List Char :=
  List.replicate i '/' ++ "database/".toList ++ s

theorem dropWhile_pathHead (i : Nat) (s rest : List Char) :
    (pathHead i s ++ rest).dropWhile (· == '/') = "database/".toList ++ (s ++ rest) := by
  rw [pathHead, List.append_assoc, List.append_assoc, Trim.dropWhile_replicate_append]
  rfl

/-- The split of a path: two slashes, the first after `database`. -/
theorem moduleNameChars_eq_some_iff_nameOf (p n : List Char) :
    moduleNameChars p = some n ↔
      ∃ i s third, p = pathHead i s ++ '/' :: third ∧ '/' ∉ s ∧ nameOf third = n ∧ n ≠ [] := by
  constructor
  · intro h
    simp only [moduleNameChars] at h
    split at h
    · cases h
    rename_i first rest hfirst
    split at h
    · cases h
    rename_i second third hsecond
    split at h
    · rename_i hguard
      split at h
      · cases h
      rename_i hname
      obtain ⟨hrest, -⟩ := (splitOnce_eq_some_iff _ _ _ _).mp hfirst
      obtain ⟨rfl, hslash⟩ := (splitOnce_eq_some_iff _ _ _ _).mp hsecond
      obtain ⟨⟨i, hi⟩, -⟩ := (Trim.dropWhile_eq_iff _ _ _).mp hrest
      refine ⟨i, second, third, ?_, hslash, Option.some.inj h, ?_⟩
      · rw [hi, hguard.1, pathHead]
        simp
      · rw [← Option.some.inj h]
        exact hname
    · cases h
  · rintro ⟨i, s, third, rfl, hslash, rfl, hname⟩
    have hfirst : splitOnce '/' ((pathHead i s ++ '/' :: third).dropWhile (· == '/')) =
        some ("database".toList, s ++ '/' :: third) := by
      rw [dropWhile_pathHead, splitOnce_eq_some_iff]
      exact ⟨by simp, by decide⟩
    have hsecond : splitOnce '/' (s ++ '/' :: third) = some (s, third) :=
      (splitOnce_eq_some_iff _ _ _ _).mpr ⟨rfl, hslash⟩
    have hthird : third ≠ [] := by
      rintro rfl
      exact hname rfl
    simp only [moduleNameChars, hfirst, hsecond]
    rw [if_pos ⟨trivial, hthird⟩]
    exact if_neg hname

/-- **The accepted paths**, on characters: what the trims and cuts removed is slashes and a query
string. -/
theorem moduleNameChars_eq_some_iff (p n : List Char) :
    moduleNameChars p = some n ↔
      ∃ i j s t, p = pathHead i s ++ '/' :: (n ++ List.replicate j '/' ++ t) ∧ '/' ∉ s ∧
        (t = [] ∨ t.head? = some '?') ∧ n ≠ [] ∧ '?' ∉ n ∧ n.getLast? ≠ some '/' := by
  rw [moduleNameChars_eq_some_iff_nameOf]
  constructor
  · rintro ⟨i, s, third, rfl, hslash, hname, hne⟩
    obtain ⟨⟨j, t, rfl, ht⟩, hquery, hlast⟩ := (nameOf_eq_iff _ _).mp hname
    exact ⟨i, j, s, t, rfl, hslash, ht, hne, hquery, hlast⟩
  · rintro ⟨i, j, s, t, rfl, hslash, ht, hne, hquery, hlast⟩
    exact ⟨i, s, _, rfl, hslash, (nameOf_eq_iff _ _).mpr ⟨⟨j, t, rfl, ht⟩, hquery, hlast⟩, hne⟩

/-! ## The grammar -/

/-- `i` slashes. -/
def slashes (i : Nat) : String := String.ofList (List.replicate i '/')

/-- The names a path can give: inner slashes are allowed. -/
structure IsModuleName (n : String) : Prop where
  nonempty : n ≠ ""
  noQuery : '?' ∉ n.toList
  noTrailingSlash : n.toList.getLast? ≠ some '/'

instance (n : String) : Decidable (IsModuleName n) :=
  decidable_of_iff (n ≠ "" ∧ '?' ∉ n.toList ∧ n.toList.getLast? ≠ some '/')
    ⟨fun h => ⟨h.1, h.2.1, h.2.2⟩, fun h => ⟨h.1, h.2, h.3⟩⟩

/-- A query string with its `?`, or nothing. -/
def IsQueryPart (t : String) : Prop := t = "" ∨ t.toList.head? = some '?'

instance (t : String) : Decidable (IsQueryPart t) := inferInstanceAs (Decidable (_ ∨ _))

/-- `p` is a path of module `n`: slashes, `database/`, a segment, a slash, the name, slashes and
the query part. -/
def ModulePath (p n : String) : Prop :=
  ∃ (i j : Nat) (s t : String),
    p = slashes i ++ "database/" ++ s ++ "/" ++ n ++ slashes j ++ t ∧
    '/' ∉ s.toList ∧ IsQueryPart t ∧ IsModuleName n

theorem ModulePath.isModuleName {p n : String} (h : ModulePath p n) : IsModuleName n := by
  obtain ⟨i, j, s, t, -, -, -, hname⟩ := h
  exact hname

theorem toList_slashes (i : Nat) : (slashes i).toList = List.replicate i '/' :=
  String.toList_ofList

theorem toList_eq_nil_iff (s : String) : s.toList = [] ↔ s = "" := by
  rw [← String.toList_inj, String.toList_empty]

theorem extractModuleName_eq_some (p n : String) :
    extractModuleName p = some n ↔ moduleNameChars p.toList = some n.toList := by
  rw [extractModuleName, Option.map_eq_some_iff]
  constructor
  · rintro ⟨chars, hchars, rfl⟩
    rw [hchars, String.toList_ofList]
  · intro h
    exact ⟨n.toList, h, String.ofList_toList⟩

/-- The grammar on strings is the grammar on characters. -/
theorem extractModuleName_iff_modulePath (p n : String) :
    extractModuleName p = some n ↔ ModulePath p n := by
  rw [extractModuleName_eq_some, moduleNameChars_eq_some_iff]
  constructor
  · rintro ⟨i, j, s, t, hp, hslash, ht, hne, hquery, hlast⟩
    refine ⟨i, j, String.ofList s, String.ofList t, ?_, ?_, ?_, ?_, hquery, hlast⟩
    · rw [← String.toList_inj, hp, pathHead]
      simp [toList_slashes]
    · rwa [String.toList_ofList]
    · rwa [IsQueryPart, String.toList_ofList, ← toList_eq_nil_iff, String.toList_ofList]
    · rwa [Ne, ← toList_eq_nil_iff]
  · rintro ⟨i, j, s, t, rfl, hslash, ht, hname⟩
    refine ⟨i, j, s.toList, t.toList, ?_, hslash, ?_, ?_, hname.noQuery, hname.noTrailingSlash⟩
    · rw [pathHead]
      simp [toList_slashes]
    · rwa [toList_eq_nil_iff]
    · rw [Ne, toList_eq_nil_iff]
      exact hname.nonempty

/-- **`extract_module_name` accepts exactly its grammar.**  So a path has at most one name, the
name is a module name, and every module name is found in its `subscribe` path, whatever slashes
and query string are added. -/
theorem extractModuleName_grammar (p : String) :
    (∀ n, extractModuleName p = some n ↔ ModulePath p n) ∧
    (∀ n n', ModulePath p n → ModulePath p n' → n = n') ∧
    (∀ n, extractModuleName p = some n → IsModuleName n) ∧
    (∀ n i j t, IsModuleName n → IsQueryPart t →
      p = slashes i ++ "/database/subscribe/" ++ n ++ slashes j ++ t →
      extractModuleName p = some n) := by
  refine ⟨extractModuleName_iff_modulePath p, ?_, ?_, ?_⟩
  · intro n n' hn hn'
    rw [← extractModuleName_iff_modulePath] at hn hn'
    exact Option.some.inj (hn.symm.trans hn')
  · intro n hn
    exact ((extractModuleName_iff_modulePath p n).mp hn).isModuleName
  · rintro n i j t hn ht rfl
    rw [extractModuleName_iff_modulePath]
    refine ⟨i + 1, j, "subscribe", t, ?_, by decide, ht, hn⟩
    rw [← String.toList_inj]
    simp [toList_slashes, List.replicate_succ']

/-- The name of a path with a slash inside it, extra slashes and a query. -/
theorem extractModuleName_grammar_sample :
    extractModuleName "//database/subscribe/a/b//?x=/y" = some "a/b" :=
  (extractModuleName_grammar "//database/subscribe/a/b//?x=/y").2.2.2 "a/b" 1 2 "?x=/y"
    (by decide) (by decide) (by decide)

/-! ## Query strings -/

/-- The path stops after its second segment and the query goes on with the rest: a slash, and
before the next `?` something that is not a slash. -/
def QueryNamesModule (p q : String) : Prop :=
  ∃ (i : Nat) (s a b : String),
    p = slashes i ++ "database/" ++ s ∧ '/' ∉ s.toList ∧
    q = a ++ "/" ++ b ∧ '/' ∉ a.toList ∧ ∃ c ∈ b.toList.takeWhile (· != '?'), c ≠ '/'

/-- A path that stops after its second segment names no module. -/
theorem moduleNameChars_pathHead {s : List Char} (i : Nat) (hs : '/' ∉ s) :
    moduleNameChars (pathHead i s) = none := by
  rw [Option.eq_none_iff_forall_ne_some]
  intro n h
  obtain ⟨i', s', third, heq, -⟩ := (moduleNameChars_eq_some_iff_nameOf _ _).mp h
  have htrim := dropWhile_pathHead i s []
  rw [List.append_nil, heq, dropWhile_pathHead, List.append_nil, List.append_cancel_left_eq] at htrim
  refine hs ?_
  rw [← htrim]
  simp

theorem query_notMem_pathHead {i : Nat} : '?' ∉ pathHead i [] := by
  simp [pathHead, List.mem_replicate]

/-- A `?` that ends a path without one lies in the third part or in the second segment. -/
theorem append_query_eq_pathHead {p q s third : List Char} {i : Nat} (hp : '?' ∉ p)
    (h : p ++ '?' :: q = pathHead i s ++ '/' :: third) :
    (∃ third', p = pathHead i s ++ '/' :: third' ∧ third = third' ++ '?' :: q) ∨
    ∃ s' a, p = pathHead i s' ∧ s = s' ++ '?' :: a ∧ q = a ++ '/' :: third := by
  rcases List.append_eq_append_iff.mp h with ⟨c, hhead, hq⟩ | ⟨c, rfl, hthird⟩
  · right
    cases c with
    | nil =>
      rw [List.nil_append] at hq
      exact absurd (List.cons.inj hq).1 (by decide)
    | cons x c =>
      obtain ⟨rfl, rfl⟩ := List.cons.inj hq
      -- the `?` is not in `database/`, so it is in the segment
      have hsplit : pathHead i [] ++ s = p ++ '?' :: c := by
        rw [← hhead, pathHead, pathHead, List.append_nil]
      rcases List.append_eq_append_iff.mp hsplit with ⟨s', rfl, rfl⟩ | ⟨d, hd, hs⟩
      · refine ⟨s', c, ?_, rfl, rfl⟩
        rw [pathHead, pathHead, List.append_nil]
      · cases d with
        | nil =>
          rw [List.append_nil] at hd
          exact ⟨[], c, hd.symm, hs.symm, rfl⟩
        | cons y d =>
          obtain ⟨rfl, -⟩ := List.cons.inj hs
          refine absurd ?_ (query_notMem_pathHead (i := i))
          rw [hd]
          simp
  · left
    cases c with
    | nil =>
      rw [List.nil_append] at hthird
      exact absurd (List.cons.inj hthird).1 (by decide)
    | cons x c =>
      obtain ⟨rfl, rfl⟩ := List.cons.inj hthird
      exact ⟨c, rfl, rfl⟩

/-- The name does not change when a query is added that does not name a module itself. -/
theorem moduleNameChars_append_query {p q : List Char} (hp : '?' ∉ p)
    (hq : ∀ i s a b, p = pathHead i s → '/' ∉ s → q = a ++ '/' :: b → '/' ∉ a → nameOf b = []) :
    moduleNameChars (p ++ '?' :: q) = moduleNameChars p := by
  refine Option.ext fun n => ?_
  rw [moduleNameChars_eq_some_iff_nameOf, moduleNameChars_eq_some_iff_nameOf]
  constructor
  · rintro ⟨i, s, third, heq, hs, hname, hne⟩
    rcases append_query_eq_pathHead hp heq with ⟨third', rfl, rfl⟩ | ⟨s', a, hp', rfl, rfl⟩
    · have hthird : '?' ∉ third' := fun h => hp (by simp [h])
      rw [nameOf_append_query hthird] at hname
      exact ⟨i, s, third', rfl, hs, hname, hne⟩
    · refine absurd ?_ hne
      rw [← hname]
      exact hq i s' a third hp' (fun h => hs (by simp [h])) rfl (fun h => hs (by simp [h]))
  · rintro ⟨i, s, third, rfl, hs, hname, hne⟩
    have hthird : '?' ∉ third := fun h => hp (by simp [h])
    refine ⟨i, s, third ++ '?' :: q, by simp, hs, ?_, hne⟩
    rw [nameOf_append_query hthird, hname]

/-- A query that names a module gives the path a name it does not have. -/
theorem moduleNameChars_query_names {s a b : List Char} (i : Nat) (hs : '/' ∉ s) (ha : '/' ∉ a)
    (hb : nameOf b ≠ []) :
    moduleNameChars (pathHead i s ++ '?' :: (a ++ '/' :: b)) = some (nameOf b) := by
  rw [moduleNameChars_eq_some_iff_nameOf]
  refine ⟨i, s ++ '?' :: a, b, ?_, ?_, rfl, hb⟩
  · simp [pathHead]
  · simp [hs, ha]

theorem extractModuleName_query_eq_iff {p : String} (q : String) (hp : '?' ∉ p.toList) :
    extractModuleName (p ++ "?" ++ q) = extractModuleName p ↔ ¬ QueryNamesModule p q := by
  have hchars : (p ++ "?" ++ q).toList = p.toList ++ '?' :: q.toList := by simp
  constructor
  · rintro h ⟨i, s, a, b, rfl, hs, rfl, ha, hb⟩
    rw [← nameOf_ne_nil_iff] at hb
    have hpath : (slashes i ++ "database/" ++ s).toList = pathHead i s.toList := by
      simp [pathHead, toList_slashes]
    have hquery : (a ++ "/" ++ b).toList = a.toList ++ '/' :: b.toList := by simp
    rw [extractModuleName, extractModuleName, hchars, hpath, hquery,
      moduleNameChars_query_names i hs ha hb, moduleNameChars_pathHead i hs] at h
    cases h
  · intro h
    rw [extractModuleName, extractModuleName, hchars, moduleNameChars_append_query hp]
    intro i s a b hpath hs hquery ha
    by_contra hb
    refine h ⟨i, String.ofList s, String.ofList a, String.ofList b, ?_, ?_, ?_, ?_, ?_⟩
    · rw [← String.toList_inj, hpath]
      simp [pathHead, toList_slashes]
    · rwa [String.toList_ofList]
    · rw [← String.toList_inj, hquery]
      simp
    · rwa [String.toList_ofList]
    · rwa [String.toList_ofList, ← nameOf_ne_nil_iff]

/-- **When the query string does not affect routing**: exactly when it does not name a module for
a path that stops before one. -/
theorem query_neutral_iff (p q : String) (hp : '?' ∉ p.toList) :
    (extractModuleName (p ++ "?" ++ q) = extractModuleName p ∧
      ∀ r : ShardRouter, r.shardOfPath (p ++ "?" ++ q) = r.shardOfPath p) ↔
    ¬ QueryNamesModule p q := by
  rw [← extractModuleName_query_eq_iff q hp]
  constructor
  · exact fun h => h.1
  · intro h
    refine ⟨h, fun r => ?_⟩
    rw [ShardRouter.shardOfPath, ShardRouter.shardOfPath, h]

/-- A query after a complete path is neutral, slashes and all. -/
theorem query_neutral_complete_path : ¬ QueryNamesModule "/database/subscribe/m" "x=/y?z" := by
  have hname : extractModuleName ("/database/subscribe/m" ++ "?" ++ "x=/y?z") =
      extractModuleName "/database/subscribe/m" := by decide
  refine (query_neutral_iff "/database/subscribe/m" "x=/y?z" (by decide)).mp ⟨hname, fun r => ?_⟩
  rw [ShardRouter.shardOfPath, ShardRouter.shardOfPath, hname]

/-- `/database/subscribe?a/b` goes to the shard of `b`, `/database/subscribe` to shard 0. -/
theorem query_routes_incomplete_path :
    '?' ∉ "/database/subscribe".toList ∧
    extractModuleName ("/database/subscribe" ++ "?" ++ "a/b") = some "b" ∧
    extractModuleName "/database/subscribe" = none ∧
    (ShardRouter.new.addRoute "b" 1).shardOfPath ("/database/subscribe" ++ "?" ++ "a/b") = 1 ∧
    (ShardRouter.new.addRoute "b" 1).shardOfPath "/database/subscribe" = 0 ∧
    ¬ ∀ p q : String, '?' ∉ p.toList →
      extractModuleName (p ++ "?" ++ q) = extractModuleName p ∧
      ∀ r : ShardRouter, r.shardOfPath (p ++ "?" ++ q) = r.shardOfPath p := by
  refine ⟨by decide, by decide, by decide, by decide, by decide, ?_⟩
  intro h
  have hname := (h "/database/subscribe" "a/b" (by decide)).1
  exact absurd hname (by decide)

end RaftTimeDB
