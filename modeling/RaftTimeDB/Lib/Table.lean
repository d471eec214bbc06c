import Mathlib.Data.List.Nodup

/-!
# Ordered tables

A table maps natural-number keys to values and is read in key order.  It is its list of rows, and it
carries the proof that the keys increase strictly, so a key has at most one row.

* `insert` adds a row or replaces the row of its key; `filter` keeps the rows whose key passes a
  test; `removeAll` removes keys one by one; `range` lists the values of the keys that pass a test,
  in key order; `last` is the row with the greatest key.
* `map` rewrites the values and keeps the keys.

Principal results: `mem_insert`, `mem_filter`, `mem_removeAll` — which rows a table has afterwards;
`map_insert`, `map_removeAll`, `keys_map`, `range_map`, `last_map` — rewriting the values commutes
with every operation; `last_spec` — the last row has the greatest key.
-/

set_option autoImplicit false

@[ext] structure Table (V : Type*) where
  rows : List (Nat × V)
  sorted : rows.Pairwise fun a b => a.1 < b.1

namespace Table

variable {V : Type*}

def empty : Table V := ⟨[], List.Pairwise.nil⟩

/-- Put a row where its key belongs. -/
def insertRow (k : Nat) (v : V) : List (Nat × V) → List (Nat × V)
  | [] => [(k, v)]
  | r :: rs =>
      if k < r.1 then (k, v) :: r :: rs
      else if k = r.1 then (k, v) :: rs
      else r :: insertRow k v rs

theorem mem_insertRow {k : Nat} {v : V} {rows : List (Nat × V)}
    (h : rows.Pairwise fun a b => a.1 < b.1) (x : Nat × V) :
    x ∈ insertRow k v rows ↔ x = (k, v) ∨ (x.1 ≠ k ∧ x ∈ rows) := by
  induction rows with
  | nil => simp [insertRow]
  | cons r rs ih =>
    rw [List.pairwise_cons] at h
    have hlater : x ∈ rs → r.1 < x.1 := h.1 x
    by_cases hlt : k < r.1
    · -- every row comes after the new key
      have hne : x ∈ r :: rs → x.1 ≠ k := by
        intro hx
        rcases List.mem_cons.mp hx with rfl | hx
        · omega
        · have := hlater hx
          omega
      simp only [insertRow, hlt, if_true, List.mem_cons (b := (k, v))]
      exact or_congr_right ⟨fun hx => ⟨hne hx, hx⟩, And.right⟩
    · by_cases heq : k = r.1
      · have hne : x ∈ rs → x.1 ≠ k := fun hx => by
          have := hlater hx
          omega
        simp only [insertRow, heq, if_true, if_false, Nat.lt_irrefl, List.mem_cons]
        rw [heq] at hne
        constructor
        · rintro (hx | hx)
          · exact Or.inl hx
          · exact Or.inr ⟨hne hx, Or.inr hx⟩
        · rintro (hx | ⟨hxk, rfl | hx⟩)
          · exact Or.inl hx
          · exact absurd rfl hxk
          · exact Or.inr hx
      · simp only [insertRow, hlt, heq, if_false, List.mem_cons, ih h.2]
        constructor
        · rintro (rfl | hx | hx)
          · exact Or.inr ⟨fun hk => heq hk.symm, Or.inl rfl⟩
          · exact Or.inl hx
          · exact Or.inr ⟨hx.1, Or.inr hx.2⟩
        · rintro (hx | ⟨hxk, rfl | hx⟩)
          · exact Or.inr (Or.inl hx)
          · exact Or.inl rfl
          · exact Or.inr (Or.inr ⟨hxk, hx⟩)

theorem insertRow_sorted {k : Nat} {v : V} {rows : List (Nat × V)}
    (h : rows.Pairwise fun a b => a.1 < b.1) :
    (insertRow k v rows).Pairwise fun a b => a.1 < b.1 := by
  induction rows with
  | nil => simp [insertRow]
  | cons r rs ih =>
    have hcons := List.pairwise_cons.mp h
    by_cases hlt : k < r.1
    · simp only [insertRow, hlt, if_true]
      refine List.pairwise_cons.mpr ⟨?_, h⟩
      intro x hx
      rcases List.mem_cons.mp hx with rfl | hx
      · exact hlt
      · exact Nat.lt_trans hlt (hcons.1 x hx)
    · by_cases heq : k = r.1
      · simp only [insertRow, hlt, if_false, if_pos heq]
        refine List.pairwise_cons.mpr ⟨?_, hcons.2⟩
        intro x hx
        rw [heq]
        exact hcons.1 x hx
      · simp only [insertRow, hlt, heq, if_false]
        refine List.pairwise_cons.mpr ⟨?_, ih hcons.2⟩
        intro x hx
        rcases (mem_insertRow hcons.2 x).mp hx with rfl | ⟨_, hx⟩
        · show r.1 < k
          omega
        · exact hcons.1 x hx

def insert (t : Table V) (k : Nat) (v : V) : Table V :=
  ⟨insertRow k v t.rows, insertRow_sorted t.sorted⟩

/-- Keep the rows whose key passes the test. -/
def filter (t : Table V) (p : Nat → Bool) : Table V :=
  ⟨t.rows.filter fun r => p r.1, t.sorted.filter _⟩

def remove (t : Table V) (k : Nat) : Table V := t.filter fun k' => k' != k

def removeAll (t : Table V) (keys : List Nat) : Table V := keys.foldl remove t

/-- The keys that pass the test, in order. -/
def keys (t : Table V) (p : Nat → Bool) : List Nat := (t.filter p).rows.map Prod.fst

/-- The values of the keys that pass the test, in key order. -/
def range (t : Table V) (p : Nat → Bool) : List V := (t.filter p).rows.map Prod.snd

def last (t : Table V) : Option (Nat × V) := t.rows.getLast?

theorem mem_insert (t : Table V) (k : Nat) (v : V) (x : Nat × V) :
    x ∈ (t.insert k v).rows ↔ x = (k, v) ∨ (x.1 ≠ k ∧ x ∈ t.rows) :=
  mem_insertRow t.sorted x

@[simp] theorem mem_filter (t : Table V) (p : Nat → Bool) (x : Nat × V) :
    x ∈ (t.filter p).rows ↔ x ∈ t.rows ∧ p x.1 = true := by
  simp [filter]

theorem mem_removeAll (t : Table V) (ks : List Nat) (x : Nat × V) :
    x ∈ (t.removeAll ks).rows ↔ x ∈ t.rows ∧ x.1 ∉ ks := by
  induction ks generalizing t with
  | nil => simp [removeAll]
  | cons k ks ih =>
    have hcons : t.removeAll (k :: ks) = (t.remove k).removeAll ks := rfl
    rw [hcons, ih, remove, mem_filter]
    simp [and_assoc]

/-- Removing the keys that pass a test leaves the rows that do not. -/
theorem mem_removeAll_keys (t : Table V) (p : Nat → Bool) (x : Nat × V) :
    x ∈ (t.removeAll (t.keys p)).rows ↔ x ∈ t.rows ∧ p x.1 = false := by
  rw [mem_removeAll]
  refine and_congr_right ?_
  intro hx
  rw [← Bool.not_eq_true, not_iff_not, keys, List.mem_map]
  constructor
  · rintro ⟨r, hr, hkey⟩
    rw [mem_filter] at hr
    rw [← hkey]
    exact hr.2
  · intro hp
    exact ⟨x, (t.mem_filter p x).mpr ⟨hx, hp⟩, rfl⟩

/-- A key has at most one row. -/
theorem row_unique (t : Table V) {x y : Nat × V} (hx : x ∈ t.rows) (hy : y ∈ t.rows)
    (h : x.1 = y.1) : x = y := by
  have hnodup : (t.rows.map Prod.fst).Nodup :=
    List.pairwise_map.mpr (t.sorted.imp fun hlt => Nat.ne_of_lt hlt)
  exact List.inj_on_of_nodup_map hnodup hx hy h

/-- The last row is a row, and no key is greater than its key. -/
theorem last_spec {t : Table V} {r : Nat × V} (h : t.last = some r) :
    r ∈ t.rows ∧ ∀ x ∈ t.rows, x.1 ≤ r.1 := by
  have hrows : t.rows = t.rows.dropLast ++ [r] := (List.dropLast_append_getLast? r h).symm
  have hsorted := t.sorted
  rw [hrows, List.pairwise_append] at hsorted
  refine ⟨List.mem_of_getLast? h, ?_⟩
  intro x hx
  rw [hrows] at hx
  rcases List.mem_append.mp hx with hbefore | hlast
  · exact Nat.le_of_lt (hsorted.2.2 x hbefore r (List.mem_singleton_self r))
  · rw [List.mem_singleton] at hlast
    exact Nat.le_of_eq (congrArg Prod.fst hlast)

theorem last_eq_none_iff {t : Table V} : t.last = none ↔ t.rows = [] :=
  List.getLast?_eq_none_iff

/-! ## Rewriting the values -/

variable {W : Type*}

/-- The same keys with rewritten values. -/
def map (f : V → W) (t : Table V) : Table W :=
  ⟨t.rows.map fun r => (r.1, f r.2), List.pairwise_map.mpr t.sorted⟩

@[simp] theorem map_empty (f : V → W) : (empty : Table V).map f = empty := rfl

theorem map_insertRow (f : V → W) (k : Nat) (v : V) (rows : List (Nat × V)) :
    (insertRow k v rows).map (fun r => (r.1, f r.2)) =
      insertRow k (f v) (rows.map fun r => (r.1, f r.2)) := by
  induction rows with
  | nil => rfl
  | cons r rs ih =>
    simp only [insertRow, List.map_cons]
    split
    · rfl
    · split
      · rfl
      · rw [List.map_cons, ih]

@[simp] theorem map_insert (f : V → W) (t : Table V) (k : Nat) (v : V) :
    (t.insert k v).map f = (t.map f).insert k (f v) :=
  Table.ext (map_insertRow f k v t.rows)

@[simp] theorem map_filter (f : V → W) (t : Table V) (p : Nat → Bool) :
    (t.filter p).map f = (t.map f).filter p := by
  refine Table.ext ?_
  simp [map, filter, List.filter_map, Function.comp_def]

@[simp] theorem map_removeAll (f : V → W) (t : Table V) (ks : List Nat) :
    (t.removeAll ks).map f = (t.map f).removeAll ks := by
  induction ks generalizing t with
  | nil => rfl
  | cons k ks ih =>
    have hcons : t.removeAll (k :: ks) = (t.remove k).removeAll ks := rfl
    rw [hcons, ih, remove, map_filter]
    rfl

@[simp] theorem keys_map (f : V → W) (t : Table V) (p : Nat → Bool) :
    (t.map f).keys p = t.keys p := by
  rw [keys, keys, ← map_filter]
  simp [map, Function.comp_def]

@[simp] theorem range_map (f : V → W) (t : Table V) (p : Nat → Bool) :
    (t.map f).range p = (t.range p).map f := by
  rw [range, range, ← map_filter]
  simp [map, Function.comp_def]

@[simp] theorem last_map (f : V → W) (t : Table V) :
    (t.map f).last = t.last.map fun r => (r.1, f r.2) := by
  simp [last, map]

end Table
