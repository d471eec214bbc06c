import Mathlib.Data.List.Basic
import Mathlib.Data.List.Forall2
import Mathlib.Data.List.Nodup
import Mathlib.Data.List.Perm.Basic
import Mathlib.Data.List.Induction

/-!
# Lists read by position

Facts about initial parts and segments of a list, about lists whose keys increase strictly, about the
order of first occurrences, and about lists related element by element.

Principal results: `filterMap_segment_eq_nil_iff` (a segment that contributes nothing),
`eq_of_increasing` (a strictly increasing list is determined by its elements) and
`eraseDups_eq_iff` (two lists have the same first occurrences, in the same order).
-/

set_option autoImplicit false

namespace Lists

variable {α β : Type*}

/-! ## Initial parts and segments -/

theorem take_succ_of_getElem? {l : List α} {k : Nat} {a : α} (h : l[k]? = some a) :
    l.take (k + 1) = l.take k ++ [a] := by
  rw [List.take_add_one, h, Option.toList_some]

theorem getElem?_of_initial {l₁ l₂ : List α} (h : l₁ <+: l₂) {k : Nat} {a : α}
    (ha : l₁[k]? = some a) : l₂[k]? = some a := by
  obtain ⟨rest, rfl⟩ := h
  rw [List.getElem?_append_left (List.getElem?_eq_some_iff.mp ha).1, ha]

/-- A list that starts at position `k` of another: its head stands there and the rest follows. -/
theorem cons_initial_drop {l rest : List α} {a : α} {k : Nat} (h : a :: rest <+: l.drop k) :
    l[k]? = some a ∧ rest <+: l.drop (k + 1) := by
  obtain ⟨tail, htail⟩ := h
  constructor
  · have hhead : (l.drop k)[0]? = some a := by
      rw [← htail]
      rfl
    rwa [List.getElem?_drop, Nat.add_zero] at hhead
  · refine ⟨tail, ?_⟩
    rw [← List.drop_drop, ← htail]
    rfl

/-- A segment contributes nothing exactly when none of its elements does. -/
theorem filterMap_segment_eq_nil_iff (f : α → Option β) (l : List α) (a b : Nat) :
    ((l.take b).drop a).filterMap f = [] ↔
      ∀ i x, a ≤ i → i < b → l[i]? = some x → f x = none := by
  rw [List.filterMap_eq_nil_iff]
  constructor
  · intro h i x hai hib hx
    refine h x (List.mem_iff_getElem?.mpr ⟨i - a, ?_⟩)
    rw [List.getElem?_drop, show a + (i - a) = i by omega, List.getElem?_take_of_lt hib]
    exact hx
  · intro h x hx
    obtain ⟨j, hj⟩ := List.mem_iff_getElem?.mp hx
    rw [List.getElem?_drop, List.getElem?_take] at hj
    split at hj
    · rename_i hlt
      exact h (a + j) x (Nat.le_add_right a j) hlt hj
    · cases hj

/-- An initial part of an initial part, completed. -/
theorem filterMap_take_split (f : α → Option β) (l : List α) {a b : Nat} (hab : a ≤ b) :
    (l.take b).filterMap f = (l.take a).filterMap f ++ ((l.take b).drop a).filterMap f := by
  rw [← List.filterMap_append]
  congr 1
  conv_lhs => rw [← List.take_append_drop a (l.take b)]
  rw [List.take_take, Nat.min_eq_left hab]

/-! ## Increasing keys -/

/-- A list whose keys increase strictly is determined by its elements. -/
theorem eq_of_increasing (key : α → Nat) {l₁ l₂ : List α}
    (h₁ : l₁.Pairwise fun a b => key a < key b) (h₂ : l₂.Pairwise fun a b => key a < key b)
    (hmem : ∀ a, a ∈ l₁ ↔ a ∈ l₂) : l₁ = l₂ := by
  have hne : ∀ {a b : α}, key a < key b → a ≠ b := by
    rintro a b hlt rfl
    exact Nat.lt_irrefl _ hlt
  have hperm : l₁.Perm l₂ :=
    (List.perm_ext_iff_of_nodup (h₁.imp hne) (h₂.imp hne)).mpr hmem
  refine List.Perm.eq_of_pairwise ?_ h₁ h₂ hperm
  intro a b _ _ hab hba
  exact absurd (Nat.lt_trans hab hba) (Nat.lt_irrefl _)

/-- An increasing list with the elements of an interval is the range. -/
theorem eq_range'_of_interval {l : List Nat} (h : l.Pairwise (· < ·)) {a b : Nat}
    (hmem : ∀ k, k ∈ l ↔ a ≤ k ∧ k < b) : l = List.range' a l.length := by
  have hrange : l = List.range' a (b - a) := by
    refine eq_of_increasing id h List.pairwise_lt_range' ?_
    intro k
    rw [hmem, List.mem_range'_1]
    omega
  rw [hrange, List.length_range']

/-- An increasing list is what it has below a bound, followed by the rest. -/
theorem increasing_split {l : List Nat} (h : l.Pairwise (· < ·)) (k : Nat) :
    l = l.filter (· < k) ++ l.filter (k ≤ ·) := by
  refine eq_of_increasing id h (List.pairwise_append.mpr ⟨h.filter _, h.filter _, ?_⟩) ?_
  · intro a ha b hb
    simp only [List.mem_filter, decide_eq_true_eq] at ha hb
    exact Nat.lt_of_lt_of_le ha.2 hb.2
  · intro i
    simp only [List.mem_append, List.mem_filter, decide_eq_true_eq, ← and_or_left]
    exact ⟨fun hi => ⟨hi, Nat.lt_or_ge i k⟩, fun hi => hi.1⟩

/-! ## First occurrences -/

variable [DecidableEq α]

theorem eraseDups_snoc (l : List α) (a : α) :
    (l ++ [a]).eraseDups = if a ∈ l.eraseDups then l.eraseDups else l.eraseDups ++ [a] := by
  rw [List.eraseDups_append]
  by_cases h : a ∈ l
  · simp [List.removeAll, h, List.mem_eraseDups]
  · simp [List.removeAll, h, List.mem_eraseDups, List.eraseDups_cons]

/-- `eraseDups` lists the elements by their first occurrence. -/
theorem eraseDups_increasing (l : List α) :
    l.eraseDups.Pairwise fun a b => l.idxOf a < l.idxOf b := by
  induction l using List.reverseRecOn with
  | nil => exact List.Pairwise.nil
  | append_singleton l a ih =>
    have hold : l.eraseDups.Pairwise fun x y => (l ++ [a]).idxOf x < (l ++ [a]).idxOf y := by
      refine ih.imp_of_mem fun {x y} hx hy hlt => ?_
      rw [List.mem_eraseDups] at hx hy
      rwa [List.idxOf_append_of_mem hx, List.idxOf_append_of_mem hy]
    rw [eraseDups_snoc]
    split
    · exact hold
    · rename_i hnew
      rw [List.mem_eraseDups] at hnew
      refine List.pairwise_append.mpr ⟨hold, List.pairwise_singleton _ _, ?_⟩
      intro x hx y hy
      rw [List.mem_singleton] at hy
      subst hy
      rw [List.mem_eraseDups] at hx
      rw [List.idxOf_append_of_mem hx, List.idxOf_append, if_neg hnew]
      have hlt := List.idxOf_lt_length_of_mem hx
      omega

theorem eraseDups_nodup (l : List α) : l.eraseDups.Nodup := by
  refine (eraseDups_increasing l).imp ?_
  rintro a b hlt rfl
  exact Nat.lt_irrefl _ hlt

theorem idxOf_lt_of_eraseDups {l : List α} {a b : α} (hb : b ∈ l)
    (h : l.eraseDups.idxOf a < l.eraseDups.idxOf b) : l.idxOf a < l.idxOf b := by
  have hlen := List.idxOf_lt_length_of_mem (List.mem_eraseDups.mpr hb)
  have hlt := List.pairwise_iff_getElem.mp (eraseDups_increasing l) _ _
    (Nat.lt_trans h hlen) hlen h
  rwa [List.getElem_idxOf, List.getElem_idxOf] at hlt

/-- Erasing duplicates keeps the order of first occurrences. -/
theorem idxOf_eraseDups_lt_iff {l : List α} {a b : α} (ha : a ∈ l) (hb : b ∈ l) :
    l.eraseDups.idxOf a < l.eraseDups.idxOf b ↔ l.idxOf a < l.idxOf b := by
  refine ⟨idxOf_lt_of_eraseDups hb, ?_⟩
  intro h
  rcases Nat.lt_trichotomy (l.eraseDups.idxOf a) (l.eraseDups.idxOf b) with hlt | heq | hgt
  · exact hlt
  · rw [(List.idxOf_inj (List.mem_eraseDups.mpr ha)).mp heq] at h
    exact absurd h (Nat.lt_irrefl _)
  · exact absurd (Nat.lt_trans h (idxOf_lt_of_eraseDups ha hgt)) (Nat.lt_irrefl _)

/-- **First occurrences agree** exactly when the lists have the same elements and any two of them
occur first in the same order. -/
theorem eraseDups_eq_iff {l₁ l₂ : List α} :
    l₁.eraseDups = l₂.eraseDups ↔
      (∀ a, a ∈ l₁ ↔ a ∈ l₂) ∧
      ∀ a ∈ l₁, ∀ b ∈ l₁, l₁.idxOf a < l₁.idxOf b → l₂.idxOf a < l₂.idxOf b := by
  constructor
  · intro h
    have hmem : ∀ a, a ∈ l₁ ↔ a ∈ l₂ := by
      intro a
      rw [← List.mem_eraseDups, h, List.mem_eraseDups]
    refine ⟨hmem, ?_⟩
    intro a ha b hb hlt
    rw [← idxOf_eraseDups_lt_iff ha hb, h] at hlt
    exact idxOf_lt_of_eraseDups ((hmem b).mp hb) hlt
  · rintro ⟨hmem, horder⟩
    -- both lists increase by first occurrence in `l₂`
    refine eq_of_increasing (fun a => l₂.idxOf a) ?_ (eraseDups_increasing l₂) ?_
    · refine (eraseDups_increasing l₁).imp_of_mem fun {a b} ha hb hlt => ?_
      exact horder a (List.mem_eraseDups.mp ha) b (List.mem_eraseDups.mp hb) hlt
    · intro a
      rw [List.mem_eraseDups, List.mem_eraseDups]
      exact hmem a

/-! ## Lists related element by element -/

section Forall₂

variable {α β : Type*} {R : α → β → Prop} {l : List α} {l' : List β}

theorem forall₂_getElem? (h : List.Forall₂ R l l') {i : Nat} {a : α} (ha : l[i]? = some a) :
    ∃ b, l'[i]? = some b ∧ R a b := by
  induction h generalizing i with
  | nil => cases ha
  | cons hab hrest ih =>
    cases i with
    | zero =>
      cases ha
      exact ⟨_, rfl, hab⟩
    | succ i => exact ih ha

theorem forall₂_set (h : List.Forall₂ R l l') (i : Nat) {a : α} {b : β} (hab : R a b) :
    List.Forall₂ R (l.set i a) (l'.set i b) := by
  induction h generalizing i with
  | nil => exact .nil
  | cons hhead hrest ih =>
    cases i with
    | zero => exact .cons hab hrest
    | succ i => exact .cons hhead (ih i)

end Forall₂

/-- Replacing one element changes a count by that element. -/
theorem countP_set {α : Type*} (p : α → Bool) {l : List α} {i : Nat} {a : α} (h : l[i]? = some a) (b : α) :
    (((l.set i b).countP p : Nat) : Int) =
      (l.countP p : Nat) - (if p a then 1 else 0) + (if p b then 1 else 0) := by
  induction l generalizing i with
  | nil => cases h
  | cons x l ih =>
    cases i with
    | zero =>
      obtain rfl : x = a := by simpa using h
      rw [List.set_cons_zero, List.countP_cons, List.countP_cons]
      cases p x <;> cases p b <;> simp
    | succ i =>
      have hrest := ih h
      simp only [List.set_cons_succ, List.countP_cons]
      omega

end Lists
