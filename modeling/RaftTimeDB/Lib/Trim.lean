import Mathlib.Data.List.DropRight

/-!
# Trimming and cutting lists

What is left of a list after trimming one element off an end, or after cutting it at the first
occurrence of an element, described by the shape of the list.

Principal results: `dropWhile_eq_iff`, `rdropWhile_eq_iff` and `takeWhile_eq_iff`, each of which
reads the result of the operation as a unique decomposition of its argument.
-/

set_option autoImplicit false

namespace Trim

variable {α : Type*} [DecidableEq α]

/-! ## Trimming the front -/

theorem dropWhile_replicate_append (a : α) (i : Nat) (l : List α) :
    (List.replicate i a ++ l).dropWhile (· == a) = l.dropWhile (· == a) := by
  refine List.dropWhile_append_of_pos ?_
  intro x hx
  rw [List.eq_of_mem_replicate hx]
  exact beq_self_eq_true a

theorem dropWhile_of_head {a : α} {l : List α} (h : l.head? ≠ some a) :
    l.dropWhile (· == a) = l := by
  cases l with
  | nil => rfl
  | cons x l =>
    have hx : x ≠ a := fun hxa => h (by rw [hxa, List.head?_cons])
    exact List.dropWhile_cons_of_neg (by simpa using hx)

/-- The trimmed list does not start with `a`, and only copies of `a` went. -/
theorem dropWhile_eq_iff (a : α) (l m : List α) :
    l.dropWhile (· == a) = m ↔ (∃ i, l = List.replicate i a ++ m) ∧ m.head? ≠ some a := by
  constructor
  · rintro rfl
    induction l with
    | nil => exact ⟨⟨0, rfl⟩, by simp⟩
    | cons x l ih =>
      obtain ⟨⟨i, hi⟩, hhead⟩ := ih
      by_cases hx : x = a
      · subst hx
        have hdrop : (x :: l).dropWhile (· == x) = l.dropWhile (· == x) :=
          List.dropWhile_cons_of_pos (beq_self_eq_true x)
        rw [hdrop]
        refine ⟨⟨i + 1, ?_⟩, hhead⟩
        rw [List.replicate_succ, List.cons_append, ← hi]
      · rw [List.dropWhile_cons_of_neg (by simpa using hx)]
        exact ⟨⟨0, rfl⟩, by simpa using hx⟩
  · rintro ⟨⟨i, rfl⟩, hhead⟩
    rw [dropWhile_replicate_append, dropWhile_of_head hhead]

/-! ## Trimming the end -/

/-- The trimmed list does not end in `a`, and only copies of `a` went. -/
theorem rdropWhile_eq_iff (a : α) (l m : List α) :
    l.rdropWhile (· == a) = m ↔ (∃ j, l = m ++ List.replicate j a) ∧ m.getLast? ≠ some a := by
  have hrev : l.rdropWhile (· == a) = m ↔ l.reverse.dropWhile (· == a) = m.reverse := by
    rw [List.rdropWhile, List.reverse_eq_iff]
  rw [hrev, dropWhile_eq_iff, List.head?_reverse]
  refine and_congr_left fun _ => exists_congr fun j => ?_
  rw [List.reverse_eq_iff, List.reverse_append, List.reverse_reverse, List.reverse_replicate]

/-! ## Cutting at the first occurrence -/

theorem notMem_takeWhile (a : α) (l : List α) : a ∉ l.takeWhile (· != a) := by
  intro hmem
  have hne := List.mem_takeWhile_imp hmem
  simp at hne

theorem takeWhile_of_notMem {a : α} {m : List α} (h : a ∉ m) (t : List α) :
    (m ++ t).takeWhile (· != a) = m ++ t.takeWhile (· != a) := by
  refine List.takeWhile_append_of_pos ?_
  intro x hx
  have hxa : x ≠ a := fun hxa => h (hxa ▸ hx)
  simpa using hxa

/-- The part before the first `a`: it has no `a`, and the rest is empty or starts with `a`. -/
theorem takeWhile_eq_iff (a : α) (l m : List α) :
    l.takeWhile (· != a) = m ↔ a ∉ m ∧ ∃ t, l = m ++ t ∧ (t = [] ∨ t.head? = some a) := by
  constructor
  · rintro rfl
    refine ⟨notMem_takeWhile a l, l.dropWhile (· != a), ?_, ?_⟩
    · exact List.takeWhile_append_dropWhile.symm
    · cases hrest : l.dropWhile (· != a) with
      | nil => exact .inl rfl
      | cons x t =>
        have hhead := List.head?_dropWhile_not (· != a) l
        rw [hrest, List.head?_cons] at hhead
        refine .inr ?_
        simpa using hhead
  · rintro ⟨hm, t, rfl, ht⟩
    have hcut : t.takeWhile (· != a) = [] := by
      rcases ht with rfl | ht
      · rfl
      · obtain ⟨t, rfl⟩ := List.head?_eq_some_iff.mp ht
        exact List.takeWhile_cons_of_neg (by simp)
    rw [takeWhile_of_notMem hm, hcut, List.append_nil]

/-! ## Cutting at the last occurrence -/

/-- What follows the last `a` has no `a`, and so the two parts are unique. -/
theorem append_cons_inj {a : α} {x y d d' : List α} (hd : a ∉ d) (hd' : a ∉ d')
    (h : x ++ a :: d = y ++ a :: d') : x = y ∧ d = d' := by
  have hrev : d.reverse ++ a :: x.reverse = d'.reverse ++ a :: y.reverse := by
    have := congrArg List.reverse h
    simpa using this
  have hcut : ∀ {c t : List α}, a ∉ c → (c.reverse ++ a :: t).takeWhile (· != a) = c.reverse := by
    intro c t hc
    refine (takeWhile_eq_iff a _ _).mpr ⟨by simpa using hc, a :: t, rfl, .inr rfl⟩
  have heq : d = d' := List.reverse_injective (by rw [← hcut hd, hrev, hcut hd'])
  subst heq
  exact ⟨List.append_cancel_right h, rfl⟩

end Trim
