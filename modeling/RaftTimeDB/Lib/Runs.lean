import Mathlib.Data.List.Basic

/-!
# Runs of labelled transition functions

A system is a function `step : S → L → Option S`: the label resolves every choice of the
environment (which party moves, with which outcome), and `none` means that the move is not
enabled.  A run is a list of labels.

* `exec` — the state a run ends in, `none` if some move is not enabled.
* `Along C` — every move of the run meets `C` in the state before it.
* `Throughout P` — every state of the run, the first and the last included, satisfies `P`.
* `EachStep R` — every state of the run is related by `R` to the next one.
* `Ascends R` — every state of the run is related by `R` to every later one.
* `Reaches A` — some run whose labels all satisfy `A` leads from one state to another.

Principal results: `exec_inv` (invariants), `exec_inv_along` (invariants of the runs whose moves
all meet a condition), `throughout_iff_along` (a move keeps `P` exactly when it meets `C`, so
`P` holds in every state of a run exactly when every move of it meets `C`) and `ascends_iff_along`
(a run ascends in a preorder exactly when every single move does), `exec_simulation` (runs of one system
mirrored by runs of another).
-/

set_option autoImplicit false

namespace Runs

variable {S L : Type*} {step : S → L → Option S}

/-- The state after a list of moves; `none` if one of them is not enabled. -/
def exec (step : S → L → Option S) : S → List L → Option S
  | s, [] => some s
  | s, l :: ls => (step s l).bind fun s' => exec step s' ls

/-- Every move of the run meets `C` in the state before it. -/
def Along (step : S → L → Option S) (C : S → L → Prop) : S → List L → Prop
  | _, [] => True
  | s, l :: ls => C s l ∧ ∀ s', step s l = some s' → Along step C s' ls

/-- Every state of the run satisfies `P`. -/
def Throughout (step : S → L → Option S) (P : S → Prop) : S → List L → Prop
  | s, [] => P s
  | s, l :: ls => P s ∧ ∀ s', step s l = some s' → Throughout step P s' ls

/-- Every state of the run is related to every later one. -/
def Ascends (step : S → L → Option S) (R : S → S → Prop) (s : S) (ls : List L) : Prop :=
  ∀ ls₁ ls₂ ls₃ s₁ s₂, ls = ls₁ ++ ls₂ ++ ls₃ → exec step s ls₁ = some s₁ →
    exec step s₁ ls₂ = some s₂ → R s₁ s₂

/-- Every move of the run leads to a related state. -/
def EachStep (step : S → L → Option S) (R : S → S → Prop) : S → List L → Prop :=
  Along step fun s l => ∀ s', step s l = some s' → R s s'

instance decidableAlong (C : S → L → Prop) [∀ s l, Decidable (C s l)] :
    ∀ (s : S) (ls : List L), Decidable (Along step C s ls)
  | _, [] => isTrue trivial
  | s, l :: ls =>
      match h : step s l with
      | none =>
          decidable_of_iff (C s l)
            ⟨fun hC => ⟨hC, fun s' hs' => by rw [h] at hs'; cases hs'⟩, fun hA => hA.1⟩
      | some t =>
          have := decidableAlong C t ls
          decidable_of_iff (C s l ∧ Along step C t ls)
            ⟨fun hA => ⟨hA.1, fun s' hs' => by rw [h] at hs'; cases hs'; exact hA.2⟩,
              fun hA => ⟨hA.1, hA.2 t h⟩⟩

@[simp] theorem exec_nil (s : S) : exec step s [] = some s := rfl

theorem exec_cons_some {s s' : S} {l : L} {ls : List L} :
    exec step s (l :: ls) = some s' ↔ ∃ t, step s l = some t ∧ exec step t ls = some s' := by
  simp [exec, Option.bind_eq_some_iff]

theorem exec_append (s : S) (ls₁ ls₂ : List L) :
    exec step s (ls₁ ++ ls₂) = (exec step s ls₁).bind fun s' => exec step s' ls₂ := by
  induction ls₁ generalizing s with
  | nil => rfl
  | cons l ls ih =>
    simp only [List.cons_append, exec, Option.bind_assoc]
    congr 1
    funext s'
    exact ih s'

theorem exec_append_some {s s' : S} {ls₁ ls₂ : List L} :
    exec step s (ls₁ ++ ls₂) = some s' ↔
      ∃ t, exec step s ls₁ = some t ∧ exec step t ls₂ = some s' := by
  rw [exec_append, Option.bind_eq_some_iff]

/-- Checking a concrete run by evaluation. -/
theorem exists_exec {P : S → Prop} [DecidablePred P] {s : S} {ls : List L}
    (h : ((exec step s ls).any fun s' => decide (P s')) = true) :
    ∃ s', exec step s ls = some s' ∧ P s' := by
  obtain ⟨s', hs', hP⟩ := (Option.any_eq_true _ _).mp h
  exact ⟨s', hs', of_decide_eq_true hP⟩

/-- Checking where a concrete run ends by evaluation. -/
theorem exec_check {P : S → Prop} [DecidablePred P] {s s' : S} {ls : List L}
    (h : exec step s ls = some s') (hP : ((exec step s ls).all fun s' => decide (P s')) = true) :
    P s' := by
  rw [h, Option.all_some] at hP
  exact of_decide_eq_true hP

/-- **Invariant rule**: what every move preserves holds after every run. -/
theorem exec_inv {I : S → Prop} (hstep : ∀ s l s', I s → step s l = some s' → I s') :
    ∀ {ls : List L} {s s' : S}, I s → exec step s ls = some s' → I s'
  | [], s, s', hI, h => by
    simp only [exec_nil, Option.some.injEq] at h
    subst h
    exact hI
  | l :: ls, s, s', hI, h => by
    obtain ⟨t, ht, hrest⟩ := exec_cons_some.mp h
    exact exec_inv hstep (hstep s l t hI ht) hrest

/-- **Conditional invariant rule**: what every move that meets `C` preserves holds after every
run whose moves all meet `C`. -/
theorem exec_inv_along {I : S → Prop} {C : S → L → Prop}
    (hstep : ∀ s l s', I s → C s l → step s l = some s' → I s') :
    ∀ {ls : List L} {s s' : S}, I s → Along step C s ls → exec step s ls = some s' → I s'
  | [], s, s', hI, _, h => by
    simp only [exec_nil, Option.some.injEq] at h
    subst h
    exact hI
  | l :: ls, s, s', hI, hC, h => by
    obtain ⟨t, ht, hrest⟩ := exec_cons_some.mp h
    exact exec_inv_along hstep (hstep s l t hI hC.1 ht) (hC.2 t ht) hrest

/-- **Monotone rule**: if `P` survives exactly the moves that meet `C` and never comes back, then it
holds at the end of a run exactly when it held at the start and every move met `C`. -/
theorem exec_iff_along {P : S → Prop} {C : S → L → Prop}
    (hstep : ∀ s l s', step s l = some s' → (P s' ↔ P s ∧ C s l)) :
    ∀ {ls : List L} {s s' : S}, exec step s ls = some s' → (P s' ↔ P s ∧ Along step C s ls)
  | [], s, s', h => by
    simp only [exec_nil, Option.some.injEq] at h
    subst h
    exact ⟨fun hP => ⟨hP, trivial⟩, fun hP => hP.1⟩
  | l :: ls, s, s', h => by
    obtain ⟨t, ht, hrest⟩ := exec_cons_some.mp h
    rw [exec_iff_along hstep hrest, hstep s l t ht, and_assoc]
    refine and_congr_right fun _ => and_congr_right fun _ => ?_
    constructor
    · intro hall u hu
      obtain rfl : t = u := Option.some.inj (ht.symm.trans hu)
      exact hall
    · exact fun hall => hall t ht

/-- What never comes back held before, if it holds after a run. -/
theorem exec_back {P : S → Prop} (hback : ∀ s l s', step s l = some s' → P s' → P s) :
    ∀ {ls : List L} {s s' : S}, exec step s ls = some s' → P s' → P s
  | [], s, s', h, hP => by
    simp only [exec_nil, Option.some.injEq] at h
    subst h
    exact hP
  | l :: ls, s, s', h, hP => by
    obtain ⟨t, ht, hrest⟩ := exec_cons_some.mp h
    exact hback s l t ht (exec_back hback hrest hP)

/-- **Monotone rule under an invariant**: if the moves that meet `C` keep `I`, every other move out of
a state with `I` loses `P`, and `P` never comes back, then a run from a state with `I` ends with `P`
exactly when every move of it met `C`. -/
theorem exec_iff_along_of_inv {I P : S → Prop} {C : S → L → Prop} (hP : ∀ s, I s → P s)
    (hI : ∀ s l s', I s → C s l → step s l = some s' → I s')
    (hC : ∀ s l s', I s → step s l = some s' → P s' → C s l)
    (hback : ∀ s l s', step s l = some s' → P s' → P s) :
    ∀ {ls : List L} {s s' : S}, I s → exec step s ls = some s' → (P s' ↔ Along step C s ls)
  | [], s, s', hs, h => by
    simp only [exec_nil, Option.some.injEq] at h
    subst h
    exact iff_of_true (hP s hs) trivial
  | l :: ls, s, s', hs, h => by
    obtain ⟨t, ht, hrest⟩ := exec_cons_some.mp h
    constructor
    · intro hend
      have hl := hC s l t hs ht (exec_back hback hrest hend)
      refine ⟨hl, ?_⟩
      intro u hu
      obtain rfl : t = u := Option.some.inj (ht.symm.trans hu)
      exact (exec_iff_along_of_inv hP hI hC hback (hI s l t hs hl ht) hrest).mp hend
    · rintro ⟨hl, hall⟩
      exact (exec_iff_along_of_inv hP hI hC hback (hI s l t hs hl ht) hrest).mpr (hall t ht)

/-- Labels that meet `C` in every state. -/
theorem along_of_forall {C : S → L → Prop} :
    ∀ {ls : List L} {s : S}, (∀ l ∈ ls, ∀ s, C s l) → Along step C s ls
  | [], _, _ => trivial
  | l :: _, s, h => ⟨h l List.mem_cons_self s, fun _ _ =>
      along_of_forall fun l' hl' => h l' (List.mem_cons_of_mem _ hl')⟩

/-- What holds of every move out of an invariant state. -/
theorem along_of_inv {I : S → Prop} {C : S → L → Prop}
    (hI : ∀ s l s', I s → step s l = some s' → I s') (hC : ∀ s l, I s → C s l) :
    ∀ {ls : List L} {s : S}, I s → Along step C s ls
  | [], _, _ => trivial
  | l :: _, s, hs => ⟨hC s l hs, fun t ht => along_of_inv hI hC (hI s l t hs ht)⟩

/-- What holds of every chosen move out of a state that the chosen moves keep. -/
theorem along_of_moves {I : S → Prop} {A : L → Prop} {C : S → L → Prop}
    (hI : ∀ s l s', I s → A l → step s l = some s' → I s') (hC : ∀ s l, I s → A l → C s l) :
    ∀ {ls : List L} {s : S}, I s → (∀ l ∈ ls, A l) → Along step C s ls
  | [], _, _, _ => trivial
  | l :: _, s, hs, hA => ⟨hC s l hs (hA l List.mem_cons_self), fun t ht =>
      along_of_moves hI hC (hI s l t hs (hA l List.mem_cons_self) ht)
        fun l' hl' => hA l' (List.mem_cons_of_mem _ hl')⟩

/-- Two runs, one after the other. -/
theorem Along.append {C : S → L → Prop} :
    ∀ {ls₁ ls₂ : List L} {s : S}, Along step C s ls₁ →
      (∀ t, exec step s ls₁ = some t → Along step C t ls₂) → Along step C s (ls₁ ++ ls₂)
  | [], _, s, _, h => h s rfl
  | _ :: _, _, _, h₁, h₂ => ⟨h₁.1, fun _ ht =>
      Along.append (h₁.2 _ ht) fun _ hu => h₂ _ (exec_cons_some.mpr ⟨_, ht, hu⟩)⟩

/-- The second part of a run. -/
theorem Along.of_append {C : S → L → Prop} :
    ∀ {ls₁ ls₂ : List L} {s t : S}, Along step C s (ls₁ ++ ls₂) → exec step s ls₁ = some t →
      Along step C t ls₂
  | [], _, _, _, h, hexec => by
    simp only [exec_nil, Option.some.injEq] at hexec
    subst hexec
    exact h
  | _ :: _, _, _, _, h, hexec => by
    obtain ⟨u, hu, hrest⟩ := exec_cons_some.mp hexec
    exact Along.of_append (h.2 u hu) hrest

/-- The first part of a run. -/
theorem Along.left {C : S → L → Prop} :
    ∀ {ls₁ ls₂ : List L} {s : S}, Along step C s (ls₁ ++ ls₂) → Along step C s ls₁
  | [], _, _, _ => trivial
  | _ :: _, _, _, h => ⟨h.1, fun t ht => Along.left (h.2 t ht)⟩

/-- Two conditions that agree under an invariant of the moves that meet them. -/
theorem along_congr {I : S → Prop} {C C' : S → L → Prop}
    (hI : ∀ s l s', I s → C s l → step s l = some s' → I s') (hC : ∀ s l, I s → (C s l ↔ C' s l)) :
    ∀ {ls : List L} {s : S}, I s → (Along step C s ls ↔ Along step C' s ls)
  | [], _, _ => Iff.rfl
  | l :: ls, s, hs => by
    constructor
    · rintro ⟨hl, hrest⟩
      refine ⟨(hC s l hs).mp hl, ?_⟩
      intro t ht
      exact (along_congr hI hC (hI s l t hs hl ht)).mp (hrest t ht)
    · rintro ⟨hl, hrest⟩
      have hl' := (hC s l hs).mpr hl
      refine ⟨hl', ?_⟩
      intro t ht
      exact (along_congr hI hC (hI s l t hs hl' ht)).mpr (hrest t ht)

/-- A condition that implies another one in the states of an invariant. -/
theorem Along.imp_of_inv {I : S → Prop} {C C' : S → L → Prop}
    (hI : ∀ s l s', I s → step s l = some s' → I s') (hC : ∀ s l, I s → C s l → C' s l) :
    ∀ {ls : List L} {s : S}, I s → Along step C s ls → Along step C' s ls
  | [], _, _, _ => trivial
  | l :: _, s, hs, h => ⟨hC s l hs h.1, fun t ht =>
      Along.imp_of_inv hI hC (hI s l t hs ht) (h.2 t ht)⟩

/-- What the moves of a run preserve holds in every state of the run. -/
theorem throughout_of_along {I : S → Prop} {C : S → L → Prop}
    (hI : ∀ s l s', I s → C s l → step s l = some s' → I s') :
    ∀ {ls : List L} {s : S}, I s → Along step C s ls → Throughout step I s ls
  | [], _, hs, _ => hs
  | l :: _, s, hs, h => ⟨hs, fun t ht => throughout_of_along hI (hI s l t hs h.1 ht) (h.2 t ht)⟩

theorem Throughout.imp {P Q : S → Prop} (hPQ : ∀ s, P s → Q s) :
    ∀ {ls : List L} {s : S}, Throughout step P s ls → Throughout step Q s ls
  | [], s, h => hPQ s h
  | _ :: _, s, h => ⟨hPQ s h.1, fun t ht => Throughout.imp hPQ (h.2 t ht)⟩

theorem Throughout.head {P : S → Prop} {s : S} {ls : List L} (h : Throughout step P s ls) : P s := by
  cases ls with
  | nil => exact h
  | cons l ls => exact h.1

/-- The states of a run are the states its initial parts end in. -/
theorem throughout_iff_forall {P : S → Prop} {ls : List L} {s : S} :
    Throughout step P s ls ↔
      ∀ ls₁ ls₂ s', ls = ls₁ ++ ls₂ → exec step s ls₁ = some s' → P s' := by
  induction ls generalizing s with
  | nil =>
    constructor
    · rintro h ls₁ ls₂ s' hls hexec
      obtain ⟨rfl, rfl⟩ := List.append_eq_nil_iff.mp hls.symm
      simp only [exec_nil, Option.some.injEq] at hexec
      subst hexec
      exact h
    · intro h
      exact h [] [] s rfl rfl
  | cons l ls ih =>
    constructor
    · rintro ⟨h0, hrest⟩ ls₁ ls₂ s' hls hexec
      cases ls₁ with
      | nil =>
        simp only [exec_nil, Option.some.injEq] at hexec
        subst hexec
        exact h0
      | cons l' ls₁ =>
        rw [List.cons_append, List.cons.injEq] at hls
        obtain ⟨rfl, hls⟩ := hls
        obtain ⟨t, ht, hexec⟩ := exec_cons_some.mp hexec
        exact ih.mp (hrest t ht) ls₁ ls₂ s' hls hexec
    · intro h
      refine ⟨h [] (l :: ls) s rfl rfl, fun t ht => ih.mpr ?_⟩
      intro ls₁ ls₂ s' hls hexec
      exact h (l :: ls₁) ls₂ s' (by rw [hls, List.cons_append])
        (exec_cons_some.mpr ⟨t, ht, hexec⟩)

/-- **Exactness rule**: if, under an invariant, a move out of a state with `P` ends in a state
with `P` exactly when it meets `C`, then `P` holds in every state of a run exactly when every
move of the run meets `C`. -/
theorem throughout_iff_along {I P : S → Prop} {C : S → L → Prop}
    (hI : ∀ s l s', I s → step s l = some s' → I s')
    (hexact : ∀ s l s', I s → P s → step s l = some s' → (P s' ↔ C s l)) :
    ∀ {ls : List L} {s s' : S}, I s → P s → exec step s ls = some s' →
      (Throughout step P s ls ↔ Along step C s ls)
  | [], s, _, _, hP, _ => ⟨fun _ => trivial, fun _ => hP⟩
  | l :: ls, s, s', hIs, hP, h => by
    obtain ⟨t, ht, hrest⟩ := exec_cons_some.mp h
    have hstep := hexact s l t hIs hP ht
    have hIt := hI s l t hIs ht
    constructor
    · rintro ⟨_, hall⟩
      have hPt := (hall t ht).head
      refine ⟨hstep.mp hPt, ?_⟩
      intro u hu
      obtain rfl : t = u := Option.some.inj (ht.symm.trans hu)
      exact (throughout_iff_along hI hexact hIt hPt hrest).mp (hall t ht)
    · rintro ⟨hC, hall⟩
      have hPt := hstep.mpr hC
      refine ⟨hP, ?_⟩
      intro u hu
      obtain rfl : t = u := Option.some.inj (ht.symm.trans hu)
      exact (throughout_iff_along hI hexact hIt hPt hrest).mpr (hall t ht)

/-- The end of a run of ascending moves is above its start. -/
theorem exec_ascends {R : S → S → Prop} (hrefl : ∀ s, R s s)
    (htrans : ∀ s t u, R s t → R t u → R s u) :
    ∀ {ls : List L} {s s' : S}, EachStep step R s ls → exec step s ls = some s' → R s s'
  | [], s, s', _, h => by
    simp only [exec_nil, Option.some.injEq] at h
    subst h
    exact hrefl s
  | l :: ls, s, s', hall, h => by
    obtain ⟨t, ht, hrest⟩ := exec_cons_some.mp h
    exact htrans s t s' (hall.1 t ht) (exec_ascends hrefl htrans (hall.2 t ht) hrest)

/-- **Ascending runs**: for a preorder it is enough to look at single moves. -/
theorem ascends_iff_along {R : S → S → Prop} (hrefl : ∀ s, R s s)
    (htrans : ∀ s t u, R s t → R t u → R s u) {ls : List L} {s : S} :
    Ascends step R s ls ↔ EachStep step R s ls := by
  constructor
  · intro h
    induction ls generalizing s with
    | nil => exact trivial
    | cons l ls ih =>
      refine ⟨fun t ht => ?_, fun t ht => ih ?_⟩
      · exact h [] [l] ls s t rfl rfl (exec_cons_some.mpr ⟨t, ht, rfl⟩)
      · intro ls₁ ls₂ ls₃ s₁ s₂ hls h₁ h₂
        exact h (l :: ls₁) ls₂ ls₃ s₁ s₂ (by rw [hls]; rfl) (exec_cons_some.mpr ⟨t, ht, h₁⟩) h₂
  · rintro h ls₁ ls₂ ls₃ s₁ s₂ rfl h₁ h₂
    rw [List.append_assoc] at h
    exact exec_ascends hrefl htrans (Along.left (Along.of_append h h₁)) h₂

/-! ## Simulation -/

/-- **Simulation rule**: if related states stay related when each move is answered by a move it mirrors, then
every run is mirrored, move by move, by a run of the other system between related states. -/
theorem exec_simulation {T M : Type*} {step' : T → M → Option T} {R : S → T → Prop} {Mirrors : L → M → Prop}
    {A : L → Prop}
    (hstep : ∀ s l s' t, R s t → A l → step s l = some s' →
      ∃ m t', Mirrors l m ∧ step' t m = some t' ∧ R s' t') :
    ∀ {ls : List L} {s s' : S} {t : T}, R s t → (∀ l ∈ ls, A l) → exec step s ls = some s' →
      ∃ ms t', List.Forall₂ Mirrors ls ms ∧ exec step' t ms = some t' ∧ R s' t'
  | [], s, s', t, hR, _, h => by
    simp only [exec_nil, Option.some.injEq] at h
    subst h
    exact ⟨[], t, .nil, rfl, hR⟩
  | l :: ls, s, s', t, hR, hA, h => by
    obtain ⟨u, hu, hrest⟩ := exec_cons_some.mp h
    obtain ⟨m, t', hm, ht', hR'⟩ := hstep s l u t hR (hA l List.mem_cons_self) hu
    obtain ⟨ms, t'', hms, ht'', hR''⟩ :=
      exec_simulation hstep hR' (fun l' hl' => hA l' (List.mem_cons_of_mem _ hl')) hrest
    exact ⟨m :: ms, t'', .cons hm hms, exec_cons_some.mpr ⟨t', ht', ht''⟩, hR''⟩

/-! ## Reachability by chosen moves -/

/-- A run of moves that satisfy `A` leads from `s` to `s'`. -/
def Reaches (step : S → L → Option S) (A : L → Prop) (s s' : S) : Prop :=
  ∃ ls, (∀ l ∈ ls, A l) ∧ exec step s ls = some s'

namespace Reaches

variable {A : L → Prop} {s t u : S}

theorem refl (s : S) : Reaches step A s s := ⟨[], by simp, rfl⟩

theorem single {l : L} (hl : A l) (h : step s l = some t) : Reaches step A s t :=
  ⟨[l], by simpa using hl, exec_cons_some.mpr ⟨t, h, rfl⟩⟩

theorem trans (h₁ : Reaches step A s t) (h₂ : Reaches step A t u) : Reaches step A s u := by
  obtain ⟨ls₁, hA₁, h₁⟩ := h₁
  obtain ⟨ls₂, hA₂, h₂⟩ := h₂
  refine ⟨ls₁ ++ ls₂, ?_, exec_append_some.mpr ⟨t, h₁, h₂⟩⟩
  intro l hl
  rcases List.mem_append.mp hl with hl | hl
  · exact hA₁ l hl
  · exact hA₂ l hl

theorem head {l : L} (hl : A l) (h : step s l = some t) (hrest : Reaches step A t u) :
    Reaches step A s u :=
  (single hl h).trans hrest

theorem mono {B : L → Prop} (hAB : ∀ l, A l → B l) (h : Reaches step A s t) :
    Reaches step B s t := by
  obtain ⟨ls, hA, hexec⟩ := h
  exact ⟨ls, fun l hl => hAB l (hA l hl), hexec⟩

/-- What the chosen moves preserve holds wherever they lead. -/
theorem inv {I : S → Prop} (hstep : ∀ s l s', I s → A l → step s l = some s' → I s') (hs : I s)
    (h : Reaches step A s t) : I t := by
  obtain ⟨ls, hA, hexec⟩ := h
  exact exec_inv_along (C := fun _ l => A l) hstep hs (along_of_forall fun l hl _ => hA l hl) hexec

end Reaches

end Runs
