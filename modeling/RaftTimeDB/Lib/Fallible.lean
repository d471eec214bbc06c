import Mathlib.Logic.Basic

/-!
# Calls that can fail

A call runs on a state and returns a value or an error; what it did to the state before an error
stays.  `Triple P x Q E`: from a state with `P`, the call `x` returns a value with `Q` or fails
with `E`.

Principal results: the rules `Triple.ofPure`, `Triple.ofModify`, `Triple.ofGet`, `Triple.ofFailIf`,
`Triple.bind`, `Triple.ignore` and `Triple.conseq`, one for each way a call is put together.
-/

set_option autoImplicit false

/-- A call with errors `ε` on a state `σ`. -/
abbrev Call (ε σ : Type) := ExceptT ε (StateM σ)

namespace Call

variable {ε σ α β : Type}

/-- The answer of a call and the state it leaves. -/
def exec (x : Call ε σ α) (s : σ) : Except ε α × σ := StateT.run (ExceptT.run x) s

/-- Fail with `e` if the test holds. -/
def failIf (fails : Bool) (e : ε) : Call ε σ Unit := if fails then throw e else pure ()

/-- Run the call and drop its answer, an error included. -/
def ignore (x : Call ε σ α) : Call ε σ Unit :=
  ExceptT.mk (ExceptT.run x >>= fun _ => pure (.ok ()))

theorem exec_pure (a : α) (s : σ) : (pure a : Call ε σ α).exec s = (.ok a, s) := rfl

theorem exec_modify (f : σ → σ) (s : σ) : (modify f : Call ε σ PUnit).exec s = (.ok ⟨⟩, f s) := rfl

theorem exec_get (s : σ) : (get : Call ε σ σ).exec s = (.ok s, s) := rfl

theorem exec_bind (x : Call ε σ α) (f : α → Call ε σ β) (s : σ) :
    (x >>= f).exec s =
      match x.exec s with
      | (.ok a, s') => (f a).exec s'
      | (.error e, s') => (.error e, s') := by
  show (ExceptT.bindCont f (x.exec s).1 : StateM σ _).run (x.exec s).2 = _
  cases x.exec s with
  | mk answer s' => cases answer <;> rfl

theorem exec_failIf (fails : Bool) (e : ε) (s : σ) :
    (failIf fails e : Call ε σ Unit).exec s = (if fails then .error e else .ok (), s) := by
  cases fails <;> rfl

theorem exec_ignore (x : Call ε σ α) (s : σ) : (ignore x).exec s = (.ok (), (x.exec s).2) := rfl

/-! ## Pre- and postconditions -/

/-- From a state with `P`, the call returns with `Q` or fails with `E`. -/
def Triple (P : σ → Prop) (x : Call ε σ α) (Q : α → σ → Prop) (E : ε → σ → Prop) : Prop :=
  ∀ s, P s →
    match x.exec s with
    | (.ok a, s') => Q a s'
    | (.error e, s') => E e s'

namespace Triple

variable {P : σ → Prop} {E : ε → σ → Prop} {Q : α → σ → Prop} {R : β → σ → Prop}
  {x : Call ε σ α} {f : α → Call ε σ β}

theorem ofPure {a : α} (h : ∀ s, P s → Q a s) : Triple P (pure a) Q E := by
  intro s hs
  rw [exec_pure]
  exact h s hs

theorem ofModify {g : σ → σ} {Q : PUnit → σ → Prop} (h : ∀ s, P s → Q ⟨⟩ (g s)) :
    Triple P (modify g) Q E := by
  intro s hs
  rw [exec_modify]
  exact h s hs

theorem ofGet {Q : σ → σ → Prop} (h : ∀ s, P s → Q s s) : Triple P get Q E := by
  intro s hs
  rw [exec_get]
  exact h s hs

/-- What a test leaves is known on both ways out of it. -/
theorem ofFailIf {fails : Bool} {e : ε} {Q : Unit → σ → Prop}
    (hok : fails = false → ∀ s, P s → Q () s) (herr : fails = true → ∀ s, P s → E e s) :
    Triple P (failIf fails e) Q E := by
  intro s hs
  rw [exec_failIf]
  cases fails with
  | false => exact hok rfl s hs
  | true => exact herr rfl s hs

theorem bind (hx : Triple P x Q E) (hf : ∀ a, Triple (Q a) (f a) R E) :
    Triple P (x >>= f) R E := by
  intro s hs
  have hfirst := hx s hs
  rw [exec_bind]
  cases hexec : x.exec s with
  | mk answer s' =>
    rw [hexec] at hfirst
    cases answer with
    | ok a => exact hf a s' hfirst
    | error e => exact hfirst

/-- An ignored call does not fail, and its error counts as an answer. -/
theorem ignore {Q : Unit → σ → Prop} (hx : Triple P x (fun _ => Q ()) (fun _ => Q ())) :
    Triple P (Call.ignore x) Q E := by
  intro s hs
  have hinner := hx s hs
  rw [exec_ignore]
  cases hexec : x.exec s with
  | mk answer s' =>
    rw [hexec] at hinner
    cases answer <;> exact hinner

/-- A weaker postcondition. -/
theorem conseq {Q' : α → σ → Prop} (h : Triple P x Q E) (hQ : ∀ a s, Q a s → Q' a s) :
    Triple P x Q' E := by
  intro s hs
  have hx := h s hs
  split at hx
  · exact hQ _ _ hx
  · exact hx

/-- A fact that does not depend on the state may be assumed. -/
theorem given {c : Prop} (h : c → Triple P x Q E) : Triple (fun s => c ∧ P s) x Q E :=
  fun s hs => h hs.1 s hs.2

theorem of_exec_ok (h : Triple P x Q E) {s s' : σ} {a : α} (hs : P s)
    (hexec : x.exec s = (.ok a, s')) : Q a s' := by
  have hx := h s hs
  rwa [hexec] at hx

theorem of_exec_error (h : Triple P x Q E) {s s' : σ} {e : ε} (hs : P s)
    (hexec : x.exec s = (.error e, s')) : E e s' := by
  have hx := h s hs
  rwa [hexec] at hx

end Triple

end Call
