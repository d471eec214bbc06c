import Mathlib.Data.List.Induction
import RaftTimeDB.Lib.Runs

/-!
# Transactions and crashes

A process changes a durable state through operations.  An operation is one transaction: it works on a
view of the durable state, write by write, and the commit makes the view durable at once.  A crash may
come between any two moves; it discards an uncommitted view, and the process is opened again later.

* `Machine` — the durable state, where the process stands, and the operations so far, each either
  `completed` or `cut` by a crash.
* `Explains` — a durable state comes from the history: every completed operation took effect, and
  every cut one took effect or left no trace.

Principal results: `explained` — every durable state is explained by its history; `atomic` — an
operation, however far it gets, leaves the durable state of before or after it; `returned` — once it
has returned, the one of after it; `Explains.exists_outcome` — what operations make of an abstract value
of the durable state.
-/

set_option autoImplicit false

namespace Txn

variable {S O W : Type*}

/-- How operations change the durable state, when they are called, and what opening it does. -/
structure System (S O W : Type*) where
  write : S → W → S
  /-- the writes of an operation that starts on this state -/
  plan : S → O → List W
  Allowed : S → O → Prop
  decAllowed : ∀ s op, Decidable (Allowed s op)
  reopen : S → S

/-- The whole operation. -/
def System.run (sys : System S O W) (s : S) (op : O) : S := (sys.plan s op).foldl sys.write s

inductive Fate where
  | completed
  | cut
  deriving DecidableEq, Repr

inductive Phase (S O W : Type*) where
  | down
  | idle
  /-- inside the transaction, with the writes still to be made -/
  | writing (op : O) (view : S) (todo : List W)
  /-- committed, not yet returned -/
  | committed (op : O)

instance (phase : Phase S O W) : Decidable (phase = .idle) :=
  match phase with
  | .idle => isTrue rfl
  | .down => isFalse nofun
  | .writing _ _ _ => isFalse nofun
  | .committed _ => isFalse nofun

structure Machine (S O W : Type*) where
  durable : S
  phase : Phase S O W
  history : List (O × Fate)

/-- A process that has just opened the state. -/
def Machine.start (s : S) : Machine S O W := ⟨s, .idle, []⟩

inductive Move (O : Type*) where
  | call (op : O)
  | write
  | commit
  | finish
  | crash
  | reopen

/-- The operation a crash cuts. -/
def Phase.op? : Phase S O W → Option O
  | .writing op _ _ => some op
  | .committed op => some op
  | _ => none

def System.step (sys : System S O W) (m : Machine S O W) : Move O → Option (Machine S O W)
  | .call op =>
      match m.phase with
      | .idle =>
          match sys.decAllowed m.durable op with
          | isTrue _ => some { m with phase := .writing op m.durable (sys.plan m.durable op) }
          | isFalse _ => none
      | _ => none
  | .write =>
      match m.phase with
      | .writing op view (w :: todo) => some { m with phase := .writing op (sys.write view w) todo }
      | _ => none
  | .commit =>
      match m.phase with
      | .writing op view [] => some { m with durable := view, phase := .committed op }
      | _ => none
  | .finish =>
      match m.phase with
      | .committed op =>
          some { m with phase := .idle, history := m.history ++ [(op, .completed)] }
      | _ => none
  | .crash =>
      match m.phase with
      | .down => none
      | phase =>
          some { m with
            phase := .down
            history := m.history ++ phase.op?.toList.map fun op => (op, .cut) }
  | .reopen =>
      match m.phase with
      | .down => some { m with durable := sys.reopen m.durable, phase := .idle }
      | _ => none

/-- The operations so far, with the one in progress cut, as a crash would cut it now. -/
def Machine.events (m : Machine S O W) : List (O × Fate) :=
  m.history ++ m.phase.op?.toList.map fun op => (op, .cut)

/-- The durable state that a history of operations leaves of `s₀`. -/
inductive Explains (sys : System S O W) (s₀ : S) : List (O × Fate) → S → Prop where
  | nil : Explains sys s₀ [] s₀
  | completed {history : List (O × Fate)} {s : S} {op : O} :
      Explains sys s₀ history s → sys.Allowed s op →
        Explains sys s₀ (history ++ [(op, .completed)]) (sys.run s op)
  | kept {history : List (O × Fate)} {s : S} {op : O} :
      Explains sys s₀ history s → sys.Allowed s op →
        Explains sys s₀ (history ++ [(op, .cut)]) (sys.run s op)
  | dropped {history : List (O × Fate)} {s : S} {op : O} :
      Explains sys s₀ history s → Explains sys s₀ (history ++ [(op, .cut)]) s

/-- What allowed operations preserve holds of every explained state. -/
theorem Explains.inv {sys : System S O W} {I : S → Prop} {s₀ s : S} {history : List (O × Fate)}
    (hrun : ∀ s op, I s → sys.Allowed s op → I (sys.run s op)) (h₀ : I s₀)
    (h : Explains sys s₀ history s) : I s := by
  induction h with
  | nil => exact h₀
  | completed _ hallowed ih => exact hrun _ _ ih hallowed
  | kept _ hallowed ih => exact hrun _ _ ih hallowed
  | dropped _ ih => exact ih

/-- The durable state before the operation in progress. -/
structure Machine.Explained (sys : System S O W) (s₀ : S) (m : Machine S O W) (before : S) :
    Prop where
  explains : Explains sys s₀ m.history before
  phase : match m.phase with
    | .writing op view todo =>
        m.durable = before ∧ sys.Allowed before op ∧ todo.foldl sys.write view = sys.run before op
    | .committed op => sys.Allowed before op ∧ m.durable = sys.run before op
    | _ => m.durable = before

section

variable {sys : System S O W} {I : S → Prop} {s₀ : S}

/-- **One move**: the history goes on explaining the durable state, provided that opening a state in
use changes nothing. -/
theorem step_explained (hrun : ∀ s op, I s → sys.Allowed s op → I (sys.run s op)) (h₀ : I s₀)
    (hreopen : ∀ s, I s → sys.reopen s = s) {m m' : Machine S O W} {move : Move O}
    (hm : ∃ before, m.Explained sys s₀ before) (h : sys.step m move = some m') :
    ∃ before, m'.Explained sys s₀ before := by
  obtain ⟨before, hexplains, hphase⟩ := hm
  cases move with
  | call op =>
    simp only [System.step] at h
    split at h
    · rename_i hidle
      rw [hidle] at hphase
      split at h
      · rename_i hallowed _
        cases h
        rw [hphase] at hallowed
        exact ⟨before, hexplains, hphase, hallowed, by rw [hphase]; rfl⟩
      · cases h
    · cases h
  | write =>
    simp only [System.step] at h
    split at h
    · rename_i op view w todo hwriting
      rw [hwriting] at hphase
      cases h
      exact ⟨before, hexplains, hphase.1, hphase.2.1, hphase.2.2⟩
    · cases h
  | commit =>
    simp only [System.step] at h
    split at h
    · rename_i op view hwriting
      rw [hwriting] at hphase
      cases h
      exact ⟨before, hexplains, hphase.2.1, hphase.2.2⟩
    · cases h
  | finish =>
    simp only [System.step] at h
    split at h
    · rename_i op hcommitted
      rw [hcommitted] at hphase
      cases h
      exact ⟨_, hexplains.completed hphase.1, hphase.2⟩
    · cases h
  | crash =>
    simp only [System.step] at h
    split at h
    · cases h
    · cases h
      cases hp : m.phase with
      | down => exact absurd hp ‹_›
      | idle =>
        rw [hp] at hphase
        exact ⟨before, by simpa [Phase.op?] using hexplains, hphase⟩
      | writing op view todo =>
        rw [hp] at hphase
        exact ⟨before, hexplains.dropped, hphase.1⟩
      | committed op =>
        rw [hp] at hphase
        exact ⟨_, hexplains.kept hphase.1, hphase.2⟩
  | reopen =>
    simp only [System.step] at h
    split at h
    · rename_i hdown
      rw [hdown] at hphase
      cases h
      refine ⟨before, hexplains, ?_⟩
      show sys.reopen m.durable = before
      rw [hphase]
      exact hreopen before (hexplains.inv hrun h₀)
    · cases h

/-- **Every durable state is explained by its history.** -/
theorem explained (hrun : ∀ s op, I s → sys.Allowed s op → I (sys.run s op)) (h₀ : I s₀)
    (hreopen : ∀ s, I s → sys.reopen s = s) {moves : List (Move O)} {m : Machine S O W}
    (h : Runs.exec sys.step (Machine.start s₀) moves = some m) :
    ∃ before, m.Explained sys s₀ before :=
  Runs.exec_inv (fun _ _ _ hI hs => step_explained hrun h₀ hreopen hI hs)
    ⟨s₀, Explains.nil, rfl⟩ h

/-- The history goes on explaining the durable state when the operation in progress is taken for cut. -/
theorem Machine.Explained.events {m : Machine S O W} {before : S} (h : m.Explained sys s₀ before) :
    Explains sys s₀ m.events m.durable := by
  have hexplains := h.explains
  have hwhere := h.phase
  unfold Machine.events
  cases hp : m.phase with
  | down =>
    rw [hp] at hwhere
    rw [show m.durable = before from hwhere]
    simpa [Phase.op?] using hexplains
  | idle =>
    rw [hp] at hwhere
    rw [show m.durable = before from hwhere]
    simpa [Phase.op?] using hexplains
  | writing op view todo =>
    rw [hp] at hwhere
    rw [hwhere.1]
    exact hexplains.dropped
  | committed op =>
    rw [hp] at hwhere
    rw [hwhere.2]
    exact hexplains.kept hwhere.1

/-! ## Atomicity of one operation -/

/-- The process is in the operation, or the operation is over, completed or cut. -/
def Machine.Within (sys : System S O W) (before : S) (op : O) (m : Machine S O W) : Prop :=
  match m.phase with
  | .writing op' view todo =>
      op' = op ∧ m.durable = before ∧ todo.foldl sys.write view = sys.run before op
  | .committed op' => op' = op ∧ m.durable = sys.run before op
  | _ => m.durable = before ∨ m.durable = sys.run before op

theorem Machine.Within.durable {before : S} {op : O} {m : Machine S O W}
    (h : m.Within sys before op) : m.durable = before ∨ m.durable = sys.run before op := by
  unfold Machine.Within at h
  split at h
  · exact Or.inl h.2.1
  · exact Or.inr h.2
  · exact h

theorem step_within {before : S} {op : O} (hbefore : sys.reopen before = before)
    (hafter : sys.reopen (sys.run before op) = sys.run before op) {m m' : Machine S O W}
    {move : Move O} (hm : m.Within sys before op) (hmove : ∀ op', move ≠ .call op')
    (h : sys.step m move = some m') : m'.Within sys before op := by
  have hdurable := hm.durable
  cases move with
  | call op' => exact absurd rfl (hmove op')
  | write =>
    simp only [System.step] at h
    split at h
    · rename_i hwriting
      unfold Machine.Within at hm
      rw [hwriting] at hm
      cases h
      exact hm
    · cases h
  | commit =>
    simp only [System.step] at h
    split at h
    · rename_i hwriting
      unfold Machine.Within at hm
      rw [hwriting] at hm
      cases h
      exact ⟨hm.1, hm.2.2⟩
    · cases h
  | finish =>
    simp only [System.step] at h
    split at h
    · cases h
      exact hdurable
    · cases h
  | crash =>
    simp only [System.step] at h
    split at h
    · cases h
    · cases h
      exact hdurable
  | reopen =>
    simp only [System.step] at h
    split at h
    · cases h
      show sys.reopen m.durable = before ∨ sys.reopen m.durable = sys.run before op
      rcases hdurable with heq | heq
      · exact Or.inl (by rw [heq, hbefore])
      · exact Or.inr (by rw [heq, hafter])
    · cases h

/-- From the call of an operation to the next call the process is in the operation, or it is over. -/
theorem within_of_call {op : O} {m m' : Machine S O W} (hidle : m.phase = .idle)
    (hbefore : sys.reopen m.durable = m.durable)
    (hafter : sys.reopen (sys.run m.durable op) = sys.run m.durable op) {moves : List (Move O)}
    (hmoves : ∀ move ∈ moves, ∀ op', move ≠ .call op')
    (h : Runs.exec sys.step m (.call op :: moves) = some m') : m'.Within sys m.durable op := by
  obtain ⟨called, hcall, hrest⟩ := Runs.exec_cons_some.mp h
  have hwithin : called.Within sys m.durable op := by
    simp only [System.step, hidle] at hcall
    split at hcall
    · cases hcall
      exact ⟨rfl, rfl, rfl⟩
    · cases hcall
  exact Runs.exec_inv_along (C := fun _ move => ∀ op', move ≠ .call op')
    (fun _ _ _ hI hC hs => step_within hbefore hafter hI hC hs) hwithin
    (Runs.along_of_forall fun move hmove _ => hmoves move hmove) hrest

/-- **Atomicity**: from the call of an operation to the next call, through crashes and openings, the
durable state is the one of before or after the operation. -/
theorem atomic {op : O} {m m' : Machine S O W} (hidle : m.phase = .idle)
    (hbefore : sys.reopen m.durable = m.durable)
    (hafter : sys.reopen (sys.run m.durable op) = sys.run m.durable op) {moves : List (Move O)}
    (hmoves : ∀ move ∈ moves, ∀ op', move ≠ .call op')
    (h : Runs.exec sys.step m (.call op :: moves) = some m') :
    m'.durable = m.durable ∨ m'.durable = sys.run m.durable op :=
  (within_of_call hidle hbefore hafter hmoves h).durable

/-- The durable state is settled: no operation is at work on it. -/
def Machine.Settled (s : S) (m : Machine S O W) : Prop :=
  m.durable = s ∧ ∀ op view todo, m.phase ≠ .writing op view todo

theorem step_settled {s : S} (hs : sys.reopen s = s) {m m' : Machine S O W} {move : Move O}
    (hm : m.Settled s) (hmove : ∀ op, move ≠ .call op) (h : sys.step m move = some m') :
    m'.Settled s := by
  obtain ⟨hdurable, hphase⟩ := hm
  cases move with
  | call op => exact absurd rfl (hmove op)
  | write =>
    simp only [System.step] at h
    split at h
    · exact absurd ‹_› (hphase _ _ _)
    · cases h
  | commit =>
    simp only [System.step] at h
    split at h
    · exact absurd ‹_› (hphase _ _ _)
    · cases h
  | finish =>
    simp only [System.step] at h
    split at h
    · cases h
      exact ⟨hdurable, by simp⟩
    · cases h
  | crash =>
    simp only [System.step] at h
    split at h
    · cases h
    · cases h
      exact ⟨hdurable, by simp⟩
  | reopen =>
    simp only [System.step] at h
    split at h
    · cases h
      exact ⟨by rw [hdurable, hs], by simp⟩
    · cases h

/-- **An operation that returned** has taken effect, and it stays so until the next call. -/
theorem returned {op : O} {m m' : Machine S O W} (hidle : m.phase = .idle)
    (hbefore : sys.reopen m.durable = m.durable)
    (hafter : sys.reopen (sys.run m.durable op) = sys.run m.durable op) {moves : List (Move O)}
    (hmoves : ∀ move ∈ moves, ∀ op', move ≠ .call op') (hfinish : .finish ∈ moves)
    (h : Runs.exec sys.step m (.call op :: moves) = some m') :
    m'.durable = sys.run m.durable op := by
  obtain ⟨first, rest, rfl⟩ := List.append_of_mem hfinish
  rw [← List.cons_append] at h
  obtain ⟨mid, hfirst, hlast⟩ := Runs.exec_append_some.mp h
  obtain ⟨done, hdone, hrest⟩ := Runs.exec_cons_some.mp hlast
  have hwithin := within_of_call hidle hbefore hafter
    (fun move hmove => hmoves move (List.mem_append_left _ hmove)) hfirst
  -- only a committed operation can return
  have hsettled : done.Settled (sys.run m.durable op) := by
    simp only [System.step] at hdone
    split at hdone
    · rename_i op' hcommitted
      unfold Machine.Within at hwithin
      rw [hcommitted] at hwithin
      cases hdone
      exact ⟨hwithin.2, by simp⟩
    · cases hdone
  have hend : m'.Settled (sys.run m.durable op) :=
    Runs.exec_inv_along (C := fun _ move => ∀ op', move ≠ .call op')
      (fun _ _ _ hI hC hs => step_settled hafter hI hC hs) hsettled
      (Runs.along_of_forall fun move hmove _ =>
        hmoves move (List.mem_append_right _ (List.mem_cons_of_mem _ hmove))) hrest
  exact hend.1

end

/-! ## What a history can leave -/

section

variable {C α : Type*}

/-- What one more operation can leave: completed it took effect, cut it took effect or did not. -/
def possibleAfter (next : C → O → C) (values : List C) : O × Fate → List C
  | (op, .completed) => values.map (next · op)
  | (op, .cut) => values ++ values.map (next · op)

/-- What a history can leave of `c₀`, when an operation takes `c` to `next c op`. -/
def outcomes (next : C → O → C) (c₀ : C) (history : List (O × Fate)) : List C :=
  history.foldl (possibleAfter next) [c₀]

/-- The values that may be read after one more operation, where some operations set a value. -/
def readableAfter (sets : O → Option α) (values : List α) : O × Fate → List α
  | (op, .completed) => (sets op).elim values ([·])
  | (op, .cut) => values ++ (sets op).toList

/-- The value set by the last completed operation that sets one (`a₀` at first), and those of the
operations cut since then. -/
def lastOrCut (sets : O → Option α) (a₀ : α) (history : List (O × Fate)) : List α :=
  history.foldl (readableAfter sets) [a₀]

variable {next : C → O → C} {c₀ : C}

/-- **Refinement of histories**: what operations do to a durable state, seen through `R`, is one of the
outcomes of the history. -/
theorem Explains.exists_outcome {sys : System S O W} {R : C → S → Prop} {s₀ s : S}
    {history : List (O × Fate)}
    (hrun : ∀ c s op, R c s → sys.Allowed s op → R (next c op) (sys.run s op)) (h₀ : R c₀ s₀)
    (h : Explains sys s₀ history s) : ∃ c ∈ outcomes next c₀ history, R c s := by
  induction h with
  | nil => exact ⟨c₀, List.mem_singleton_self c₀, h₀⟩
  | @completed history s op _ hallowed ih =>
    obtain ⟨c, hc, hR⟩ := ih
    rw [outcomes, List.foldl_append]
    exact ⟨next c op, List.mem_map_of_mem hc, hrun c s op hR hallowed⟩
  | @kept history s op _ hallowed ih =>
    obtain ⟨c, hc, hR⟩ := ih
    rw [outcomes, List.foldl_append]
    exact ⟨next c op, List.mem_append_right _ (List.mem_map_of_mem hc), hrun c s op hR hallowed⟩
  | @dropped history s op _ ih =>
    obtain ⟨c, hc, hR⟩ := ih
    rw [outcomes, List.foldl_append]
    exact ⟨c, List.mem_append_left _ hc, hR⟩

/-- **The last value set**: a part that some operations set, and the others leave alone, has in every
outcome the value of the last completed setting or of one cut since. -/
theorem part_mem_lastOrCut {p : C → α} {sets : O → Option α}
    (hpart : ∀ c op, p (next c op) = (sets op).getD (p c)) {history : List (O × Fate)} {c : C}
    (hc : c ∈ outcomes next c₀ history) : p c ∈ lastOrCut sets (p c₀) history := by
  induction history using List.reverseRecOn generalizing c with
  | nil =>
    rw [List.mem_singleton.mp hc]
    exact List.mem_singleton_self _
  | append_singleton history event ih =>
    obtain ⟨op, fate⟩ := event
    rw [outcomes, List.foldl_append] at hc
    rw [lastOrCut, List.foldl_append]
    cases fate with
    | completed =>
      obtain ⟨c', hc', rfl⟩ := List.mem_map.mp hc
      show p (next c' op) ∈ (sets op).elim _ _
      rw [hpart]
      cases hset : sets op with
      | none => exact ih hc'
      | some a => exact List.mem_singleton_self a
    | cut =>
      rcases List.mem_append.mp hc with hc | hc
      · exact List.mem_append_left _ (ih hc)
      · obtain ⟨c', hc', rfl⟩ := List.mem_map.mp hc
        rw [hpart]
        cases hset : sets op with
        | none => exact List.mem_append_left _ (ih hc')
        | some a =>
          refine List.mem_append_right _ ?_
          show a ∈ (sets op).toList
          rw [hset]
          exact List.mem_singleton_self a

end

end Txn
