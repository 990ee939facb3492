/-
Commands that change a state and may fail half way.

`Fallible σ α` is a computation over a state `σ` that ends with a result or with a
failure, and in both cases in a state.  `Triple P x Q E` says of a command what its
callers need:

* started in a state with `P`, it ends with a result `a` in a state with `Q a`, or fails
  in a state with `E`;
* `triple_bind`, `triple_catch`, `triple_forM` follow the control flow, so that a program
  is checked one statement at a time and its early returns all meet the same `E`.
-/
import Mathlib.Algebra.Group.Nat.Defs
import Mathlib.Data.List.Basic

/-- A computation with state `σ` that may fail. -/
abbrev Fallible (σ α : Type) := ExceptT Unit (StateM σ) α

namespace Fallible

variable {σ α β : Type}

/-- The result of `x` from state `s`, and the state it leaves. -/
def runFrom (x : Fallible σ α) (s : σ) : Except Unit α × σ := StateT.run (ExceptT.run x) s

@[simp] theorem runFrom_pure (a : α) (s : σ) :
    runFrom (pure a : Fallible σ α) s = (.ok a, s) := rfl

@[simp] theorem runFrom_throw (s : σ) :
    runFrom (throw () : Fallible σ α) s = (.error (), s) := rfl

@[simp] theorem runFrom_modify (f : σ → σ) (s : σ) :
    runFrom (modify f : Fallible σ PUnit) s = (.ok ⟨⟩, f s) := rfl

@[simp] theorem runFrom_get (s : σ) : runFrom (get : Fallible σ σ) s = (.ok s, s) := rfl

theorem runFrom_bind (x : Fallible σ α) (f : α → Fallible σ β) (s : σ) :
    runFrom (x >>= f) s = match runFrom x s with
      | (.ok a, s') => runFrom (f a) s'
      | (.error e, s') => (.error e, s') := by
  simp only [runFrom, ExceptT.run_bind, StateT.run_bind]
  rcases StateT.run (ExceptT.run x) s with ⟨r | r, s'⟩ <;> rfl

theorem runFrom_catch (x h : Fallible σ α) (s : σ) :
    runFrom (tryCatch x fun _ => h) s = match runFrom x s with
      | (.ok a, s') => (.ok a, s')
      | (.error _, s') => runFrom h s' := by
  simp only [runFrom, tryCatch, tryCatchThe, MonadExceptOf.tryCatch, ExceptT.tryCatch,
    ExceptT.run_mk, StateT.run_bind]
  change (do let p ← StateT.run (ExceptT.run x) s; _ : Id _) = _
  rcases StateT.run (ExceptT.run x) s with ⟨r | r, s'⟩ <;> rfl

/-- Started with `P`, `x` gives a result with `Q` or fails with `E`. -/
def Triple (P : σ → Prop) (x : Fallible σ α) (Q : α → σ → Prop) (E : σ → Prop) : Prop :=
  ∀ s, P s → match runFrom x s with
    | (.ok a, s') => Q a s'
    | (.error _, s') => E s'

variable {P P' E E' : σ → Prop} {Q Q' : α → σ → Prop} {R : β → σ → Prop}

theorem triple_pure {a : α} (h : ∀ s, P s → Q a s) : Triple P (pure a) Q E := h

theorem triple_throw (h : ∀ s, P s → E s) : Triple P (throw () : Fallible σ α) Q E := h

theorem triple_modify {f : σ → σ} {Q : PUnit → σ → Prop} (h : ∀ s, P s → Q ⟨⟩ (f s)) :
    Triple P (modify f) Q E := h

theorem triple_bind {x : Fallible σ α} {f : α → Fallible σ β} (hx : Triple P x Q E)
    (hf : ∀ a, Triple (Q a) (f a) R E) : Triple P (x >>= f) R E := by
  intro s hs
  have hstep := hx s hs
  rw [runFrom_bind]
  rcases hr : runFrom x s with ⟨r, s'⟩
  rw [hr] at hstep
  cases r with
  | ok a => exact hf a s' hstep
  | error e => exact hstep

theorem triple_catch {x h : Fallible σ α} (hx : Triple P x Q P') (hh : Triple P' h Q E) :
    Triple P (tryCatch x fun _ => h) Q E := by
  intro s hs
  have hstep := hx s hs
  rw [runFrom_catch]
  rcases hr : runFrom x s with ⟨r, s'⟩
  rw [hr] at hstep
  cases r with
  | ok a => exact hstep
  | error e => exact hh s' hstep

theorem triple_conseq {x : Fallible σ α} (hx : Triple P x Q E) (hP : ∀ s, P' s → P s)
    (hQ : ∀ a s, Q a s → Q' a s) (hE : ∀ s, E s → E' s) : Triple P' x Q' E' := by
  intro s hs
  have hstep := hx s (hP s hs)
  rcases hr : runFrom x s with ⟨r, s'⟩
  rw [hr] at hstep
  cases r with
  | ok a => exact hQ a s' hstep
  | error e => exact hE s' hstep

theorem triple_trivial (x : Fallible σ α) : Triple P x (fun _ _ => True) (fun _ => True) := by
  intro s _
  rcases runFrom x s with ⟨_ | _, _⟩ <;> trivial

/-- A fact about the values at hand is a hypothesis. -/
theorem triple_fact {p : Prop} {x : Fallible σ α} (h : p → Triple P x Q E) :
    Triple (fun s => p ∧ P s) x Q E := fun s hs => h hs.1 s hs.2

theorem triple_exists {ι : Type} {P : ι → σ → Prop} {x : Fallible σ α}
    (h : ∀ i, Triple (P i) x Q E) : Triple (fun s => ∃ i, P i s) x Q E :=
  fun s ⟨i, hs⟩ => h i s hs

theorem triple_ite {c : Prop} [Decidable c] {x y : Fallible σ α} (hx : c → Triple P x Q E)
    (hy : ¬ c → Triple P y Q E) : Triple P (if c then x else y) Q E := by
  by_cases h : c
  · rw [if_pos h]
    exact hx h
  · rw [if_neg h]
    exact hy h

/-- **The loop rule.**  What the body carries from one element to the next, the loop
carries from the start of the list to its end. -/
theorem triple_forM {γ : Type} {f : γ → Fallible σ PUnit} (I : List γ → σ → Prop)
    (hf : ∀ c cs, Triple (I (c :: cs)) (f c) (fun _ => I cs) E) :
    ∀ cs : List γ, Triple (I cs) (cs.forM f) (fun _ => I []) E := by
  intro cs
  induction cs with
  | nil => exact triple_pure fun _ h => h
  | cons c cs ih => exact triple_bind (hf c cs) fun _ => ih

/-- A triple read at one run. -/
theorem Triple.of_run {x : Fallible σ α} (h : Triple P x Q E) {s : σ} (hs : P s) :
    (∀ a, (runFrom x s).1 = .ok a → Q a (runFrom x s).2) ∧
      ((runFrom x s).1 = .error () → E (runFrom x s).2) := by
  have := h s hs
  rcases hr : runFrom x s with ⟨r, s'⟩
  rw [hr] at this
  cases r with
  | ok a => exact ⟨fun b hb => by cases hb; exact this, nofun⟩
  | error e => exact ⟨nofun, fun _ => this⟩

/-- What a run that gives a result has done. -/
theorem Triple.of_isOk {x : Fallible σ α} (h : Triple P x Q E) {s : σ} (hs : P s)
    (hok : (runFrom x s).1.isOk = true) : ∃ a, Q a (runFrom x s).2 := by
  rcases hr : (runFrom x s).1 with _ | a
  · rw [hr] at hok
    exact absurd hok Bool.false_ne_true
  · exact ⟨a, (h.of_run hs).1 a hr⟩

end Fallible
