/-
Runs of a deterministic machine with outputs.

A machine is a step function `step : σ → ε → σ × ο`; `exec` is the state after a
list of events and `outputs` what the machine put out on the way.

* `AllSteps P s es` — every step of the run meets `P`, a predicate on the state
  before the step and the event; `allSteps_iff` reads it off the prefixes;
* `exec_invariant`, `allSteps_of_invariant` — what one step preserves under a
  step condition, every run meeting the condition preserves;
* `exec_of_variant` — a run longer than what its steps use up reaches its goal;
* `outputs_eq_of_simulation` — two machines related step by step put out the same;
* `tryRun_of_refinement` — a machine whose steps may fail, related step by step to one that
  cannot, never fails.
-/
import Mathlib.Algebra.Group.Nat.Defs
import Mathlib.Data.List.Basic

namespace Run

variable {σ τ ε ο : Type*} (step : σ → ε → σ × ο)

/-- The state after the events `es`. -/
def exec (s : σ) : List ε → σ
  | [] => s
  | e :: es => exec (step s e).1 es

/-- The outputs of the run, one for each event. -/
def outputs (s : σ) : List ε → List ο
  | [] => []
  | e :: es => (step s e).2 :: outputs (step s e).1 es

/-- Every step of the run meets `P`. -/
def AllSteps (P : σ → ε → Prop) (s : σ) : List ε → Prop
  | [] => True
  | e :: es => P s e ∧ AllSteps P (step s e).1 es

instance decidableAllSteps (P : σ → ε → Prop) [∀ s e, Decidable (P s e)] :
    ∀ (s : σ) (es : List ε), Decidable (AllSteps step P s es)
  | _, [] => isTrue trivial
  | s, e :: es =>
    have := decidableAllSteps P (step s e).1 es
    inferInstanceAs (Decidable (P s e ∧ AllSteps step P (step s e).1 es))

variable {step}

@[simp] theorem exec_nil (s : σ) : exec step s [] = s := rfl

@[simp] theorem exec_cons (s : σ) (e : ε) (es : List ε) :
    exec step s (e :: es) = exec step (step s e).1 es := rfl

theorem exec_append (s : σ) (es fs : List ε) :
    exec step s (es ++ fs) = exec step (exec step s es) fs := by
  induction es generalizing s with
  | nil => rfl
  | cons e es ih => exact ih _

theorem exec_concat (s : σ) (es : List ε) (e : ε) :
    exec step s (es ++ [e]) = (step (exec step s es) e).1 := by
  rw [exec_append]
  rfl

@[simp] theorem outputs_nil (s : σ) : outputs step s [] = [] := rfl

@[simp] theorem outputs_cons (s : σ) (e : ε) (es : List ε) :
    outputs step s (e :: es) = (step s e).2 :: outputs step (step s e).1 es := rfl

theorem outputs_append (s : σ) (es fs : List ε) :
    outputs step s (es ++ fs) = outputs step s es ++ outputs step (exec step s es) fs := by
  induction es generalizing s with
  | nil => rfl
  | cons e es ih => exact congrArg (_ :: ·) (ih _)

@[simp] theorem allSteps_nil (P : σ → ε → Prop) (s : σ) : AllSteps step P s [] := trivial

@[simp] theorem allSteps_cons {P : σ → ε → Prop} {s : σ} {e : ε} {es : List ε} :
    AllSteps step P s (e :: es) ↔ P s e ∧ AllSteps step P (step s e).1 es := Iff.rfl

theorem allSteps_append {P : σ → ε → Prop} {s : σ} {es fs : List ε} :
    AllSteps step P s (es ++ fs) ↔ AllSteps step P s es ∧ AllSteps step P (exec step s es) fs := by
  induction es generalizing s with
  | nil => simp
  | cons e es ih => simp [ih, and_assoc]

/-- A run meets `P` at every step iff `P` holds after every proper prefix, of the
event that comes next. -/
theorem allSteps_iff {P : σ → ε → Prop} {s : σ} {es : List ε} :
    AllSteps step P s es ↔ ∀ pre e post, es = pre ++ e :: post → P (exec step s pre) e := by
  constructor
  · rintro h pre e post rfl
    exact (allSteps_append.mp h).2.1
  · intro h
    induction es generalizing s with
    | nil => trivial
    | cons e es ih =>
      refine ⟨h [] e es rfl, ih fun pre e' post hes => ?_⟩
      exact h (e :: pre) e' post (by rw [hes]; rfl)

/-- All outputs of a run have a property iff every step puts out one that has it. -/
theorem forall_mem_outputs_iff {Q : ο → Prop} {s : σ} {es : List ε} :
    (∀ o ∈ outputs step s es, Q o) ↔ AllSteps step (fun s e => Q (step s e).2) s es := by
  induction es generalizing s with
  | nil => simp
  | cons e es ih => rw [outputs_cons, List.forall_mem_cons, ih, allSteps_cons]

/-- Each output of a run stands in a relation to its event iff every step puts out one that
does. -/
theorem forall₂_outputs_iff {Q : ε → ο → Prop} {s : σ} {es : List ε} :
    List.Forall₂ Q es (outputs step s es) ↔ AllSteps step (fun s e => Q e (step s e).2) s es := by
  induction es generalizing s with
  | nil => exact iff_of_true .nil trivial
  | cons e es ih => rw [outputs_cons, List.forall₂_cons, ih, allSteps_cons]

/-- Conditions that agree on every step agree on every run. -/
theorem allSteps_congr {P Q : σ → ε → Prop} (h : ∀ s e, P s e ↔ Q s e) {s : σ} {es : List ε} :
    AllSteps step P s es ↔ AllSteps step Q s es := by
  induction es generalizing s with
  | nil => exact Iff.rfl
  | cons e es ih => rw [allSteps_cons, allSteps_cons, h, ih]

/-- A condition that implies another at every step implies it in every run. -/
theorem allSteps_mono {P Q : σ → ε → Prop} (h : ∀ s e, P s e → Q s e) {s : σ} {es : List ε}
    (hall : AllSteps step P s es) : AllSteps step Q s es := by
  induction es generalizing s with
  | nil => trivial
  | cons e es ih => exact ⟨h s e hall.1, ih hall.2⟩

/-- A predicate of the events alone is met as soon as all events have it. -/
theorem allSteps_of_forall {P : ε → Prop} {s : σ} {es : List ε} (h : ∀ e ∈ es, P e) :
    AllSteps step (fun _ => P) s es :=
  allSteps_iff.mpr fun pre e post hes => h e (by simp [hes])

/-- Whether a run meets `P` depends on the states it goes through, not on outputs. -/
theorem allSteps_of_fst_eq {ο' : Type*} {step' : σ → ε → σ × ο'}
    (h : ∀ s e, (step' s e).1 = (step s e).1) {P : σ → ε → Prop} :
    ∀ {s : σ} {es : List ε}, AllSteps step P s es → AllSteps step' P s es := by
  intro s es
  induction es generalizing s with
  | nil => exact fun _ => trivial
  | cons e es ih =>
    intro hall
    refine ⟨hall.1, ?_⟩
    rw [h]
    exact ih hall.2

/-- **The invariant rule.**  What every step meeting `P` preserves holds at the
end of every run whose steps meet `P`. -/
theorem exec_invariant (Inv : σ → Prop) {P : σ → ε → Prop}
    (hstep : ∀ s e, Inv s → P s e → Inv (step s e).1) :
    ∀ {s : σ} {es : List ε}, Inv s → AllSteps step P s es → Inv (exec step s es) := by
  intro s es
  induction es generalizing s with
  | nil => exact fun h _ => h
  | cons e es ih => exact fun h hall => ih (hstep s e h hall.1) hall.2

/-- **The variant rule.**  Where every step that does not reach `Goal` takes from `μ`, a run
longer than `μ` ends in `Goal`. -/
theorem exec_of_variant (Inv Goal : σ → Prop) (μ : σ → ℕ) {P : σ → ε → Prop}
    (hinv : ∀ s e, Inv s → P s e → Inv (step s e).1)
    (hgoal : ∀ s e, Inv s → Goal s → P s e → Goal (step s e).1)
    (hμ : ∀ s e, Inv s → P s e → Goal (step s e).1 ∨ μ (step s e).1 < μ s) :
    ∀ {s : σ} {es : List ε}, Inv s → AllSteps step P s es → μ s < es.length →
      Goal (exec step s es) := by
  intro s es
  induction es generalizing s with
  | nil => exact fun _ _ hlt => absurd hlt (Nat.not_lt_zero _)
  | cons e es ih =>
    intro hs hall hlt
    have hs' := hinv s e hs hall.1
    rcases hμ s e hs hall.1 with hreached | hless
    · have hstays := exec_invariant (fun s => Inv s ∧ Goal s)
        (fun s e h he => ⟨hinv s e h.1 he, hgoal s e h.1 h.2 he⟩) ⟨hs', hreached⟩ hall.2
      exact hstays.2
    · refine ih hs' hall.2 ?_
      rw [List.length_cons] at hlt
      exact Nat.lt_of_lt_of_le hless (Nat.le_of_lt_succ hlt)

/-- What follows from the invariant at a single step holds at every step. -/
theorem allSteps_of_invariant (Inv : σ → Prop) {P Q : σ → ε → Prop}
    (hstep : ∀ s e, Inv s → P s e → Inv (step s e).1) (hQ : ∀ s e, Inv s → P s e → Q s e) :
    ∀ {s : σ} {es : List ε}, Inv s → AllSteps step P s es → AllSteps step Q s es := by
  intro s es
  induction es generalizing s with
  | nil => exact fun _ _ => trivial
  | cons e es ih =>
    exact fun h hall => ⟨hQ s e h hall.1, ih (hstep s e h hall.1) hall.2⟩

/-- Conditions that agree wherever the invariant holds agree on every run from there, if the
steps that meet them keep the invariant. -/
theorem allSteps_iff_of_invariant (Inv : σ → Prop) {P Q : σ → ε → Prop}
    (hstep : ∀ s e, Inv s → P s e → Inv (step s e).1) (hiff : ∀ s e, Inv s → (P s e ↔ Q s e)) :
    ∀ {s : σ} {es : List ε}, Inv s → (AllSteps step P s es ↔ AllSteps step Q s es) := by
  intro s es
  induction es generalizing s with
  | nil => exact fun _ => Iff.rfl
  | cons e es ih =>
    intro h
    rw [allSteps_cons, allSteps_cons, ← hiff s e h]
    exact and_congr_right fun hP => ih (hstep s e h hP)

/-- **The simulation rule.**  If related states answer every event meeting `P`
alike and stay related, their runs answer alike throughout. -/
theorem outputs_eq_of_simulation {ο' : Type*} {step' : τ → ε → τ × ο} {R : σ → τ → Prop}
    {P : σ → ε → Prop} (view : ο → ο')
    (hstep : ∀ s t e, R s t → P s e →
      R (step s e).1 (step' t e).1 ∧ view (step s e).2 = view (step' t e).2) :
    ∀ {s : σ} {t : τ} {es : List ε}, R s t → AllSteps step P s es →
      (outputs step s es).map view = (outputs step' t es).map view := by
  intro s t es
  induction es generalizing s t with
  | nil => exact fun _ _ => rfl
  | cons e es ih =>
    intro h hall
    obtain ⟨hR, hview⟩ := hstep s t e h hall.1
    simp [hview, ih hR hall.2]

/-! ### Machines that may fail -/

section Fallible

variable {φ : Type*}

/-- The state after the events `es` and the outputs on the way, unless a step fails. -/
def tryRun (tryStep : τ → ε → Except φ (τ × ο)) (t : τ) : List ε → Except φ (τ × List ο)
  | [] => .ok (t, [])
  | e :: es =>
    match tryStep t e with
    | .error f => .error f
    | .ok r =>
      match tryRun tryStep r.1 es with
      | .error f => .error f
      | .ok q => .ok (q.1, r.2 :: q.2)

/-- **The refinement rule.**  If from related states a step succeeds, answers alike and ends
in related states, then every run from related states succeeds, answers alike and ends in
related states. -/
theorem tryRun_of_refinement {tryStep : τ → ε → Except φ (τ × ο)} {R : σ → τ → Prop}
    (hstep : ∀ s t e, R s t →
      ∃ t', tryStep t e = .ok (t', (step s e).2) ∧ R (step s e).1 t') :
    ∀ {s : σ} {t : τ} (es : List ε), R s t →
      ∃ t', tryRun tryStep t es = .ok (t', outputs step s es) ∧ R (exec step s es) t' := by
  intro s t es
  induction es generalizing s t with
  | nil => exact fun h => ⟨t, rfl, h⟩
  | cons e es ih =>
    intro h
    obtain ⟨t', htry, hR⟩ := hstep s t e h
    obtain ⟨t'', hrun, hR'⟩ := ih hR
    refine ⟨t'', ?_, hR'⟩
    rw [tryRun, htry]
    simp only [hrun, outputs_cons]

end Fallible

end Run
