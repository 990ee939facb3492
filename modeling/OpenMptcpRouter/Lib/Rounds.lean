/-
Loops that may fail, round by round.

`xs.foldlM step s` in `Except` is a loop over `xs` that changes a state and may give up.
`rounds step s xs` lists its rounds, each with the state before and after it.

* `step_of_mem_rounds`, `map_item_rounds` — every round is a step, and a loop that comes to
  its end has one for every item;
* `invariant` — what a step preserves holds before and after every round, and at the end;
* `pairwise_rounds` — where every step moves a measure up, a later round starts at or above
  the end of an earlier one;
* `holds_iff` — what holds at the end held at the start or was brought in by a round;
* `appended_end`, `composed_end` — a list that every round appends to, and what the rounds
  do one after the other;
* `counter_end`, `exists_round_at` — a counter ends at the number of rounds that raise it,
  and passes every value on the way.
-/
import Mathlib.Data.List.Basic
import Mathlib.Order.Defs.PartialOrder

namespace Rounds

variable {ε σ α β : Type}

theorem bind_eq_ok {x : Except ε α} {f : α → Except ε β} {b : β} :
    x >>= f = .ok b ↔ ∃ a, x = .ok a ∧ f a = .ok b := by
  cases x with
  | error e =>
    constructor
    · intro h
      cases h
    · rintro ⟨a, ha, -⟩
      cases ha
  | ok a =>
    constructor
    · intro h
      exact ⟨a, rfl, h⟩
    · rintro ⟨a', ha, h⟩
      cases ha
      exact h

theorem exists_of_isOk {x : Except ε α} (h : x.isOk = true) : ∃ a, x = .ok a := by
  cases x with
  | error e => cases h
  | ok a => exact ⟨a, rfl⟩

/-- A round of a loop. -/
structure Round (σ α : Type) where
  before : σ
  item : α
  after : σ

variable (step : σ → α → Except ε σ)

/-- The rounds of the loop, up to the one that fails. -/
def rounds (s : σ) : List α → List (Round σ α)
  | [] => []
  | x :: xs =>
    match step s x with
    | .error _ => []
    | .ok s' => ⟨s, x, s'⟩ :: rounds s' xs

variable {step} {s s' t : σ} {x : α} {xs : List α} {r : Round σ α}

theorem foldlM_cons_eq_ok :
    (x :: xs).foldlM step s = .ok t ↔ ∃ s', step s x = .ok s' ∧ xs.foldlM step s' = .ok t := by
  rw [List.foldlM_cons]
  exact bind_eq_ok

theorem foldlM_nil_eq_ok : ([] : List α).foldlM step s = .ok t ↔ s = t := by
  rw [List.foldlM_nil]
  constructor
  · intro h
    cases h
    rfl
  · rintro rfl
    rfl

theorem rounds_cons (h : step s x = .ok s') :
    rounds step s (x :: xs) = ⟨s, x, s'⟩ :: rounds step s' xs := by
  rw [rounds, h]

/-- A loop is followed round by round. -/
@[elab_as_elim]
theorem rounds_induction {motive : σ → List α → List (Round σ α) → Prop}
    (nil : ∀ s xs, motive s xs [])
    (cons : ∀ s x s' xs, step s x = .ok s' → motive s' xs (rounds step s' xs) →
      motive s (x :: xs) (⟨s, x, s'⟩ :: rounds step s' xs)) (s : σ) (xs : List α) :
    motive s xs (rounds step s xs) := by
  induction xs generalizing s with
  | nil => exact nil s []
  | cons x xs ih =>
    cases h : step s x with
    | error e =>
      rw [rounds, h]
      exact nil s (x :: xs)
    | ok s' =>
      rw [rounds_cons h]
      exact cons s x s' xs h (ih s')

theorem step_of_mem_rounds (h : r ∈ rounds step s xs) : step r.before r.item = .ok r.after := by
  revert h
  refine rounds_induction (fun s xs => ?_) (fun s x s' xs hstep ih => ?_) s xs
  · intro h
    cases h
  · intro h
    rcases List.mem_cons.mp h with rfl | h
    · exact hstep
    · exact ih h

/-- A loop that comes to its end has a round for every item. -/
theorem map_item_rounds (h : xs.foldlM step s = .ok t) :
    (rounds step s xs).map Round.item = xs := by
  induction xs generalizing s with
  | nil => rfl
  | cons x xs ih =>
    obtain ⟨s', hstep, hrest⟩ := foldlM_cons_eq_ok.mp h
    rw [rounds_cons hstep, List.map_cons, ih hrest]

theorem exists_round (h : xs.foldlM step s = .ok t) (hx : x ∈ xs) :
    ∃ r ∈ rounds step s xs, r.item = x := by
  rw [← map_item_rounds h, List.mem_map] at hx
  exact hx

theorem item_mem (hr : r ∈ rounds step s xs) : r.item ∈ xs := by
  revert hr
  refine rounds_induction (fun s xs => ?_) (fun s x s' xs hstep ih => ?_) s xs
  · intro h
    cases h
  · intro h
    rcases List.mem_cons.mp h with rfl | h
    · exact List.mem_cons_self
    · exact List.mem_cons_of_mem _ (ih h)

section Invariant

variable {P : σ → Prop} (hP : ∀ s x s', P s → step s x = .ok s' → P s')

include hP

/-- What a step preserves holds before and after every round. -/
theorem invariant (hs : P s) (hr : r ∈ rounds step s xs) : P r.before ∧ P r.after := by
  revert hs hr
  refine rounds_induction (fun s xs => ?_) (fun s x s' xs hstep ih => ?_) s xs
  · intro _ h
    cases h
  · intro hs h
    rcases List.mem_cons.mp h with rfl | h
    · exact ⟨hs, hP s x s' hs hstep⟩
    · exact ih (hP s x s' hs hstep) h

theorem invariant_end (hs : P s) (h : xs.foldlM step s = .ok t) : P t := by
  induction xs generalizing s with
  | nil =>
    cases foldlM_nil_eq_ok.mp h
    exact hs
  | cons x xs ih =>
    obtain ⟨s', hstep, hrest⟩ := foldlM_cons_eq_ok.mp h
    exact ih (hP s x s' hs hstep) hrest

end Invariant

section Order

variable {γ : Type} [Preorder γ] {f : σ → γ} (hf : ∀ s x s', step s x = .ok s' → f s ≤ f s')

include hf

/-- A round starts at or above the start of the loop. -/
theorem start_le (hr : r ∈ rounds step s xs) : f s ≤ f r.before :=
  (invariant (P := fun u => f s ≤ f u) (fun _ x _ h hstep => le_trans h (hf _ x _ hstep)) le_rfl hr).1

/-- **A later round starts at or above the end of an earlier one.** -/
theorem pairwise_rounds (s : σ) (xs : List α) :
    (rounds step s xs).Pairwise fun r r' => f r.after ≤ f r'.before := by
  refine rounds_induction (fun s xs => ?_) (fun s x s' xs _ ih => ?_) s xs
  · exact List.Pairwise.nil
  · exact List.Pairwise.cons (fun r hr => start_le hf hr) ih

/-- A round ends at or below the end of the loop. -/
theorem le_end (h : xs.foldlM step s = .ok t) (hr : r ∈ rounds step s xs) : f r.after ≤ f t := by
  induction xs generalizing s with
  | nil => cases hr
  | cons x xs ih =>
    obtain ⟨s', hstep, hrest⟩ := foldlM_cons_eq_ok.mp h
    rw [rounds_cons hstep] at hr
    rcases List.mem_cons.mp hr with rfl | hr
    · exact invariant_end (P := fun u => f s' ≤ f u) (fun _ x _ h hstep => le_trans h (hf _ x _ hstep))
        le_rfl hrest
    · exact ih hrest hr

end Order

/-- **What holds at the end held at the start or was brought in by a round.** -/
theorem holds_iff {P : σ → Prop} {Q : Round σ α → Prop}
    (hstep : ∀ s x s', step s x = .ok s' → (P s' ↔ P s ∨ Q ⟨s, x, s'⟩))
    (h : xs.foldlM step s = .ok t) : P t ↔ P s ∨ ∃ r ∈ rounds step s xs, Q r := by
  induction xs generalizing s with
  | nil =>
    cases foldlM_nil_eq_ok.mp h
    simp [rounds]
  | cons x xs ih =>
    obtain ⟨s', hs', hrest⟩ := foldlM_cons_eq_ok.mp h
    rw [rounds_cons hs', ih hrest, hstep s x s' hs', or_assoc]
    simp

/-- A counter at the end of a loop. -/
theorem counter_end {f : σ → ℕ} {p : α → Bool}
    (hstep : ∀ s x s', step s x = .ok s' → f s' = f s + if p x then 1 else 0)
    (h : xs.foldlM step s = .ok t) : f t = f s + xs.countP p := by
  induction xs generalizing s with
  | nil =>
    cases foldlM_nil_eq_ok.mp h
    rfl
  | cons x xs ih =>
    obtain ⟨s', hs', hrest⟩ := foldlM_cons_eq_ok.mp h
    rw [ih hrest, hstep s x s' hs', List.countP_cons, Nat.add_assoc, Nat.add_comm (List.countP p xs)]

/-- What the rounds append one after the other. -/
theorem appended_end {f : σ → List β} {out : Round σ α → List β}
    (hstep : ∀ s x s', step s x = .ok s' → f s' = f s ++ out ⟨s, x, s'⟩)
    (h : xs.foldlM step s = .ok t) : f t = f s ++ (rounds step s xs).flatMap out := by
  induction xs generalizing s with
  | nil =>
    cases foldlM_nil_eq_ok.mp h
    simp [rounds]
  | cons x xs ih =>
    obtain ⟨s', hs', hrest⟩ := foldlM_cons_eq_ok.mp h
    rw [rounds_cons hs', ih hrest, hstep s x s' hs', List.flatMap_cons, List.append_assoc]

/-- What the rounds do one after the other. -/
theorem composed_end {R : σ → σ → List β → Prop} {out : Round σ α → List β}
    (refl : ∀ s, R s s []) (trans : ∀ s t u ys zs, R s t ys → R t u zs → R s u (ys ++ zs))
    (hround : ∀ r ∈ rounds step s xs, R r.before r.after (out r)) (h : xs.foldlM step s = .ok t) :
    R s t ((rounds step s xs).flatMap out) := by
  induction xs generalizing s with
  | nil =>
    cases foldlM_nil_eq_ok.mp h
    exact refl _
  | cons x xs ih =>
    obtain ⟨s', hs', hrest⟩ := foldlM_cons_eq_ok.mp h
    rw [rounds_cons hs'] at hround ⊢
    rw [List.flatMap_cons]
    exact trans _ _ _ _ _ (hround _ List.mem_cons_self)
      (ih (fun r hr => hround r (List.mem_cons_of_mem _ hr)) hrest)

/-- A counter that a step raises by at most one passes every value in some round. -/
theorem exists_round_at {f : σ → ℕ} (hstep : ∀ s x s', step s x = .ok s' → f s' ≤ f s + 1)
    (h : xs.foldlM step s = .ok t) {k : ℕ} (hk : f s ≤ k) (hk' : k < f t) :
    ∃ r ∈ rounds step s xs, f r.before = k ∧ f r.after = k + 1 := by
  induction xs generalizing s with
  | nil =>
    cases foldlM_nil_eq_ok.mp h
    omega
  | cons x xs ih =>
    obtain ⟨s', hs', hrest⟩ := foldlM_cons_eq_ok.mp h
    rw [rounds_cons hs']
    have hone := hstep s x s' hs'
    by_cases hnow : k < f s'
    · exact ⟨⟨s, x, s'⟩, List.mem_cons_self, by dsimp only; omega, by dsimp only; omega⟩
    · obtain ⟨r, hr, hr'⟩ := ih hrest (by omega)
      exact ⟨r, List.mem_cons_of_mem _ hr, hr'⟩

end Rounds
