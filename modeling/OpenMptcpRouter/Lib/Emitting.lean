/-
Computations that send messages.

`Emitting σ ο ε α` reads and changes a state `σ`, sends messages `ο` on the way and ends
with a result or with an error; what was sent before an error stays sent.  `Emits P x`
says that every message of `x` has `P`, whatever the state it starts from:

* `emits_bind`, `emits_ite`, `emits_attempt` follow the control flow, so that a program is
  checked one call at a time;
* `sent_bind` and its companions compute the messages of a run where they are needed
  exactly.
-/
import Mathlib.Data.List.Basic

/-- How a computation ended: its result, the state it left and the messages it sent. -/
structure Outcome (σ ο ε α : Type) where
  result : Except ε α
  state : σ
  sent : List ο

/-- A computation over a state `σ` that sends messages `ο` and may end in an error `ε`. -/
structure Emitting (σ ο ε α : Type) where
  run : σ → Outcome σ ο ε α

namespace Emitting

variable {σ ο ε α β : Type}

instance : Monad (Emitting σ ο ε) where
  pure a := ⟨fun s => ⟨.ok a, s, []⟩⟩
  bind x f := ⟨fun s =>
    match (x.run s).result with
    | .error e => ⟨.error e, (x.run s).state, (x.run s).sent⟩
    | .ok a =>
      let r := (f a).run (x.run s).state
      { r with sent := (x.run s).sent ++ r.sent }⟩

/-- Send one message. -/
def emit (o : ο) : Emitting σ ο ε Unit := ⟨fun s => ⟨.ok (), s, [o]⟩⟩

/-- End with `r`. -/
def ofExcept (r : Except ε α) : Emitting σ ο ε α := ⟨fun s => ⟨r, s, []⟩⟩

/-- End in an error. -/
def fail (e : ε) : Emitting σ ο ε α := ofExcept (.error e)

/-- The state. -/
def read : Emitting σ ο ε σ := ⟨fun s => ⟨.ok s, s, []⟩⟩

/-- Change the state. -/
def update (f : σ → σ) : Emitting σ ο ε Unit := ⟨fun s => ⟨.ok (), f s, []⟩⟩

/-- Run `x` and go on with how it ended. -/
def attempt (x : Emitting σ ο ε α) : Emitting σ ο ε (Except ε α) :=
  ⟨fun s => ⟨.ok (x.run s).result, (x.run s).state, (x.run s).sent⟩⟩

/-- Run `x`, and `h` behind it if it ends in an error. -/
def orElse (x h : Emitting σ ο ε α) : Emitting σ ο ε α := do
  match ← attempt x with
  | .ok a => pure a
  | .error _ => h

section Runs

variable (s : σ)

theorem sent_emit (o : ο) : ((emit o : Emitting σ ο ε Unit).run s).sent = [o] := rfl

theorem run_read_bind (f : σ → Emitting σ ο ε α) : (read >>= f).run s = (f s).run s := rfl

theorem sent_bind (x : Emitting σ ο ε α) (f : α → Emitting σ ο ε β) :
    ((x >>= f).run s).sent = (x.run s).sent ++
      match (x.run s).result with
      | .error _ => []
      | .ok a => ((f a).run (x.run s).state).sent := by
  simp only [bind]
  rcases (x.run s).result with e | a
  · exact (List.append_nil _).symm
  · rfl

/-- What follows sends nothing, so the messages are those sent so far. -/
theorem sent_bind_of_silent {x : Emitting σ ο ε α} {f : α → Emitting σ ο ε β}
    (h : ∀ a s, ((f a).run s).sent = []) : ((x >>= f).run s).sent = (x.run s).sent := by
  rw [sent_bind]
  rcases (x.run s).result with e | a
  · exact List.append_nil _
  · simp only [h, List.append_nil]

/-- An attempt is always followed by what comes next. -/
theorem sent_attempt_bind (x : Emitting σ ο ε α) (f : Except ε α → Emitting σ ο ε β) :
    ((attempt x >>= f).run s).sent =
      (x.run s).sent ++ ((f (x.run s).result).run (x.run s).state).sent := by
  rw [sent_bind]
  rfl

/-- Handlers that send nothing add nothing. -/
theorem sent_orElse_of_silent {x h : Emitting σ ο ε α} (hh : ∀ s, (h.run s).sent = []) :
    ((orElse x h).run s).sent = (x.run s).sent := by
  rw [orElse, sent_attempt_bind]
  rcases (x.run s).result with e | a
  · simp only [hh, List.append_nil]
  · exact List.append_nil _

end Runs

/-- Every message `x` sends has `P`. -/
def Emits (P : ο → Prop) (x : Emitting σ ο ε α) : Prop := ∀ s, ∀ o ∈ (x.run s).sent, P o

section Emits

variable {P : ο → Prop} {x y : Emitting σ ο ε α}

/-- A computation that sends nothing meets every `P`. -/
theorem emits_of_silent (h : ∀ s, (x.run s).sent = []) : Emits P x := by
  intro s o ho
  rw [h] at ho
  exact absurd ho List.not_mem_nil

theorem emits_pure (a : α) : Emits P (pure a : Emitting σ ο ε α) :=
  emits_of_silent fun _ => rfl

theorem emits_ofExcept (r : Except ε α) : Emits P (ofExcept r : Emitting σ ο ε α) :=
  emits_of_silent fun _ => rfl

theorem emits_fail (e : ε) : Emits P (fail e : Emitting σ ο ε α) := emits_ofExcept _

theorem emits_read : Emits P (read : Emitting σ ο ε σ) := emits_of_silent fun _ => rfl

theorem emits_update (f : σ → σ) : Emits P (update f : Emitting σ ο ε Unit) :=
  emits_of_silent fun _ => rfl

theorem emits_emit {o : ο} (h : P o) : Emits P (emit o : Emitting σ ο ε Unit) := by
  intro s o' ho
  rw [sent_emit, List.mem_singleton] at ho
  exact ho ▸ h

theorem emits_attempt (h : Emits P x) : Emits P (attempt x) := h

/-- **The rule for two computations in a row.** -/
theorem emits_bind {f : α → Emitting σ ο ε β} (hx : Emits P x) (hf : ∀ a, Emits P (f a)) :
    Emits P (x >>= f) := by
  intro s o ho
  rw [sent_bind, List.mem_append] at ho
  rcases ho with ho | ho
  · exact hx s o ho
  · rcases hr : (x.run s).result with e | a
    · rw [hr] at ho
      exact absurd ho List.not_mem_nil
    · rw [hr] at ho
      exact hf a _ o ho

theorem emits_ite {c : Prop} [Decidable c] (hx : c → Emits P x) (hy : ¬ c → Emits P y) :
    Emits P (if c then x else y) := by
  by_cases h : c
  · rw [if_pos h]
    exact hx h
  · rw [if_neg h]
    exact hy h

theorem emits_orElse (hx : Emits P x) (hy : Emits P y) : Emits P (orElse x y) := by
  refine emits_bind (emits_attempt hx) fun r => ?_
  rcases r with e | a
  · exact hy
  · exact emits_pure a

end Emits

end Emitting
