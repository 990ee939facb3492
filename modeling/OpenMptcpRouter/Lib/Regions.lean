/-
Named regions of a byte image.

An image is a map from addresses to cells; `put` overwrites a range of it and `window`
reads one.  Keys stand for ranges (`start k`, `size k`), and a `Ledger` holds one value
for each key:

* `window_putAll` — **writing a list of values to keys with disjoint ranges is what
  updating the ledger is**: every range then holds the last value written for its key;
* `putAll_eq_self` — outside the ranges of the keys written nothing changes.
-/
import Mathlib.Data.List.Basic
import Mathlib.Logic.Function.Basic

namespace Regions

variable {α κ : Type*}

/-- `m` with `xs` written from address `p` on. -/
def put (m : ℕ → α) (p : ℕ) (xs : List α) : ℕ → α :=
  fun a => if p ≤ a then xs[a - p]?.getD (m a) else m a

/-- The `n` cells from address `p` on. -/
def window (m : ℕ → α) (p n : ℕ) : List α := (List.range n).map fun i => m (p + i)

section Put

variable {m m' : ℕ → α} {p q n a : ℕ} {xs : List α}

@[simp] theorem length_window (m : ℕ → α) (p n : ℕ) : (window m p n).length = n := by
  simp [window]

theorem put_of_outside (h : a < p ∨ p + xs.length ≤ a) : put m p xs a = m a := by
  rw [put]
  split
  · rw [List.getElem?_eq_none (by omega), Option.getD_none]
  · rfl

theorem put_add {i : ℕ} (hi : i < xs.length) : put m p xs (p + i) = xs[i] := by
  rw [put, if_pos (Nat.le_add_right p i), Nat.add_sub_cancel_left, List.getElem?_eq_getElem hi,
    Option.getD_some]

theorem window_congr (h : ∀ i < n, m (p + i) = m' (p + i)) : window m p n = window m' p n := by
  simp only [window, List.map_inj_left, List.mem_range]
  exact h

theorem window_put_self (m : ℕ → α) (p : ℕ) (xs : List α) :
    window (put m p xs) p xs.length = xs := by
  refine List.ext_getElem (by simp) fun i _ hi => ?_
  simp only [window, List.getElem_map, List.getElem_range]
  exact put_add hi

theorem window_put_of_disjoint (h : q + n ≤ p ∨ p + xs.length ≤ q) :
    window (put m p xs) q n = window m q n :=
  window_congr fun i hi => put_of_outside (by omega)

theorem window_append (m : ℕ → α) (p a b : ℕ) :
    window m p (a + b) = window m p a ++ window m (p + a) b := by
  rw [window, List.range_add, List.map_append, List.map_map]
  congr 1
  refine List.map_congr_left fun i _ => ?_
  rw [Function.comp_apply, Nat.add_assoc]

/-- What is put right behind a window extends it. -/
theorem window_put_append (m : ℕ → α) (p n : ℕ) (xs : List α) :
    window (put m (p + n) xs) p (n + xs.length) = window m p n ++ xs := by
  rw [window_append, window_put_self, window_put_of_disjoint (Or.inl (Nat.le_refl _))]

end Put

section Ledger

variable (start size : κ → ℕ)

/-- The ranges of two keys have no address in common. -/
def Apart (k k' : κ) : Prop := start k + size k ≤ start k' ∨ start k' + size k' ≤ start k

instance (k k' : κ) : Decidable (Apart start size k k') := instDecidableOr

/-- `m` with each value written to the range of its key, in order. -/
def putAll (m : ℕ → α) (ws : List (κ × List α)) : ℕ → α :=
  ws.foldl (fun m w => put m (start w.1) w.2) m

/-- The ledger after the same updates. -/
def updateAll [DecidableEq κ] (l : κ → List α) (ws : List (κ × List α)) : κ → List α :=
  ws.foldl (fun l w => Function.update l w.1 w.2) l

/-- Every value has the size of its key's range. -/
def Fits (ws : List (κ × List α)) : Prop := ∀ w ∈ ws, w.2.length = size w.1

variable {start size} {m m' : ℕ → α} {ws : List (κ × List α)} {a : ℕ}

theorem putAll_append (m : ℕ → α) (ws ws' : List (κ × List α)) :
    putAll start m (ws ++ ws') = putAll start (putAll start m ws) ws' := List.foldl_append

theorem putAll_concat (m : ℕ → α) (ws : List (κ × List α)) (k : κ) (xs : List α) :
    putAll start m (ws ++ [(k, xs)]) = put (putAll start m ws) (start k) xs := putAll_append ..

/-- Outside the ranges written to, the image stays. -/
theorem putAll_eq_self (hfit : Fits size ws)
    (h : ∀ w ∈ ws, a < start w.1 ∨ start w.1 + size w.1 ≤ a) : putAll start m ws a = m a := by
  induction ws generalizing m with
  | nil => rfl
  | cons w ws ih =>
    have hstep : putAll start (put m (start w.1) w.2) ws a = put m (start w.1) w.2 a :=
      ih (fun v hv => hfit v (List.mem_cons_of_mem w hv))
        (fun v hv => h v (List.mem_cons_of_mem w hv))
    have hw := h w List.mem_cons_self
    rw [← hfit w List.mem_cons_self] at hw
    exact hstep.trans (put_of_outside hw)

/-- Updates of other keys leave a key alone. -/
theorem updateAll_of_notMem [DecidableEq κ] {l : κ → List α} {k : κ} (h : ∀ w ∈ ws, w.1 ≠ k) :
    updateAll l ws k = l k := by
  induction ws generalizing l with
  | nil => rfl
  | cons w ws ih =>
    have hstep : updateAll (Function.update l w.1 w.2) ws k = Function.update l w.1 w.2 k :=
      ih fun v hv => h v (List.mem_cons_of_mem w hv)
    exact hstep.trans (Function.update_of_ne (h w List.mem_cons_self).symm ..)

theorem updateAll_append [DecidableEq κ] (l : κ → List α) (ws ws' : List (κ × List α)) :
    updateAll l (ws ++ ws') = updateAll (updateAll l ws) ws' := List.foldl_append

/-- What a key holds after updates depends on what it held before, not on other keys. -/
theorem updateAll_congr [DecidableEq κ] {l l' : κ → List α} {k : κ} (h : l k = l' k) :
    updateAll l ws k = updateAll l' ws k := by
  induction ws generalizing l l' with
  | nil => exact h
  | cons w ws ih =>
    refine ih ?_
    change Function.update l w.1 w.2 k = Function.update l' w.1 w.2 k
    by_cases heq : k = w.1
    · subst heq
      rw [Function.update_self, Function.update_self]
    · rw [Function.update_of_ne heq, Function.update_of_ne heq, h]

/-- Each key of a list without repetitions gets its own updates and no others. -/
theorem updateAll_flatMap [DecidableEq κ] {l : κ → List α} {ks : List κ}
    {u : κ → List (κ × List α)} (hu : ∀ k, ∀ w ∈ u k, w.1 = k) (hnodup : ks.Nodup) {k : κ}
    (hk : k ∈ ks) : updateAll l (ks.flatMap u) k = updateAll l (u k) k := by
  have hother : ∀ {ks' : List κ}, k ∉ ks' → ∀ w ∈ ks'.flatMap u, w.1 ≠ k := by
    intro ks' hnot w hw heq
    obtain ⟨k', hk', hw'⟩ := List.mem_flatMap.mp hw
    rw [hu k' w hw'] at heq
    exact hnot (heq ▸ hk')
  obtain ⟨front, back, rfl⟩ := List.append_of_mem hk
  rw [List.nodup_append, List.nodup_cons] at hnodup
  obtain ⟨-, ⟨hback, -⟩, hdisj⟩ := hnodup
  have hfront : k ∉ front := fun hmem => hdisj k hmem k List.mem_cons_self rfl
  rw [List.flatMap_append, List.flatMap_cons, updateAll_append, updateAll_append,
    updateAll_of_notMem (hother hback)]
  exact updateAll_congr (updateAll_of_notMem (hother hfront))

/-- **Ranges hold what the ledger says.**  If they do before the updates, they do after. -/
theorem window_putAll [DecidableEq κ] {K : κ → Prop}
    (hapart : ∀ k k', K k → K k' → k ≠ k' → Apart start size k k') {l : κ → List α}
    (hl : ∀ k, K k → window m (start k) (size k) = l k) (hfit : Fits size ws)
    (hK : ∀ w ∈ ws, K w.1) {k : κ} (hk : K k) :
    window (putAll start m ws) (start k) (size k) = updateAll l ws k := by
  induction ws generalizing m l with
  | nil => exact hl k hk
  | cons w ws ih =>
    obtain ⟨hw, hws⟩ := List.forall_mem_cons.mp hfit
    refine ih (fun k' hk' => ?_) hws fun v hv => hK v (List.mem_cons_of_mem w hv)
    change window (put m (start w.1) w.2) (start k') (size k') = Function.update l w.1 w.2 k'
    by_cases heq : k' = w.1
    · subst heq
      rw [Function.update_self, ← hw, window_put_self]
    · have := hapart k' w.1 hk' (hK w List.mem_cons_self) heq
      rw [Function.update_of_ne heq, ← hl k' hk']
      exact window_put_of_disjoint (by rw [Apart] at this; omega)

end Ledger

end Regions
