/-
A flat memory of `N` cells with wrapping addresses.

`store N m p xs` writes `xs` from address `p` on, `fill N m p c n` sets `n` cells,
and `slice N m p n` reads `n` cells.  The lemmas say what a write changes, what it
leaves (`store_of_lt`), and how consecutive writes
build up one slice (`slice_store_append`).
-/
import Mathlib.Algebra.Group.Int.Defs
import Mathlib.Algebra.Group.Nat.Defs
import Mathlib.Data.List.Basic
import Mathlib.Data.List.GetD

namespace Memory

variable {α : Type*} (N : ℕ)

/-- Write `xs` from address `p` on. -/
def store (m : ℕ → α) (p : ℕ) (xs : List α) : ℕ → α :=
  fun a => xs.getD ((a + N - p) % N) (m a)

/-- Set `n` cells from address `p` on to `c`. -/
def fill (m : ℕ → α) (p : ℕ) (c : α) (n : ℕ) : ℕ → α :=
  fun a => if (a + N - p) % N < n then c else m a

/-- Read `n` cells from address `p` on. -/
def slice (m : ℕ → α) (p n : ℕ) : List α := (List.range n).map fun i => m ((p + i) % N)

variable {N} {m m' : ℕ → α} {p a n : ℕ} {xs ys : List α}

@[simp] theorem length_slice (m : ℕ → α) (p n : ℕ) : (slice N m p n).length = n := by
  simp [slice]

theorem getElem?_slice {i : ℕ} (h : i < n) : (slice N m p n)[i]? = some (m ((p + i) % N)) := by
  simp [slice, h]

theorem store_apply (m : ℕ → α) (p : ℕ) (xs : List α) (a : ℕ) :
    store N m p xs a = xs.getD ((a + N - p) % N) (m a) := rfl

theorem store_of_lt (ha : a < p) (hx : p + xs.length ≤ N) :
    store N m p xs a = m a := by
  rw [store, Nat.mod_eq_of_lt (by omega), List.getD_eq_default _ _ (by omega)]

theorem store_of_mem {i : ℕ} (hi : i < xs.length) (hx : p + xs.length ≤ N) :
    store N m p xs (p + i) = xs[i] := by
  have hmod : (p + i + N - p) % N = i := by
    rw [show p + i + N - p = i + N by omega, Nat.add_mod_right, Nat.mod_eq_of_lt (by omega)]
  rw [store, hmod, List.getD_eq_getElem _ _ hi]

theorem slice_congr (h : ∀ i < n, m ((p + i) % N) = m' ((p + i) % N)) :
    slice N m p n = slice N m' p n := by
  simp only [slice, List.map_inj_left, List.mem_range]
  exact h

theorem take_slice {k : ℕ} (h : k ≤ n) : (slice N m p n).take k = slice N m p k := by
  rw [slice, slice, ← List.map_take, List.take_range, Nat.min_eq_left h]

/-- Two adjacent writes are one. -/
theorem store_store (h : p + xs.length + ys.length ≤ N) :
    store N (store N m p xs) (p + xs.length) ys = store N m p (xs ++ ys) := by
  funext a
  simp only [store]
  rcases Nat.eq_zero_or_pos N with rfl | hN
  · obtain rfl : xs = [] := List.length_eq_zero_iff.mp (by omega)
    obtain rfl : ys = [] := List.length_eq_zero_iff.mp (by omega)
    rfl
  have hlt : (a + N - p) % N < N := Nat.mod_lt _ hN
  have hmod : (a + N - (p + xs.length)) % N = ((a + N - p) % N + (N - xs.length)) % N := by
    rw [Nat.mod_add_mod, show a + N - p + (N - xs.length) = a + N - (p + xs.length) + N by omega,
      Nat.add_mod_right]
  rw [hmod]
  by_cases hi : (a + N - p) % N < xs.length
  · rw [Nat.mod_eq_of_lt (by omega), List.getD_eq_default ys _ (by omega),
      List.getD_append _ _ _ _ hi]
  · rw [show (a + N - p) % N + (N - xs.length) = (a + N - p) % N - xs.length + N by omega,
      Nat.add_mod_right, Nat.mod_eq_of_lt (by omega), List.getD_append_right _ _ _ _ (by omega),
      List.getD_eq_default xs _ (by omega)]

/-- Writing `xs` right behind a slice extends the slice by `xs`. -/
theorem slice_store_append (hs : slice N m p ys.length = ys)
    (hN : p + ys.length + xs.length ≤ N) :
    slice N (store N m (p + ys.length) xs) p (ys.length + xs.length) = ys ++ xs := by
  apply List.ext_getElem?
  intro i
  by_cases hi : i < ys.length + xs.length
  · rw [getElem?_slice hi, Nat.mod_eq_of_lt (by omega)]
    by_cases hy : i < ys.length
    · have hread := congrArg (fun l => l[i]?) hs
      simp only [getElem?_slice hy] at hread
      rw [Nat.mod_eq_of_lt (by omega)] at hread
      rw [store_of_lt (by omega) (by omega), List.getElem?_append_left hy, ← hread]
    · obtain ⟨j, rfl⟩ : ∃ j, i = ys.length + j := ⟨i - ys.length, by omega⟩
      rw [show p + (ys.length + j) = p + ys.length + j by omega,
        store_of_mem (by omega) (by omega), List.getElem?_append_right (by omega),
        show ys.length + j - ys.length = j by omega, List.getElem?_eq_getElem]
  · rw [List.getElem?_eq_none (by simpa using hi), List.getElem?_eq_none (by simpa using hi)]

theorem slice_store_self (hN : p + xs.length ≤ N) :
    slice N (store N m p xs) p xs.length = xs := by
  have hnil : slice N m p ([] : List α).length = [] := rfl
  simpa using slice_store_append hnil (by simpa using hN)

/-- A write carries agreement of two memories over to the written memories. -/
theorem store_congr (h : m a = m' a) : store N m p xs a = store N m' p xs a := by
  rw [store, store, h]

theorem fill_congr {c : α} (h : m a = m' a) : fill N m p c n a = fill N m' p c n a := by
  rw [fill, fill, h]

/-- On what is written the old content does not matter. -/
theorem store_congr_of_mem {q i : ℕ} (hN : 0 < N) (hi : i < xs.length) (hx : xs.length ≤ N) :
    store N m (q % N) xs ((q + i) % N) = store N m' (q % N) xs ((q + i) % N) := by
  have hq : q % N < N := Nat.mod_lt q hN
  have hmod : ((q + i) % N + N - q % N) % N = i := by
    rw [← Nat.mod_add_mod q N i]
    by_cases hlt : q % N + i < N
    · rw [Nat.mod_eq_of_lt hlt, show q % N + i + N - q % N = i + N by omega, Nat.add_mod_right,
        Nat.mod_eq_of_lt (by omega)]
    · have hwrap : (q % N + i) % N = q % N + i - N := by
        rw [Nat.mod_eq_sub_mod (by omega), Nat.mod_eq_of_lt (by omega)]
      rw [hwrap, show q % N + i - N + N - q % N = i by omega, Nat.mod_eq_of_lt (by omega)]
  rw [store, store, hmod, List.getD_eq_getElem _ _ hi, List.getD_eq_getElem _ _ hi]

-- from here on memories are compared through the lemmas, never by evaluation
attribute [irreducible] store fill

end Memory
