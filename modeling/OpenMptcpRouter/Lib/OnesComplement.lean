/-
One's complement sums, as checksums of packets take them.

Two numbers up to `m` are added and a carry is added to the result.  In the end that is
`fold m` of the plain sum: the number up to `m` that is congruent to it, and 0 only for 0.

* `fold_add` — when the carries are added does not matter;
* `fold_eq_iff`, `fold_complement` — what a sum that is right is, and how to make it right;
* `fold_swap` — **the order of the bytes does not matter**, all sums have the same one.
-/
import Mathlib.Data.Nat.ModEq
import Mathlib.Tactic.Ring

namespace OnesComplement

/-- The sum, with its carries added to it. -/
def fold (m n : ℕ) : ℕ := if n = 0 then 0 else (n - 1) % m + 1

section Fold

variable {m a b n : ℕ}

@[simp] theorem fold_zero (m : ℕ) : fold m 0 = 0 := rfl

theorem fold_of_ne (h : n ≠ 0) : fold m n = (n - 1) % m + 1 := if_neg h

theorem fold_eq_zero : fold m n = 0 ↔ n = 0 := by
  constructor
  · intro h
    by_contra hn
    rw [fold_of_ne hn] at h
    omega
  · rintro rfl
    rfl

theorem fold_le (hm : 0 < m) (n : ℕ) : fold m n ≤ m := by
  by_cases h : n = 0
  · rw [h, fold_zero]
    exact Nat.zero_le m
  · rw [fold_of_ne h]
    exact Nat.mod_lt _ hm

theorem fold_modEq (m n : ℕ) : fold m n ≡ n [MOD m] := by
  by_cases h : n = 0
  · rw [h, fold_zero]
  · have hn : n - 1 + 1 = n := by omega
    calc fold m n = (n - 1) % m + 1 := fold_of_ne h
      _ ≡ n - 1 + 1 [MOD m] := (Nat.mod_modEq _ _).add_right 1
      _ = n := hn

/-- Sums are the same if they are congruent and none or both are 0. -/
theorem fold_eq_fold (hzero : a = 0 ↔ b = 0) (h : a ≡ b [MOD m]) :
    fold m a = fold m b := by
  by_cases ha : a = 0
  · rw [ha, hzero.mp ha]
  · have hb : b ≠ 0 := fun hb => ha (hzero.mpr hb)
    have hpred : a - 1 ≡ b - 1 [MOD m] := by
      refine Nat.ModEq.add_right_cancel' 1 ?_
      rw [show a - 1 + 1 = a by omega, show b - 1 + 1 = b by omega]
      exact h
    rw [fold_of_ne ha, fold_of_ne hb, hpred]

theorem fold_of_le (h : n ≤ m) : fold m n = n := by
  by_cases hn : n = 0
  · rw [hn, fold_zero]
  · rw [fold_of_ne hn, Nat.mod_eq_of_lt (by omega)]
    omega

/-- When a carry is added does not matter. -/
theorem fold_add (m a b : ℕ) : fold m (fold m a + b) = fold m (a + b) := by
  refine fold_eq_fold ?_ ((fold_modEq m a).add_right b)
  have hzero : fold m a = 0 ↔ a = 0 := fold_eq_zero
  omega

/-- **When a sum is right.** -/
theorem fold_eq_iff (hm : 0 < m) : fold m n = m ↔ n ≠ 0 ∧ m ∣ n := by
  constructor
  · intro h
    refine ⟨fun hn => ?_, ?_⟩
    · rw [hn, fold_zero] at h
      omega
    · have hmod := fold_modEq m n
      rw [h] at hmod
      exact (Nat.modEq_zero_iff_dvd.mp (hmod.symm.trans (Nat.modEq_zero_iff_dvd.mpr dvd_rfl)))
  · rintro ⟨hn, hdvd⟩
    have hmod : n ≡ m [MOD m] :=
      (Nat.modEq_zero_iff_dvd.mpr hdvd).trans (Nat.modEq_zero_iff_dvd.mpr dvd_rfl).symm
    rw [fold_eq_fold (by omega) hmod, fold_of_le (Nat.le_refl m)]

/-- **The complement of a sum** makes it right. -/
theorem fold_complement (hm : 0 < m) (n : ℕ) : fold m (n + (m - fold m n)) = m := by
  rw [← fold_add, Nat.add_sub_cancel' (fold_le hm n), fold_of_le (Nat.le_refl m)]

end Fold

/-! ### The order of the bytes -/

/-- The two digits of a number change places. -/
def swap (base n : ℕ) : ℕ := n % base * base + n / base

section Swap

variable {base n : ℕ}

theorem swap_eq_zero (h : n < base * base) : swap base n = 0 ↔ n = 0 := by
  have hbase : 0 < base := Nat.pos_of_ne_zero fun h0 => by rw [h0] at h; omega
  constructor
  · intro hswap
    have hdiv : n / base = 0 := by
      rw [swap] at hswap
      exact (Nat.add_eq_zero_iff.mp hswap).2
    have hmod : n % base = 0 := by
      rw [swap, hdiv, Nat.add_zero] at hswap
      exact (Nat.mul_eq_zero.mp hswap).resolve_right hbase.ne'
    rw [← Nat.div_add_mod n base, hdiv, hmod, Nat.mul_zero]
  · rintro rfl
    simp [swap]

theorem swap_modEq (hbase : 0 < base) (n : ℕ) : swap base n ≡ base * n [MOD base * base - 1] := by
  have hone : base * base ≡ 1 [MOD base * base - 1] := by
    have hpos : 1 ≤ base * base := Nat.mul_pos hbase hbase
    exact ((Nat.modEq_iff_dvd' hpos).mpr dvd_rfl).symm
  calc swap base n = n % base * base + 1 * (n / base) := by rw [swap, Nat.one_mul]
    _ ≡ n % base * base + base * base * (n / base) [MOD base * base - 1] :=
        (hone.symm.mul_right _).add_left _
    _ = base * (base * (n / base) + n % base) := by ring
    _ = base * n := by rw [Nat.div_add_mod]

/-- **The sum of what was swapped is the sum, swapped.** -/
theorem fold_swap (hbase : 1 < base) (n : ℕ) :
    swap base (fold (base * base - 1) n) = fold (base * base - 1) (base * n) := by
  have hsquare : base < base * base := by
    calc base = base * 1 := (Nat.mul_one base).symm
      _ < base * base := Nat.mul_lt_mul_of_pos_left hbase (by omega)
  have hm : 0 < base * base - 1 := by omega
  have hlt : fold (base * base - 1) n < base * base := by
    have := fold_le hm n
    omega
  have hle : swap base (fold (base * base - 1) n) ≤ base * base - 1 := by
    have hmod := Nat.mod_lt (fold (base * base - 1) n) (show 0 < base by omega)
    have hdiv := Nat.div_lt_of_lt_mul hlt
    have hmul : fold (base * base - 1) n % base * base ≤ (base - 1) * base :=
      Nat.mul_le_mul_right base (by omega)
    rw [Nat.sub_mul, Nat.one_mul] at hmul
    rw [swap]
    omega
  rw [← fold_of_le hle]
  refine fold_eq_fold ?_ ((swap_modEq (by omega) _).trans ((fold_modEq _ n).mul_left base))
  rw [swap_eq_zero hlt, fold_eq_zero, Nat.mul_eq_zero]
  exact (or_iff_right (by omega)).symm

end Swap

end OnesComplement
