/-
Streams written to a device block by block.

`whole w xs` are the complete blocks of `w` items at the front of a stream and
`rest w xs` is what is left; `placed place n bs` puts the blocks `bs` on a device, the
first of them at `place n`, the next at `place (n + 1)`, and so on.

* `whole_append`, `rest_append` — feeding a stream on needs only what was left of it;
* `flatten_whole_of_dvd` — a stream of complete blocks is its blocks;
* `updateAll_placed` — blocks at different places are on the device afterwards.
-/
import Mathlib.Algebra.Group.Nat.Defs
import Mathlib.Data.List.Basic
import OpenMptcpRouter.Lib.Regions

namespace Blocks

variable {α ι : Type*} (w : ℕ)

/-- Block `k` of a stream. -/
def block (xs : List α) (k : ℕ) : List α := (xs.drop (k * w)).take w

/-- The complete blocks at the front of a stream. -/
def whole (xs : List α) : List (List α) := (List.range (xs.length / w)).map (block w xs)

/-- What is left behind them. -/
def rest (xs : List α) : List α := xs.drop (xs.length / w * w)

/-- The stream filled up with `c` to complete blocks. -/
def pad (c : α) (xs : List α) : List α :=
  xs ++ List.replicate ((w - xs.length % w) % w) c

/-- Blocks on a device from place number `n` on. -/
def placed (place : ℕ → ι) : ℕ → List (List α) → List (ι × List α)
  | _, [] => []
  | n, b :: bs => (place n, b) :: placed place (n + 1) bs

variable {w} {xs ys : List α} {bs bs' : List (List α)} {place : ℕ → ι}

theorem length_whole (xs : List α) : (whole w xs).length = xs.length / w := by simp [whole]

theorem length_rest (xs : List α) : (rest w xs).length = xs.length % w := by
  have hdiv := Nat.div_add_mod' xs.length w
  rw [rest, List.length_drop]
  omega

theorem length_rest_lt (hw : 0 < w) (xs : List α) : (rest w xs).length < w := by
  rw [length_rest]
  exact Nat.mod_lt _ hw

theorem whole_of_lt (h : xs.length < w) : whole w xs = [] := by
  rw [whole, Nat.div_eq_of_lt h]
  rfl

theorem rest_of_lt (h : xs.length < w) : rest w xs = xs := by
  rw [rest, Nat.div_eq_of_lt h, Nat.zero_mul, List.drop_zero]

/-- The stream is its complete blocks and what is left. -/
theorem flatten_whole_append_rest (xs : List α) : (whole w xs).flatten ++ rest w xs = xs := by
  have htake : ∀ n, ((List.range n).map (block w xs)).flatten = xs.take (n * w) := by
    intro n
    induction n with
    | zero => simp
    | succ n ih =>
      rw [List.range_succ, List.map_append, List.flatten_append, ih, Nat.succ_mul, List.take_add]
      simp [block]
  rw [whole, htake, rest, List.take_append_drop]

/-- A stream as long as some blocks is its blocks. -/
theorem flatten_whole_of_dvd (h : xs.length % w = 0) : (whole w xs).flatten = xs := by
  have hrest : rest w xs = [] := List.length_eq_zero_iff.mp ((length_rest xs).trans h)
  have happend := flatten_whole_append_rest (w := w) xs
  rwa [hrest, List.append_nil] at happend

theorem length_append_div (hw : 0 < w) (xs ys : List α) :
    (xs ++ ys).length / w = xs.length / w + (rest w xs ++ ys).length / w := by
  have hdiv := Nat.div_add_mod' xs.length w
  rw [List.length_append, List.length_append, length_rest, Nat.add_comm (xs.length / w),
    ← Nat.add_mul_div_right _ _ hw]
  congr 1
  omega

theorem drop_whole_append (xs ys : List α) (n : ℕ) :
    (xs ++ ys).drop ((xs.length / w + n) * w) = (rest w xs ++ ys).drop (n * w) := by
  have hle : xs.length / w * w ≤ xs.length := Nat.div_mul_le_self ..
  rw [rest, ← List.drop_append_of_le_length hle, List.drop_drop, Nat.add_mul]

/-- Feeding on a stream completes the block at its end first. -/
theorem whole_append (hw : 0 < w) (xs ys : List α) :
    whole w (xs ++ ys) = whole w xs ++ whole w (rest w xs ++ ys) := by
  rw [whole, length_append_div hw, List.range_add, List.map_append, List.map_map]
  congr 1
  · refine List.map_congr_left fun k hk => ?_
    have hlt : k < xs.length / w := List.mem_range.mp hk
    have hle : (k + 1) * w ≤ xs.length :=
      Nat.le_trans (Nat.mul_le_mul_right w hlt) (Nat.div_mul_le_self ..)
    rw [Nat.add_one_mul] at hle
    rw [block, List.drop_append_of_le_length (by omega), List.take_append_of_le_length]
    · rfl
    · rw [List.length_drop]
      omega
  · refine List.map_congr_left fun k _ => ?_
    rw [Function.comp_apply, block, drop_whole_append]
    rfl

theorem rest_append (hw : 0 < w) (xs ys : List α) :
    rest w (xs ++ ys) = rest w (rest w xs ++ ys) := by
  conv_lhs => rw [rest, length_append_div hw, drop_whole_append]
  rfl

theorem whole_of_length_eq (hw : 0 < w) (h : xs.length = w) : whole w xs = [xs] := by
  rw [whole, h, Nat.div_self hw]
  simp only [List.range_one, List.map_singleton, block, Nat.zero_mul, List.drop_zero]
  rw [List.take_of_length_le (Nat.le_of_eq h)]

theorem rest_of_mod_eq_zero (h : xs.length % w = 0) : rest w xs = [] :=
  List.length_eq_zero_iff.mp ((length_rest xs).trans h)

/-- The complete blocks of a stream are those of the part they make up. -/
theorem whole_take (hw : 0 < w) (xs : List α) :
    whole w (xs.take (xs.length / w * w)) = whole w xs := by
  have hle : xs.length / w * w ≤ xs.length := Nat.div_mul_le_self ..
  have hmod : (xs.take (xs.length / w * w)).length % w = 0 := by
    rw [List.length_take, Nat.min_eq_left hle, Nat.mul_mod_left]
  conv_rhs => rw [← List.take_append_drop (xs.length / w * w) xs, whole_append hw,
    rest_of_mod_eq_zero hmod, List.nil_append]
  have hnone : whole w (xs.drop (xs.length / w * w)) = [] := whole_of_lt (length_rest_lt hw xs)
  rw [hnone, List.append_nil]

theorem length_pad_mod (hw : 0 < w) (c : α) (xs : List α) : (pad w c xs).length % w = 0 := by
  have hlt := Nat.mod_lt xs.length hw
  rw [pad, List.length_append, List.length_replicate, Nat.add_mod_mod, ← Nat.mod_add_mod]
  rcases Nat.eq_zero_or_pos (xs.length % w) with h | h
  · rw [h, Nat.zero_add, Nat.sub_zero, Nat.mod_self]
  · rw [Nat.add_sub_cancel' (Nat.le_of_lt hlt), Nat.mod_self]

/-- The blocks of a stream that was filled up: those it had, and one more if any was left. -/
theorem whole_pad (hw : 0 < w) (c : α) (xs : List α) :
    whole w (pad w c xs) =
      whole w xs ++ if rest w xs = [] then []
        else [rest w xs ++ List.replicate (w - (rest w xs).length) c] := by
  have hlt := length_rest_lt hw xs
  rw [pad, whole_append hw, ← length_rest]
  congr 1
  by_cases h : rest w xs = []
  · have hnil : whole w ([] : List α) = [] := whole_of_lt hw
    rw [if_pos h, h]
    simp [hnil]
  · have hpos := List.length_pos_iff.mpr h
    have hone : (w - (rest w xs).length) % w = w - (rest w xs).length :=
      Nat.mod_eq_of_lt (by omega)
    have hlen : (rest w xs ++ List.replicate (w - (rest w xs).length) c).length = w := by
      rw [List.length_append, List.length_replicate]
      omega
    rw [if_neg h, hone, whole_of_length_eq hw hlen]

theorem placed_append (place : ℕ → ι) (n : ℕ) (bs bs' : List (List α)) :
    placed place n (bs ++ bs') = placed place n bs ++ placed place (n + bs.length) bs' := by
  induction bs generalizing n with
  | nil => rfl
  | cons b bs ih =>
    rw [List.cons_append, placed, ih, placed, List.cons_append, List.length_cons,
      Nat.add_assoc, Nat.add_comm 1]

/-- Places are counted from where the first block goes. -/
theorem placed_congr {place' : ℕ → ι} {m n : ℕ} (h : ∀ i, place' (m + i) = place (n + i)) :
    placed place' m bs = placed place n bs := by
  induction bs generalizing m n with
  | nil => rfl
  | cons b bs ih =>
    have hnext : ∀ i, place' (m + 1 + i) = place (n + 1 + i) := by
      intro i
      rw [Nat.add_assoc, Nat.add_assoc, h]
    have hfirst := h 0
    rw [Nat.add_zero, Nat.add_zero] at hfirst
    rw [placed, placed, hfirst, ih hnext]

theorem map_fst_placed (place : ℕ → ι) (n : ℕ) (bs : List (List α)) :
    (placed place n bs).map Prod.fst = (List.range bs.length).map fun i => place (n + i) := by
  induction bs generalizing n with
  | nil => rfl
  | cons b bs ih =>
    rw [placed, List.map_cons, ih, List.length_cons, List.range_succ_eq_map, List.map_cons,
      List.map_map]
    congr 1
    refine List.map_congr_left fun i _ => ?_
    rw [Function.comp_apply, Nat.succ_eq_add_one, Nat.add_assoc, Nat.add_comm 1]

/-- **What was placed is there.**  Blocks written to different places are read back. -/
theorem updateAll_placed [DecidableEq ι] (dev : ι → List α) {n : ℕ} (bs : List (List α))
    (hinj : ((List.range bs.length).map fun i => place (n + i)).Nodup) :
    ((List.range bs.length).map fun i => place (n + i)).map
      (Regions.updateAll dev (placed place n bs)) = bs := by
  induction bs generalizing n dev with
  | nil => rfl
  | cons b bs ih =>
    rw [← map_fst_placed] at hinj ⊢
    rw [placed, List.map_cons, List.nodup_cons] at hinj
    rw [placed, List.map_cons, List.map_cons]
    congr 1
    · -- no later block goes where the first one is
      have hother : ∀ p ∈ placed place (n + 1) bs, p.1 ≠ place n := by
        intro p hp heq
        have hmem : p.1 ∈ (placed place (n + 1) bs).map Prod.fst := List.mem_map_of_mem hp
        exact hinj.1 (heq ▸ hmem)
      exact (Regions.updateAll_of_notMem hother).trans (Function.update_self ..)
    · have hlater := ih (Function.update dev (place n) b) (map_fst_placed place _ _ ▸ hinj.2)
      rw [← map_fst_placed] at hlater
      exact hlater

end Blocks
