/-
The sort that puts the environment into order (`lib/qsort.c`), a Shell sort.

The gaps are 1, 4, 13, …, from the last one that is small enough down to 1.  The passes with
larger gaps only move elements; what sorts is the last one, an insertion sort.

* `qsort_perm` — whatever the comparison, every element is still there;
* `qsort_sorted` — **with a comparison that is total and transitive the result is sorted**;
* `qsort_comp` — what else the elements are does not matter.
-/
import Mathlib.Data.List.Nodup
import Mathlib.Data.List.Perm.Basic
import Mathlib.Logic.Equiv.Basic
import Mathlib.Order.Basic

namespace Hashtable

variable {α : Type*} (comp : α → α → ℤ)

/-- The elements at `i` and `j` change places. -/
def swap (a : ℕ → α) (i j : ℕ) : ℕ → α := a ∘ Equiv.swap i j

/-- The innermost loop of `qsort`: the element at `j` goes down in steps of `gap`. -/
def sift (gap : ℕ) : (rounds j : ℕ) → (ℕ → α) → ℕ → α
  | 0, _, a => a
  | rounds + 1, j, a =>
    let j := j - gap
    if comp (a j) (a (j + gap)) ≤ 0 then a
    else
      let a := swap a j (j + gap)
      if gap ≤ j then sift gap rounds j a else a

/-- One pass over the elements from `gap` on. -/
def pass (nel gap : ℕ) (a : ℕ → α) : ℕ → α :=
  (List.range' gap (nel - gap)).foldl (fun a i => sift comp gap i i a) a

/-- The loop that looks for the first gap. -/
def firstGap (nel : ℕ) : (rounds gap : ℕ) → ℕ
  | 0, gap => gap
  | rounds + 1, gap =>
    let gap := 3 * gap + 1
    if gap < (nel - 1) / 3 then firstGap nel rounds gap else gap

/-- The loop over the gaps. -/
def passes (nel : ℕ) : (rounds gap : ℕ) → (ℕ → α) → ℕ → α
  | 0, _, a => a
  | rounds + 1, gap, a =>
    let a := pass comp nel gap a
    let gap := (gap - 1) / 3
    if gap ≠ 0 then passes nel rounds gap a else a

/-- `qsort` of the first `nel` elements. -/
def qsort (nel : ℕ) (a : ℕ → α) : ℕ → α :=
  if 1 < nel then passes comp nel nel (firstGap nel nel 0) a else a

/-! ### Nothing is lost -/

/-- The first `nel` elements of `b` are those of `a`, in another order. -/
def Rearranged (nel : ℕ) (a b : ℕ → α) : Prop :=
  ∃ σ : Equiv.Perm ℕ, (∀ i, nel ≤ i → σ i = i) ∧ b = a ∘ σ

section Permutation

variable {comp} {nel gap : ℕ} {a b c : ℕ → α}

theorem Rearranged.refl (a : ℕ → α) : Rearranged nel a a := ⟨.refl ℕ, fun _ _ => rfl, rfl⟩

theorem Rearranged.trans (hab : Rearranged nel a b) (hbc : Rearranged nel b c) :
    Rearranged nel a c := by
  obtain ⟨σ, hσ, rfl⟩ := hab
  obtain ⟨τ, hτ, rfl⟩ := hbc
  refine ⟨τ.trans σ, fun i hi => ?_, rfl⟩
  rw [Equiv.trans_apply, hτ i hi, hσ i hi]

theorem rearranged_swap {i j : ℕ} (hi : i < nel) (hj : j < nel) (a : ℕ → α) :
    Rearranged nel a (swap a i j) :=
  ⟨Equiv.swap i j, fun _ hm => Equiv.swap_apply_of_ne_of_ne (by omega) (by omega), rfl⟩

theorem Rearranged.perm (h : Rearranged nel a b) :
    ((List.range nel).map b).Perm ((List.range nel).map a) := by
  obtain ⟨σ, hσ, rfl⟩ := h
  rw [← List.map_map]
  refine List.Perm.map a ?_
  have hnodup : ((List.range nel).map σ).Nodup := List.nodup_range.map σ.injective
  refine (List.perm_ext_iff_of_nodup hnodup List.nodup_range).mpr fun i => ?_
  have hlt : ∀ j, σ j < nel ↔ j < nel := by
    intro j
    constructor
    · intro hj
      by_contra hge
      rw [hσ j (by omega)] at hj
      exact hge hj
    · intro hj
      by_contra hge
      have hfix : σ (σ j) = σ j := hσ (σ j) (by omega)
      rw [σ.injective hfix] at hge
      exact hge hj
  rw [List.mem_map, List.mem_range]
  constructor
  · rintro ⟨j, hj, rfl⟩
    exact (hlt j).mpr (List.mem_range.mp hj)
  · intro hi
    refine ⟨σ.symm i, List.mem_range.mpr ((hlt _).mp ?_), σ.apply_symm_apply i⟩
    rw [σ.apply_symm_apply]
    exact hi

theorem rearranged_sift (hgap : 0 < gap) {rounds j : ℕ} (hj : gap ≤ j) (hlt : j < nel)
    (a : ℕ → α) : Rearranged nel a (sift comp gap rounds j a) := by
  induction rounds generalizing j a with
  | zero => exact .refl a
  | succ rounds ih =>
    rw [sift]
    dsimp only
    have hswap : Rearranged nel a (swap a (j - gap) (j - gap + gap)) :=
      rearranged_swap (by omega) (by omega) a
    split
    · exact .refl a
    · split
      · rename_i hmore
        exact hswap.trans (ih hmore (by omega) _)
      · exact hswap

theorem rearranged_pass (hgap : 0 < gap) (a : ℕ → α) : Rearranged nel a (pass comp nel gap a) := by
  have hmem : ∀ i ∈ List.range' gap (nel - gap), gap ≤ i ∧ i < nel := by
    intro i hi
    rw [List.mem_range'_1] at hi
    omega
  rw [pass]
  generalize List.range' gap (nel - gap) = indices at hmem
  induction indices generalizing a with
  | nil => exact .refl a
  | cons i indices ih =>
    obtain ⟨hi, hrest⟩ := List.forall_mem_cons.mp hmem
    exact (rearranged_sift hgap hi.1 hi.2 a).trans (ih _ hrest)

theorem rearranged_passes {rounds : ℕ} (hgap : 0 < gap) (a : ℕ → α) :
    Rearranged nel a (passes comp nel rounds gap a) := by
  induction rounds generalizing gap a with
  | zero => exact .refl a
  | succ rounds ih =>
    rw [passes]
    split
    · rename_i hmore
      exact (rearranged_pass hgap a).trans (ih (Nat.pos_of_ne_zero hmore) _)
    · exact rearranged_pass hgap a

theorem firstGap_pos {rounds : ℕ} (hpos : 0 < rounds) (gap : ℕ) : 0 < firstGap nel rounds gap := by
  induction rounds generalizing gap with
  | zero => omega
  | succ rounds ih =>
    rw [firstGap]
    split
    · rcases Nat.eq_zero_or_pos rounds with rfl | hmore
      · exact Nat.succ_pos _
      · exact ih hmore _
    · exact Nat.succ_pos _

/-- **Nothing is lost**, whatever the comparison. -/
theorem qsort_perm (comp : α → α → ℤ) (nel : ℕ) (a : ℕ → α) :
    ((List.range nel).map (qsort comp nel a)).Perm ((List.range nel).map a) := by
  rw [qsort]
  split
  · rename_i hnel
    exact (rearranged_passes (firstGap_pos (by omega) 0) a).perm
  · exact List.Perm.refl _

end Permutation

/-! ### The last pass -/

section Order

variable {comp} {nel : ℕ} {a : ℕ → α}

/-- `a` comes before `b`, or neither before the other. -/
abbrev Before (comp : α → α → ℤ) (x y : α) : Prop := comp x y ≤ 0

/-- The first `n` elements are sorted. -/
def SortedTo (comp : α → α → ℤ) (n : ℕ) (a : ℕ → α) : Prop :=
  ∀ p q, p < q → q < n → Before comp (a p) (a q)

/-- The elements up to `i` are sorted, but for the one at `j`, which may have to go down. -/
def SortedBut (comp : α → α → ℤ) (i j : ℕ) (a : ℕ → α) : Prop :=
  ∀ p q, p < q → q ≤ i → q ≠ j → Before comp (a p) (a q)

theorem swap_of_ne {i j m : ℕ} (hi : m ≠ i) (hj : m ≠ j) (a : ℕ → α) : swap a i j m = a m := by
  rw [swap, Function.comp_apply, Equiv.swap_apply_of_ne_of_ne hi hj]

theorem swap_left (i j : ℕ) (a : ℕ → α) : swap a i j i = a j := by
  rw [swap, Function.comp_apply, Equiv.swap_apply_left]

theorem swap_right (i j : ℕ) (a : ℕ → α) : swap a i j j = a i := by
  rw [swap, Function.comp_apply, Equiv.swap_apply_right]

variable (htotal : ∀ x y, Before comp x y ∨ Before comp y x)
  (htrans : ∀ x y z, Before comp x y → Before comp y z → Before comp x z)

include htotal htrans

/-- The element at `j` goes down until it is in its place. -/
theorem sorted_sift {rounds i j : ℕ} (hpos : 0 < j) (hle : j ≤ i) (hrounds : j ≤ rounds)
    (h : SortedBut comp i j a) : SortedTo comp (i + 1) (sift comp 1 rounds j a) := by
  induction rounds generalizing j a with
  | zero => omega
  | succ rounds ih =>
    have hback : j - 1 + 1 = j := by omega
    rw [sift]
    dsimp only
    rw [hback]
    by_cases hplace : comp (a (j - 1)) (a j) ≤ 0
    · rw [if_pos hplace]
      intro p q hpq hq
      by_cases hqj : q = j
      · rcases Nat.lt_or_eq_of_le (Nat.le_sub_one_of_lt (hqj ▸ hpq)) with hlt | rfl
        · have hbelow : Before comp (a p) (a (j - 1)) := h p (j - 1) hlt (by omega) (by omega)
          rw [hqj]
          exact htrans _ _ _ hbelow hplace
        · rw [hqj]
          exact hplace
      · exact h p q hpq (by omega) hqj
    · rw [if_neg hplace]
      have hdown : Before comp (a j) (a (j - 1)) := (htotal _ _).resolve_left hplace
      -- the two elements have changed places: the others still stand on the right sides
      have hnext : SortedBut comp i (j - 1) (swap a (j - 1) j) := by
        intro p q hpq hq hne
        rcases Nat.lt_trichotomy q j with hlt | rfl | hgt
        · rw [swap_of_ne (by omega) (by omega), swap_of_ne (by omega) (by omega)]
          exact h p q hpq hq (by omega)
        · rw [swap_right]
          rcases Nat.lt_or_eq_of_le (Nat.le_sub_one_of_lt hpq) with hlt | rfl
          · rw [swap_of_ne (by omega) (by omega)]
            exact h p (q - 1) hlt (by omega) (by omega)
          · rw [swap_left]
            exact hdown
        · rw [swap_of_ne (m := q) (by omega) (by omega)]
          by_cases hp : p = j
          · rw [hp, swap_right]
            exact h (j - 1) q (by omega) hq (by omega)
          · by_cases hp' : p = j - 1
            · rw [hp', swap_left]
              exact h j q hgt hq (by omega)
            · rw [swap_of_ne hp' hp]
              exact h p q hpq hq (by omega)
      by_cases hmore : 1 ≤ j - 1
      · rw [if_pos hmore]
        exact ih hmore (by omega) (by omega) hnext
      · rw [if_neg hmore]
        intro p q hpq hq
        exact hnext p q hpq (by omega) (by omega)

/-- **The pass with gap 1** sorts. -/
theorem sorted_pass (hnel : 0 < nel) (a : ℕ → α) : SortedTo comp nel (pass comp nel 1 a) := by
  have hrun : ∀ n, SortedTo comp (n + 1)
      ((List.range' 1 n).foldl (fun a i => sift comp 1 i i a) a) := by
    intro n
    induction n with
    | zero =>
      intro p q hpq hq
      omega
    | succ n ih =>
      rw [List.range'_1_concat, List.foldl_concat, Nat.add_comm 1 n]
      refine sorted_sift htotal htrans (Nat.succ_pos n) (Nat.le_refl _) (Nat.le_refl _) ?_
      exact fun p q hpq hq hne => ih p q hpq (by omega)
  have hn : nel - 1 + 1 = nel := by omega
  have hsorted := hrun (nel - 1)
  rw [hn] at hsorted
  exact hsorted

omit htotal htrans

/-- The gaps, from the smallest one on. -/
def gaps : ℕ → ℕ
  | 0 => 1
  | k + 1 => 3 * gaps k + 1

theorem lt_gaps (k : ℕ) : k < gaps k := by
  induction k with
  | zero => decide
  | succ k ih =>
    rw [gaps]
    omega

theorem gaps_pos (k : ℕ) : 0 < gaps k := Nat.lt_of_le_of_lt (Nat.zero_le k) (lt_gaps k)

/-- The first gap is the first one that is not below a third. -/
theorem firstGap_eq (rounds k gap : ℕ) (hgap : 3 * gap + 1 = gaps k) (hlt : gaps k < nel)
    (hrounds : nel ≤ rounds + k) :
    ∃ m, firstGap nel rounds gap = gaps m ∧ gaps m < nel ∧ (nel - 1) / 3 ≤ gaps m := by
  induction rounds generalizing k gap with
  | zero =>
    have := lt_gaps k
    omega
  | succ rounds ih =>
    rw [firstGap, hgap]
    by_cases hmore : gaps k < (nel - 1) / 3
    · rw [if_pos hmore]
      have hnext : gaps (k + 1) < nel := by
        rw [gaps]
        omega
      exact ih (k + 1) (gaps k) rfl hnext (by omega)
    · rw [if_neg hmore]
      exact ⟨k, rfl, hlt, by omega⟩

theorem sorted_passes (htotal : ∀ x y, Before comp x y ∨ Before comp y x)
    (htrans : ∀ x y z, Before comp x y → Before comp y z → Before comp x z) (hnel : 0 < nel)
    {rounds m : ℕ} (hrounds : m < rounds) (a : ℕ → α) :
    SortedTo comp nel (passes comp nel rounds (gaps m) a) := by
  induction rounds generalizing m a with
  | zero => omega
  | succ rounds ih =>
    rw [passes]
    cases m with
    | zero => exact sorted_pass htotal htrans hnel a
    | succ m =>
      have hback : (gaps (m + 1) - 1) / 3 = gaps m := by
        rw [gaps]
        omega
      have hne : gaps m ≠ 0 := Nat.ne_of_gt (gaps_pos m)
      rw [hback, if_pos hne]
      exact ih (by omega) _

/-- **What is sorted is sorted**, if the comparison is total and transitive. -/
theorem qsort_sorted (htotal : ∀ x y, Before comp x y ∨ Before comp y x)
    (htrans : ∀ x y z, Before comp x y → Before comp y z → Before comp x z) (nel : ℕ)
    (a : ℕ → α) : SortedTo comp nel (qsort comp nel a) := by
  rw [qsort]
  by_cases hnel : 1 < nel
  · obtain ⟨m, hfirst, hlt, -⟩ := firstGap_eq nel 0 0 rfl hnel (Nat.le_refl nel)
    have hm := lt_gaps m
    rw [if_pos hnel, hfirst]
    exact sorted_passes htotal htrans (by omega) (by omega) a
  · rw [if_neg hnel]
    intro p q hpq hq
    omega

end Order

/-! ### Nothing but the comparison is looked at -/

section Map

variable {β : Type*} (f : β → α)

theorem sift_comp (gap rounds j : ℕ) (a : ℕ → β) :
    sift comp gap rounds j (f ∘ a) = f ∘ sift (fun x y => comp (f x) (f y)) gap rounds j a := by
  induction rounds generalizing j a with
  | zero => rfl
  | succ rounds ih =>
    rw [sift, sift]
    dsimp only [Function.comp_apply]
    split
    · rfl
    · split
      · exact ih (j - gap) (swap a (j - gap) (j - gap + gap))
      · rfl

theorem pass_comp (nel gap : ℕ) (a : ℕ → β) :
    pass comp nel gap (f ∘ a) = f ∘ pass (fun x y => comp (f x) (f y)) nel gap a := by
  rw [pass, pass]
  generalize List.range' gap (nel - gap) = is
  induction is generalizing a with
  | nil => rfl
  | cons i is ih => rw [List.foldl_cons, List.foldl_cons, sift_comp, ih]

theorem passes_comp (nel rounds gap : ℕ) (a : ℕ → β) :
    passes comp nel rounds gap (f ∘ a) =
      f ∘ passes (fun x y => comp (f x) (f y)) nel rounds gap a := by
  induction rounds generalizing gap a with
  | zero => rfl
  | succ rounds ih =>
    rw [passes, passes, pass_comp]
    split
    · exact ih _ _
    · rfl

/-- The sort only looks at what is compared. -/
theorem qsort_comp (nel : ℕ) (a : ℕ → β) :
    qsort comp nel (f ∘ a) = f ∘ qsort (fun x y => comp (f x) (f y)) nel a := by
  rw [qsort, qsort]
  split
  · exact passes_comp ..
  · rfl

end Map

end Hashtable
