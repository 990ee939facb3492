/-
First occurrence of a pattern in a list.

`OccursAt pat l i` says that `pat` stands in `l` at position `i`, and
`findSub pat l` is the least such position:

* `findSub_eq_some` — the answer is an occurrence and no earlier position is one;
* `findSub_eq_none` — no answer means no occurrence at all;
* `occursAt_iff_getElem?` — occurrences, element by element, which turns a
  question about overlapping pieces of a stream into arithmetic on positions.
-/
import Mathlib.Algebra.Group.Int.Defs
import Mathlib.Algebra.Group.Nat.Defs
import Mathlib.Data.List.Basic
import Mathlib.Data.List.Infix
import Mathlib.Data.Nat.Find

namespace Search

variable {α : Type*}

/-- `pat` stands in `l` at position `i`. -/
def OccursAt (pat l : List α) (i : ℕ) : Prop := pat <+: l.drop i

instance [DecidableEq α] (pat l : List α) (i : ℕ) : Decidable (OccursAt pat l i) :=
  inferInstanceAs (Decidable (pat <+: l.drop i))

theorem occursAt_iff_getElem? {pat l : List α} {i : ℕ} :
    OccursAt pat l i ↔ ∀ k < pat.length, l[i + k]? = pat[k]? := by
  rw [OccursAt, List.prefix_iff_getElem?]
  constructor
  · intro h k hk
    rw [List.getElem?_eq_getElem hk, ← h k hk, List.getElem?_drop]
  · intro h k hk
    rw [List.getElem?_drop, h k hk, List.getElem?_eq_getElem hk]

theorem OccursAt.le_length {pat l : List α} {i : ℕ} (h : OccursAt pat l i) (hp : pat ≠ []) :
    i + pat.length ≤ l.length := by
  have hpos : 0 < pat.length := List.length_pos_iff.mpr hp
  have hle := List.IsPrefix.length_le h
  rw [List.length_drop] at hle
  omega

/-- An occurrence that ends inside the left part does not see the right part. -/
theorem occursAt_append_left {pat l r : List α} {i : ℕ} (h : i + pat.length ≤ l.length) :
    OccursAt pat (l ++ r) i ↔ OccursAt pat l i := by
  simp only [occursAt_iff_getElem?]
  refine forall₂_congr fun k hk => ?_
  rw [List.getElem?_append_left (by omega)]

/-- An occurrence that starts in the right part does not see the left part. -/
theorem occursAt_append_right {pat l r : List α} {i : ℕ} :
    OccursAt pat (l ++ r) (l.length + i) ↔ OccursAt pat r i := by
  simp only [occursAt_iff_getElem?]
  refine forall₂_congr fun k hk => ?_
  rw [List.getElem?_append_right (by omega), show l.length + i + k - l.length = i + k by omega]

theorem occursAt_drop {pat l : List α} {o i : ℕ} :
    OccursAt pat (l.drop o) i ↔ OccursAt pat l (o + i) := by
  rw [OccursAt, OccursAt, List.drop_drop]

/-- In an initial piece of `l` the occurrences are those of `l` that end in it. -/
theorem occursAt_take {pat l : List α} {n i : ℕ} (hp : pat ≠ []) :
    OccursAt pat (l.take n) i ↔ OccursAt pat l i ∧ i + pat.length ≤ n := by
  have hpos : 0 < pat.length := List.length_pos_iff.mpr hp
  simp only [occursAt_iff_getElem?]
  constructor
  · intro h
    have hlast := h (pat.length - 1) (by omega)
    have hn : i + pat.length ≤ n := by
      by_contra hn
      rw [List.getElem?_take, if_neg (by omega), List.getElem?_eq_getElem (by omega)] at hlast
      exact absurd hlast (by simp)
    refine ⟨fun k hk => ?_, hn⟩
    rw [← h k hk, List.getElem?_take_of_lt (by omega)]
  · rintro ⟨h, hn⟩ k hk
    rw [List.getElem?_take_of_lt (by omega), h k hk]

/-- An occurrence that lies inside another one is an occurrence in its pattern. -/
theorem OccursAt.inside {pat sub l : List α} {p q : ℕ} (h : OccursAt pat l p)
    (hsub : OccursAt sub l q) (hpq : p ≤ q) (hle : q + sub.length ≤ p + pat.length) :
    OccursAt sub pat (q - p) := by
  rw [occursAt_iff_getElem?] at h hsub ⊢
  intro k hk
  rw [← hsub k hk, ← h (q - p + k) (by omega), show p + (q - p + k) = q + k by omega]

/-- An occurrence inside an infix of `l`, at its position in `l`. -/
theorem occursAt_append_middle {pat l m r : List α} {i : ℕ} (h : i + pat.length ≤ m.length) :
    OccursAt pat (l ++ m ++ r) (l.length + i) ↔ OccursAt pat m i := by
  rw [List.append_assoc, occursAt_append_right, occursAt_append_left h]

/-- A composed pattern occurs where its parts follow each other. -/
theorem occursAt_append {pat pat' l : List α} {i : ℕ} :
    OccursAt (pat ++ pat') l i ↔ OccursAt pat l i ∧ OccursAt pat' l (i + pat.length) := by
  simp only [occursAt_iff_getElem?, List.length_append]
  constructor
  · intro h
    refine ⟨fun k hk => ?_, fun k hk => ?_⟩
    · rw [h k (by omega), List.getElem?_append_left hk]
    · rw [Nat.add_assoc, h (pat.length + k) (by omega), List.getElem?_append_right (by omega),
        Nat.add_sub_cancel_left]
  · rintro ⟨h, h'⟩ k hk
    by_cases hlt : k < pat.length
    · rw [h k hlt, List.getElem?_append_left hlt]
    · rw [List.getElem?_append_right (by omega), ← h' (k - pat.length) (by omega)]
      congr 1
      omega

theorem occursAt_self_append (l r : List α) : OccursAt l (l ++ r) 0 := List.prefix_append l r

theorem infix_of_occursAt {pat l : List α} {i : ℕ} (h : OccursAt pat l i) : pat <:+: l :=
  List.IsInfix.trans h.isInfix (List.drop_suffix i l).isInfix

section Find

variable [DecidableEq α]

/-- The first position at which `pat` stands in the list. -/
def findSub (pat : List α) : List α → Option ℕ
  | [] => if pat = [] then some 0 else none
  | a :: l => if pat <+: a :: l then some 0 else (findSub pat l).map (· + 1)

theorem findSub_eq_some : ∀ {l : List α} {pat : List α} {i : ℕ},
    findSub pat l = some i ↔ i ≤ l.length ∧ OccursAt pat l i ∧ ∀ j < i, ¬ OccursAt pat l j := by
  intro l
  induction l with
  | nil =>
    intro pat i
    rw [findSub]
    by_cases hp : pat = []
    · subst hp
      rw [if_pos rfl, Option.some_inj]
      constructor
      · rintro rfl
        exact ⟨le_rfl, by simp [OccursAt], fun j hj => absurd hj (Nat.not_lt_zero j)⟩
      · rintro ⟨hi, _⟩
        exact (Nat.le_zero.mp hi).symm
    · simp [hp, OccursAt]
  | cons a l ih =>
    intro pat i
    rw [findSub]
    by_cases hp : pat <+: a :: l
    · rw [if_pos hp, Option.some_inj]
      constructor
      · rintro rfl
        exact ⟨Nat.zero_le _, hp, fun j hj => absurd hj (Nat.not_lt_zero j)⟩
      · rintro ⟨_, _, hmin⟩
        by_contra hi
        exact hmin 0 (by omega) hp
    · rw [if_neg hp, Option.map_eq_some_iff]
      constructor
      · rintro ⟨i', hi', rfl⟩
        obtain ⟨hle, hocc, hmin⟩ := ih.mp hi'
        refine ⟨by simpa using hle, hocc, fun j hj => ?_⟩
        rcases j with _ | j
        · exact hp
        · exact hmin j (by omega)
      · rintro ⟨hle, hocc, hmin⟩
        rcases i with _ | i
        · exact absurd hocc hp
        · exact ⟨i, ih.mpr ⟨by simpa using hle, hocc, fun j hj => hmin (j + 1) (by omega)⟩, rfl⟩

theorem findSub_eq_none : ∀ {l : List α} {pat : List α},
    findSub pat l = none ↔ ∀ i ≤ l.length, ¬ OccursAt pat l i := by
  intro l pat
  constructor
  · intro h i hi hocc
    -- the least occurrence would have been found
    classical
    have hex : ∃ j, OccursAt pat l j := ⟨i, hocc⟩
    have hfind : findSub pat l = some (Nat.find hex) :=
      findSub_eq_some.mpr ⟨le_trans (Nat.find_min' hex hocc) hi, Nat.find_spec hex,
        fun j hj => Nat.find_min hex hj⟩
    rw [h] at hfind
    exact absurd hfind (by simp)
  · intro h
    rcases hf : findSub pat l with _ | i
    · rfl
    · obtain ⟨hle, hocc, _⟩ := findSub_eq_some.mp hf
      exact absurd hocc (h i hle)

end Find

end Search
