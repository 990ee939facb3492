/-
Tables with open addressing.

A key is looked for in the slots of a table in an order of its own, up to the first slot that
has never been used.  An entry that is deleted leaves a mark in its slot, so that what was
put behind it is still found.

* `seek`, `get` — the slot in which the search for a key ends, and what it finds there;
* `Sound` — every entry is in the slot in which the search for its key ends.  Putting an entry
  where the search for its key comes by and deleting an entry both keep it (`Sound.put`,
  `Sound.delete`), and it is all that is needed to say what a search finds afterwards
  (`Sound.get_put`, `Sound.get_delete`);
* `orbit` — the slots in the order of double hashing; if their number is prime, every slot is
  visited once (`mem_orbit`), and the start is met again at the very end (`iterate_ne_start`,
  `iterate_prime`).
-/
import Mathlib.Data.Finset.Card
import Mathlib.Data.List.Iterate
import Mathlib.Data.Nat.Prime.Basic
import Mathlib.Data.Set.Card
import Mathlib.Order.Interval.Finset.Nat

namespace OpenAddressing

/-! ### Searching -/

/-- What a slot holds. -/
inductive Slot (κ ν : Type*)
  | free
  | deleted
  | used (key : κ) (value : ν)

variable {ι κ ν : Type*} [DecidableEq κ]

/-- The search for `k` ends here. -/
def Slot.stops (k : κ) : Slot κ ν → Bool
  | .free => true
  | .deleted => false
  | .used l _ => l = k

/-- What is found for `k` here. -/
def Slot.value (k : κ) : Slot κ ν → Option ν
  | .used l v => if l = k then some v else none
  | _ => none

variable (order : κ → List ι)

/-- The slot in which the search for `k` ends. -/
def seek (t : ι → Slot κ ν) (k : κ) : Option ι := (order k).find? fun i => (t i).stops k

/-- What is found for `k`. -/
def get (t : ι → Slot κ ν) (k : κ) : Option ν := (seek order t k).bind fun i => (t i).value k

/-- Every key is looked for in all slots. -/
def Covers (slots : Finset ι) : Prop := ∀ k i, i ∈ order k ↔ i ∈ slots

/-- Every entry is in the slot in which the search for its key ends. -/
def Sound (slots : Finset ι) (t : ι → Slot κ ν) : Prop :=
  ∀ i ∈ slots, ∀ k v, t i = .used k v → seek order t k = some i

/-- The search for `k` comes by slot `i`. -/
def ComesBy (t : ι → Slot κ ν) (k : κ) (i : ι) : Prop :=
  ∃ before after, order k = before ++ i :: after ∧ ∀ j ∈ before, j ≠ i ∧ (t j).stops k = false

variable {order} {slots : Finset ι} {t : ι → Slot κ ν} {i j : ι} {k l : κ} {v w : ν}

theorem Slot.stops_used : (Slot.used l v).stops k = true ↔ l = k := decide_eq_true_iff

theorem Slot.value_eq_some {s : Slot κ ν} : s.value k = some v ↔ s = .used k v := by
  cases s with
  | free => simp [Slot.value]
  | deleted => simp [Slot.value]
  | used l w =>
    rw [Slot.value]
    by_cases h : l = k
    · rw [if_pos h, h]
      simp
    · rw [if_neg h]
      simp [h]

theorem seek_eq_some : seek order t k = some i ↔ (t i).stops k = true ∧ ComesBy order t k i := by
  rw [seek, List.find?_eq_some_iff_append]
  constructor
  · rintro ⟨hstop, before, after, horder, hbefore⟩
    refine ⟨hstop, before, after, horder, fun j hj => ?_⟩
    have hpass : (t j).stops k = false := by simpa using hbefore j hj
    refine ⟨?_, hpass⟩
    rintro rfl
    rw [hstop] at hpass
    exact Bool.noConfusion hpass
  · rintro ⟨hstop, before, after, horder, hbefore⟩
    exact ⟨hstop, before, after, horder, fun j hj => by simpa using (hbefore j hj).2⟩

/-- Where a search comes by is a slot of the table. -/
theorem ComesBy.mem (h : ComesBy order t k i) (hc : Covers order slots) : i ∈ slots := by
  obtain ⟨before, after, horder, -⟩ := h
  rw [← hc k, horder]
  exact List.mem_append_right _ (List.mem_cons_self ..)

theorem mem_of_seek (h : seek order t k = some i) : i ∈ order k := List.mem_of_find?_eq_some h

/-- The search that goes through all slots finds none that is free or holds its key. -/
theorem seek_eq_none (hc : Covers order slots) :
    seek order t k = none ↔ ∀ i ∈ slots, (t i).stops k = false := by
  rw [seek, List.find?_eq_none]
  simp [hc k]

theorem Sound.unique (h : Sound order slots t) (hi : i ∈ slots) (hj : j ∈ slots)
    (hti : t i = .used k v) (htj : t j = .used k w) : i = j :=
  Option.some.inj ((h i hi k v hti).symm.trans (h j hj k w htj))

/-- What is found is what is in the table. -/
theorem Sound.get_eq_some (h : Sound order slots t) (hc : Covers order slots) :
    get order t k = some v ↔ ∃ i ∈ slots, t i = .used k v := by
  rw [get, Option.bind_eq_some_iff]
  constructor
  · rintro ⟨i, hseek, hvalue⟩
    exact ⟨i, (hc k i).mp (mem_of_seek hseek), Slot.value_eq_some.mp hvalue⟩
  · rintro ⟨i, hi, hused⟩
    exact ⟨i, h i hi k v hused, Slot.value_eq_some.mpr hused⟩

/-- A key that the table does not hold. -/
theorem Sound.get_eq_none (h : Sound order slots t) (hc : Covers order slots) :
    get order t k = none ↔ ∀ i ∈ slots, ∀ v, t i ≠ .used k v := by
  rw [Option.eq_none_iff_forall_ne_some]
  constructor
  · intro hnone i hi v hused
    exact hnone v ((h.get_eq_some hc).mpr ⟨i, hi, hused⟩)
  · intro hnone v hsome
    obtain ⟨i, hi, hused⟩ := (h.get_eq_some hc).mp hsome
    exact hnone i hi v hused

/-! ### Putting and deleting -/

section Changes

variable [DecidableEq ι]

/-- A search that goes past slot `i`, also when the slot has changed. -/
theorem seek_update_of_ne {s : Slot κ ν} (hs : s.stops k = false) (hseek : seek order t k = some j)
    (hj : j ≠ i) : seek order (Function.update t i s) k = some j := by
  obtain ⟨hstop, before, after, horder, hbefore⟩ := seek_eq_some.mp hseek
  refine seek_eq_some.mpr ⟨by rw [Function.update_of_ne hj]; exact hstop, before, after, horder, ?_⟩
  intro m hm
  refine ⟨(hbefore m hm).1, ?_⟩
  by_cases hmi : m = i
  · rw [hmi, Function.update_self]
    exact hs
  · rw [Function.update_of_ne hmi]
    exact (hbefore m hm).2

/-- **Putting an entry** where the search for its key comes by, whatever was there. -/
theorem Sound.put (h : Sound order slots t) (hi : ComesBy order t k i)
    (honly : ∀ j ∈ slots, ∀ v, t j = .used k v → j = i) (v : ν) :
    Sound order slots (Function.update t i (.used k v)) := by
  intro j hj l w hused
  by_cases hji : j = i
  · subst hji
    rw [Function.update_self] at hused
    cases hused
    obtain ⟨before, after, horder, hbefore⟩ := hi
    refine seek_eq_some.mpr ⟨?_, before, after, horder, fun m hm => ⟨(hbefore m hm).1, ?_⟩⟩
    · rw [Function.update_self]
      exact Slot.stops_used.mpr rfl
    · rw [Function.update_of_ne (hbefore m hm).1]
      exact (hbefore m hm).2
  · rw [Function.update_of_ne hji] at hused
    have hlk : k ≠ l := by
      rintro rfl
      exact hji (honly j hj w hused)
    exact seek_update_of_ne (decide_eq_false hlk) (h j hj l w hused) hji

/-- **Deleting an entry** leaves a mark that no search stops at. -/
theorem Sound.delete (h : Sound order slots t) (i : ι) :
    Sound order slots (Function.update t i .deleted) := by
  intro j hj l w hused
  by_cases hji : j = i
  · rw [hji, Function.update_self] at hused
    cases hused
  · rw [Function.update_of_ne hji] at hused
    exact seek_update_of_ne rfl (h j hj l w hused) hji

/-- A key that is not put into the slot is found as before, unless it was in the slot. -/
theorem Sound.get_update {s : Slot κ ν} (h : Sound order slots t)
    (h' : Sound order slots (Function.update t i s)) (hc : Covers order slots) (hi : i ∈ slots)
    (hs : ∀ w, s ≠ .used l w) :
    get order (Function.update t i s) l = some w ↔ get order t l = some w ∧ t i ≠ .used l w := by
  rw [h'.get_eq_some hc, h.get_eq_some hc]
  constructor
  · rintro ⟨j, hj, hused⟩
    have hji : j ≠ i := by
      rintro rfl
      rw [Function.update_self] at hused
      exact hs w hused
    rw [Function.update_of_ne hji] at hused
    exact ⟨⟨j, hj, hused⟩, fun hti => hji (h.unique hj hi hused hti)⟩
  · rintro ⟨⟨j, hj, hused⟩, hne⟩
    have hji : j ≠ i := by
      rintro rfl
      exact hne hused
    exact ⟨j, hj, by rw [Function.update_of_ne hji]; exact hused⟩

/-- An entry that is put into a slot of its own, or that of its key. -/
theorem Sound.get_put (h : Sound order slots t) (hc : Covers order slots)
    (hi : ComesBy order t k i) (honly : ∀ j ∈ slots, ∀ v, t j = .used k v → j = i) (v : ν)
    (hown : ∀ l w, t i = .used l w → l = k) :
    get order (Function.update t i (.used k v)) = Function.update (get order t) k (some v) := by
  have h' := h.put hi honly v
  funext l
  by_cases hl : l = k
  · rw [hl, Function.update_self]
    exact (h'.get_eq_some hc).mpr ⟨i, hi.mem hc, Function.update_self ..⟩
  · rw [Function.update_of_ne hl]
    ext w
    rw [h.get_update h' hc (hi.mem hc) fun w hused => hl (by cases hused; rfl)]
    exact and_iff_left fun hused => hl (hown l w hused)

theorem Sound.get_delete (h : Sound order slots t) (hc : Covers order slots) (hi : i ∈ slots)
    (hused : t i = .used k v) :
    get order (Function.update t i .deleted) = Function.update (get order t) k none := by
  funext l
  ext w
  rw [h.get_update (h.delete i) hc hi (fun w => by simp), hused]
  by_cases hl : l = k
  · rw [hl, Function.update_self, (h.get_eq_some hc).mpr ⟨i, hi, hused⟩]
    constructor
    · rintro ⟨hsome, hne⟩
      cases hsome
      exact absurd rfl hne
    · intro hnone
      cases hnone
  · rw [Function.update_of_ne hl]
    refine and_iff_left fun hkl => hl ?_
    cases hkl
    rfl

end Changes

/-! ### Counting -/

/-- The key of an entry. -/
def Slot.key : Slot κ ν → Option κ
  | .used k _ => some k
  | _ => none

variable (slots t) in
/-- How many entries there are. -/
def load : ℕ := (slots.filter fun i => (t i).key.isSome).card

omit [DecidableEq κ] in
theorem Slot.key_eq_some {s : Slot κ ν} : s.key = some k ↔ ∃ v, s = .used k v := by
  cases s with
  | free => simp [Slot.key]
  | deleted => simp [Slot.key]
  | used l v => simp [Slot.key]

/-- There are as many entries as keys that are found. -/
theorem Sound.load_eq (h : Sound order slots t) (hc : Covers order slots) :
    load slots t = {k | get order t k ≠ none}.ncard := by
  have hinj : Set.InjOn (fun i => (t i).key) (slots.filter fun i => (t i).key.isSome) := by
    intro i hi j hj hsame
    obtain ⟨hi, hused⟩ := Finset.mem_filter.mp hi
    obtain ⟨k, hk⟩ := Option.isSome_iff_exists.mp hused
    obtain ⟨v, hti⟩ := Slot.key_eq_some.mp hk
    obtain ⟨w, htj⟩ := Slot.key_eq_some.mp (hsame.symm.trans hk)
    exact h.unique hi (Finset.mem_filter.mp hj).1 hti htj
  have himage : ((slots.filter fun i => (t i).key.isSome).image fun i => (t i).key : Set (Option κ)) =
      some '' {k | get order t k ≠ none} := by
    ext key
    rw [Finset.coe_image]
    constructor
    · rintro ⟨i, hi, rfl⟩
      obtain ⟨hi, hused⟩ := Finset.mem_filter.mp hi
      obtain ⟨k, hk⟩ := Option.isSome_iff_exists.mp hused
      obtain ⟨v, hti⟩ := Slot.key_eq_some.mp hk
      refine ⟨k, ?_, hk.symm⟩
      show get order t k ≠ none
      rw [(h.get_eq_some hc).mpr ⟨i, hi, hti⟩]
      exact Option.some_ne_none v
    · rintro ⟨k, hk, rfl⟩
      obtain ⟨v, hsome⟩ := Option.ne_none_iff_exists'.mp hk
      obtain ⟨i, hi, hused⟩ := (h.get_eq_some hc).mp hsome
      have hkey : (t i).key = some k := Slot.key_eq_some.mpr ⟨v, hused⟩
      refine ⟨i, Finset.mem_coe.mpr (Finset.mem_filter.mpr ⟨hi, ?_⟩), hkey⟩
      rw [hkey]
      rfl
  calc load slots t
      = ((slots.filter fun i => (t i).key.isSome).image fun i => (t i).key).card :=
        (Finset.card_image_of_injOn hinj).symm
    _ = (some '' {k | get order t k ≠ none}).ncard := by rw [← himage, Set.ncard_coe_finset]
    _ = {k | get order t k ≠ none}.ncard :=
        Set.ncard_image_of_injective _ (Option.some_injective κ)

omit [DecidableEq κ] in
/-- Changing one slot. -/
theorem load_update [DecidableEq ι] (hi : i ∈ slots) (s : Slot κ ν) :
    load slots (Function.update t i s) + (if (t i).key.isSome then 1 else 0) =
      load slots t + if s.key.isSome then 1 else 0 := by
  have hrest : (slots.erase i).filter (fun j => (Function.update t i s j).key.isSome) =
      (slots.erase i).filter fun j => (t j).key.isSome := by
    refine Finset.filter_congr fun j hj => ?_
    rw [Function.update_of_ne (Finset.ne_of_mem_erase hj)]
  rw [load, load, ← Finset.insert_erase hi, Finset.filter_insert, Finset.filter_insert, hrest,
    Function.update_self]
  have hnot : i ∉ (slots.erase i).filter fun j => (t j).key.isSome := by simp
  by_cases hs : s.key.isSome = true
  · by_cases ht : (t i).key.isSome = true
    · rw [if_pos hs, if_pos ht, if_pos ht, if_pos hs]
    · rw [if_pos hs, if_neg ht, if_neg ht, if_pos hs, Finset.card_insert_of_notMem hnot]
  · by_cases ht : (t i).key.isSome = true
    · rw [if_neg hs, if_pos ht, if_pos ht, if_neg hs, Finset.card_insert_of_notMem hnot]
    · rw [if_neg hs, if_neg ht, if_neg ht, if_neg hs]

/-! ### Double hashing -/

/-- The slot after slot `i`, in steps of `h`, among slots `1` to `p`. -/
def next (p h i : ℕ) : ℕ := if i ≤ h then p + i - h else i - h

/-- The slots in the order in which they are visited from slot `s` on. -/
def orbit (p h s : ℕ) : List ℕ := List.iterate (next p h) s p

section Orbit

variable {p h s n m : ℕ}

theorem orbit_eq (hp : 0 < p) : orbit p h s = s :: List.iterate (next p h) (next p h s) (p - 1) := by
  obtain ⟨q, rfl⟩ := Nat.exists_eq_add_one_of_ne_zero (Nat.ne_of_gt hp)
  rfl

theorem next_mem (hh : 0 < h) (hlt : h < p) (hs : s ∈ Finset.Icc 1 p) :
    next p h s ∈ Finset.Icc 1 p := by
  rw [Finset.mem_Icc] at *
  rw [next]
  split
  · omega
  · omega

theorem iterate_mem (hh : 0 < h) (hlt : h < p) (hs : s ∈ Finset.Icc 1 p) (n : ℕ) :
    (next p h)^[n] s ∈ Finset.Icc 1 p := by
  induction n with
  | zero => exact hs
  | succ n ih =>
    rw [Function.iterate_succ_apply']
    exact next_mem hh hlt ih

/-- After `n` steps. -/
theorem iterate_modEq (hh : 0 < h) (hlt : h < p) (hs : s ∈ Finset.Icc 1 p) (n : ℕ) :
    (next p h)^[n] s + n * h ≡ s [MOD p] := by
  induction n with
  | zero => rw [Nat.zero_mul]; rfl
  | succ n ih =>
    have hmem := iterate_mem hh hlt hs n
    rw [Finset.mem_Icc] at hmem
    rw [Function.iterate_succ_apply', next, Nat.succ_mul]
    split
    · refine Nat.ModEq.trans ?_ ih
      have hsum : p + (next p h)^[n] s - h + (n * h + h) = p + ((next p h)^[n] s + n * h) := by
        omega
      rw [hsum, Nat.ModEq, Nat.add_mod_left]
    · have hsum : (next p h)^[n] s - h + (n * h + h) = (next p h)^[n] s + n * h := by
        omega
      rw [hsum]
      exact ih

/-- Two visits of one slot are a multiple of `p` steps apart. -/
theorem dvd_of_iterate_eq (hp : p.Prime) (hh : 0 < h) (hlt : h < p) (hs : s ∈ Finset.Icc 1 p)
    (hnm : n ≤ m) (heq : (next p h)^[n] s = (next p h)^[m] s) : p ∣ m - n := by
  have hn := iterate_modEq hh hlt hs n
  have hm := iterate_modEq hh hlt hs m
  rw [← heq] at hm
  have hmul : n * h ≡ m * h [MOD p] := Nat.ModEq.add_left_cancel' _ (hn.trans hm.symm)
  have hdvd : p ∣ (m - n) * h := by
    rw [Nat.sub_mul]
    exact (Nat.modEq_iff_dvd' (Nat.mul_le_mul_right h hnm)).mp hmul
  refine (hp.dvd_mul.mp hdvd).resolve_right fun hph => ?_
  exact absurd (Nat.le_of_dvd hh hph) (Nat.not_le.mpr hlt)

/-- The start is not met again in fewer than `p` steps. -/
theorem iterate_ne_start (hp : p.Prime) (hh : 0 < h) (hlt : h < p) (hs : s ∈ Finset.Icc 1 p)
    (hpos : 0 < n) (hn : n < p) : (next p h)^[n] s ≠ s := by
  intro heq
  have hdvd : p ∣ n - 0 := dvd_of_iterate_eq hp hh hlt hs (Nat.zero_le n) heq.symm
  exact absurd (Nat.le_of_dvd hpos hdvd) (Nat.not_le.mpr hn)

/-- But it is after `p` steps. -/
theorem iterate_prime (hh : 0 < h) (hlt : h < p) (hs : s ∈ Finset.Icc 1 p) :
    (next p h)^[p] s = s := by
  have hmod := iterate_modEq hh hlt hs p
  have hmem := iterate_mem hh hlt hs p
  rw [Finset.mem_Icc] at hmem hs
  rw [Nat.ModEq, Nat.add_mul_mod_self_left] at hmod
  rcases Nat.le_total s ((next p h)^[p] s) with hle | hle
  · have hdvd := (Nat.modEq_iff_dvd' hle).mp (Eq.symm hmod)
    have hzero := Nat.eq_zero_of_dvd_of_lt hdvd (by omega)
    omega
  · have hdvd := (Nat.modEq_iff_dvd' hle).mp hmod
    have hzero := Nat.eq_zero_of_dvd_of_lt hdvd (by omega)
    omega

/-- **Every slot is visited**, if the number of slots is prime. -/
theorem mem_orbit (hp : p.Prime) (hh : 0 < h) (hlt : h < p) (hs : s ∈ Finset.Icc 1 p) (i : ℕ) :
    i ∈ orbit p h s ↔ i ∈ Finset.Icc 1 p := by
  have himage : (Finset.range p).image (fun n => (next p h)^[n] s) = Finset.Icc 1 p := by
    refine Finset.eq_of_subset_of_card_le ?_ ?_
    · intro i hi
      obtain ⟨n, -, rfl⟩ := Finset.mem_image.mp hi
      exact iterate_mem hh hlt hs n
    · have hinj : Set.InjOn (fun n => (next p h)^[n] s) (Finset.range p) := by
        intro n hn m hm heq
        rw [Finset.mem_coe, Finset.mem_range] at hn hm
        rcases Nat.le_total n m with hle | hle
        · have hdvd := dvd_of_iterate_eq hp hh hlt hs hle heq
          have := Nat.eq_zero_of_dvd_of_lt hdvd (by omega)
          omega
        · have hdvd := dvd_of_iterate_eq hp hh hlt hs hle heq.symm
          have := Nat.eq_zero_of_dvd_of_lt hdvd (by omega)
          omega
      rw [Finset.card_image_of_injOn hinj, Finset.card_range, Nat.card_Icc]
      omega
  rw [← himage, orbit, List.mem_iterate]
  simp [eq_comm]

end Orbit

end OpenAddressing
