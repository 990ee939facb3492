/-
The hash table that holds the boot environment (`lib/hashtable.c`).

The table has a prime number of slots and is searched by double hashing.  An entry that is
deleted leaves a mark, and a new entry may take the place of a mark only if that is the very
first slot its key is looked for in (`first_deleted`).

* `hcreateR`, `hsearchR`, `hdeleteR` — the table, its search and its changes;
* `isprime_iff`, `hcreateR_prime` — the number of slots is prime, so that `locate_eq`: **the
  search ends**, in the first slot that holds the key or was never used;
* `Good` — the invariant.
-/
import OpenMptcpRouter.Lib.OpenAddressing
import Mathlib.NumberTheory.Bertrand

namespace Hashtable

open OpenAddressing

/-! ### The table -/

/-- A C string, without its end. -/
abbrev Text := List UInt8

/-- `_ENTRY`. -/
structure Entry where
  used : ℤ
  key : Text
  data : Text
  deriving DecidableEq, Repr

/-- `struct hsearch_data`. -/
structure Htab where
  table : ℕ → Entry
  size : ℕ
  filled : ℕ

/-- The loop of `isprime`, as many rounds as may be needed. -/
def isprimeLoop (number : ℕ) : (rounds div : ℕ) → Bool
  | 0, div => number % div ≠ 0
  | rounds + 1, div =>
    if div * div < number ∧ number % div ≠ 0 then isprimeLoop number rounds (div + 2)
    else number % div ≠ 0

/-- `isprime`; no even number is passed. -/
def isprime (number : ℕ) : Bool := isprimeLoop number number 3

/-- The loop of `hcreate_r`. -/
def primeLoop : (rounds nel : ℕ) → ℕ
  | 0, nel => nel
  | rounds + 1, nel => if isprime nel then nel else primeLoop rounds (nel + 2)

/-- `hcreate_r`. -/
def hcreateR (nel : ℕ) : Htab where
  table := fun _ => { used := 0, key := [], data := [] }
  size := primeLoop nel (nel ||| 1)
  filled := 0

/-- The hash of a key, from its last character to its first. -/
def hash (key : Text) : ℕ := key.foldr (fun c hval => (hval * 2 ^ 4 + c.toNat) % 2 ^ 32) key.length

/-- The first hash function. -/
def hval (size : ℕ) (key : Text) : ℕ := if hash key % size = 0 then 1 else hash key % size

/-- The second hash function. -/
def hval2 (size : ℕ) (key : Text) : ℕ := 1 + hval size key % (size - 2)

namespace Htab

variable (h : Htab)

/-- The slot holds the key. -/
def Matches (key : Text) (idx : ℕ) : Prop :=
  (h.table idx).used = hval h.size key ∧ key = (h.table idx).key

instance (key : Text) : DecidablePred (h.Matches key) := fun idx => by
  unfold Matches
  infer_instance

/-- The `do` loop of `hsearch_r`: the index it is left with, and whether that is an entry that
was found. -/
def probe (key : Text) : (rounds idx : ℕ) → Option (ℕ × Bool)
  | 0, _ => none
  | rounds + 1, idx =>
    let idx := next h.size (hval2 h.size key) idx
    if idx = hval h.size key then some (idx, false)
    else if h.Matches key idx then some (idx, true)
    else if (h.table idx).used ≠ 0 then probe key rounds idx
    else some (idx, false)

/-- `hsearch_r`, up to the point where it has found the entry or no entry. -/
def locate (key : Text) : Option (ℕ × Bool) :=
  let idx := hval h.size key
  if (h.table idx).used ≠ 0 then
    if h.Matches key idx then some (idx, true) else h.probe key h.size idx
  else some (idx, false)

def set (idx : ℕ) (e : Entry) : Htab := { h with table := Function.update h.table idx e }

end Htab

/-- `ACTION`, with the data of an entry to be entered. -/
inductive Action
  | find
  | enter (data : Text)

/-- What `hsearch_r` leaves behind: the table, what it returns, and the entry in `retval`. -/
structure Found where
  htab : Htab
  ret : ℕ
  retval : Option Entry

/-- `hsearch_r`; `none` if its loop does not end. -/
def hsearchR (h : Htab) (key : Text) (action : Action) : Option Found :=
  (h.locate key).map fun (idx, found) =>
    match action, found with
    | .find, true => ⟨h, idx, some (h.table idx)⟩
    | .find, false => ⟨h, 0, none⟩
    | .enter data, true =>
      let e := { h.table idx with data := data }
      ⟨h.set idx e, idx, some e⟩
    | .enter data, false =>
      if h.filled = h.size then ⟨h, 0, none⟩
      else
        let first := hval h.size key
        -- a mark in the first slot is taken; one further on is not
        let idx := if (h.table first).used = -1 then first else idx
        let e := { used := first, key := key, data := data }
        ⟨{ h.set idx e with filled := h.filled + 1 }, 1, some e⟩

/-- `hdelete_r`. -/
def hdeleteR (h : Htab) (key : Text) : Option (Htab × ℕ) :=
  (hsearchR h key .find).map fun r =>
    if r.ret = 0 then (h, 0)
    else ({ h.set r.ret { h.table r.ret with used := -1 } with filled := h.filled - 1 }, 1)

/-! ### The number of slots -/

section Size

variable {number nel : ℕ}

theorem not_dvd_of_odd (hodd : number % 2 = 1) {d : ℕ} (heven : d % 2 = 0) : ¬ d ∣ number := by
  rintro ⟨c, rfl⟩
  rw [Nat.mul_mod, heven, Nat.zero_mul] at hodd
  exact absurd hodd (by decide)

/-- The loop, when no number below `div` divides `number`. -/
theorem isprimeLoop_iff (hodd : number % 2 = 1) {rounds div : ℕ} (hdiv : div % 2 = 1)
    (hthree : 3 ≤ div) (hlt : div < number) (hrounds : number < rounds + div)
    (hnone : ∀ d, 2 ≤ d → d < div → ¬ d ∣ number) :
    isprimeLoop number rounds div = true ↔ number.Prime := by
  induction rounds generalizing div with
  | zero => omega
  | succ rounds ih =>
    rw [isprimeLoop]
    by_cases hloop : div * div < number ∧ number % div ≠ 0
    · rw [if_pos hloop]
      have hsquare : 3 * div ≤ div * div := Nat.mul_le_mul_right div hthree
      refine ih (by omega) (by omega) (by omega) (by omega) fun d htwo hd => ?_
      rcases Nat.lt_trichotomy d div with hless | rfl | hmore
      · exact hnone d htwo hless
      · exact fun hdvd => hloop.2 (Nat.mod_eq_zero_of_dvd hdvd)
      · -- the even number between `div` and `div + 2`
        exact not_dvd_of_odd hodd (by omega)
    · rw [if_neg hloop, decide_eq_true_iff]
      constructor
      · intro hmod
        have hsquare : number ≤ div * div := by
          by_contra hmore
          exact hloop ⟨by omega, hmod⟩
        refine Nat.prime_def_le_sqrt.mpr ⟨by omega, fun m htwo hm hdvd => ?_⟩
        have hle : m * m ≤ div * div := Nat.le_trans (Nat.le_sqrt.mp hm) hsquare
        rcases Nat.lt_or_eq_of_le (Nat.mul_self_le_mul_self_iff.mp hle) with hless | rfl
        · exact hnone m htwo hless hdvd
        · exact hmod (Nat.mod_eq_zero_of_dvd hdvd)
      · intro hprime hmod
        rcases (Nat.dvd_prime hprime).mp (Nat.dvd_of_mod_eq_zero hmod) with hone | hself
        · omega
        · omega

/-- **`isprime` is right** for the odd numbers above 3; it is wrong for 3 itself. -/
theorem isprime_iff (hodd : number % 2 = 1) (hlt : 3 < number) :
    isprime number = true ↔ number.Prime := by
  refine isprimeLoop_iff hodd rfl (Nat.le_refl 3) hlt (by omega) fun d htwo hd => ?_
  have hd' : d = 2 := by omega
  exact not_dvd_of_odd hodd (by rw [hd'])

/-- The first prime from an odd number on. -/
theorem primeLoop_spec (rounds nel : ℕ) (hodd : nel % 2 = 1) (hlt : 3 < nel)
    (hprime : ∃ p, p.Prime ∧ nel ≤ p ∧ p ≤ nel + 2 * rounds) :
    (primeLoop rounds nel).Prime ∧ nel ≤ primeLoop rounds nel ∧
      ∀ p, p.Prime → nel ≤ p → primeLoop rounds nel ≤ p := by
  induction rounds generalizing nel with
  | zero =>
    obtain ⟨p, hp, hle, hle'⟩ := hprime
    obtain rfl : p = nel := by omega
    exact ⟨hp, Nat.le_refl p, fun q _ hq => hq⟩
  | succ rounds ih =>
    rw [primeLoop]
    by_cases hself : nel.Prime
    · rw [if_pos ((isprime_iff hodd hlt).mpr hself)]
      exact ⟨hself, Nat.le_refl nel, fun q _ hq => hq⟩
    · rw [if_neg fun h => hself ((isprime_iff hodd hlt).mp h)]
      -- a prime is neither this number nor the even one behind it
      have hbeyond : ∀ p, p.Prime → nel ≤ p → nel + 2 ≤ p := by
        intro p hp hle
        have hne : p ≠ nel := fun heq => hself (heq ▸ hp)
        have hpodd : p % 2 = 1 := hp.eq_two_or_odd.resolve_left (by omega)
        omega
      obtain ⟨p, hp, hle, hle'⟩ := hprime
      have hp2 := hbeyond p hp hle
      obtain ⟨hres, hge, hleast⟩ := ih (nel + 2) (by omega) (by omega) ⟨p, hp, hp2, by omega⟩
      exact ⟨hres, by omega, fun q hq hqle => hleast q hq (hbeyond q hq hqle)⟩

theorem or_one (n : ℕ) : n ||| 1 = 2 * (n / 2) + 1 := by
  have hdiv : (n ||| 1) / 2 = n / 2 := by
    rw [Nat.or_div_two]
    exact Nat.or_zero _
  have hmod : (n ||| 1) % 2 = 1 := Nat.or_mod_two_eq_one.mpr (Or.inr rfl)
  omega

/-- **The number of slots is the first prime from `nel` on.** -/
theorem hcreateR_prime (hnel : 4 ≤ nel) :
    (hcreateR nel).size.Prime ∧ nel ≤ (hcreateR nel).size ∧
      ∀ p, p.Prime → nel ≤ p → (hcreateR nel).size ≤ p := by
  have hor := or_one nel
  obtain ⟨p, hp, hlt, hle⟩ := Nat.exists_prime_lt_and_le_two_mul nel (by omega)
  have hpodd : p % 2 = 1 := hp.eq_two_or_odd.resolve_left (by omega)
  obtain ⟨hres, hge, hleast⟩ := primeLoop_spec nel (nel ||| 1) (by omega)
    (by omega) ⟨p, hp, by omega, by omega⟩
  refine ⟨hres, Nat.le_trans (by omega) hge, fun q hq hqle => hleast q hq ?_⟩
  have hqodd : q % 2 = 1 := hq.eq_two_or_odd.resolve_left (by omega)
  omega

end Size

/-! ### The search -/

section Search

/-- The order in which the slots are looked at. -/
def order (size : ℕ) (key : Text) : List ℕ := orbit size (hval2 size key) (hval size key)

/-- The indices in use; index 0 is not. -/
def slots (size : ℕ) : Finset ℕ := Finset.Icc 1 size

/-- What a slot holds. -/
def Entry.slot (e : Entry) : Slot Text Text :=
  if e.used = 0 then .free else if e.used = -1 then .deleted else .used e.key e.data

/-- The table without hashes. -/
def Htab.slot (h : Htab) (i : ℕ) : Slot Text Text := (h.table i).slot

/-- The value of every variable. -/
def Htab.lookup (h : Htab) : Text → Option Text := get (order h.size) h.slot

/-- The invariant of the table. -/
structure Good (h : Htab) : Prop where
  prime : h.size.Prime
  size_gt : 3 < h.size
  used : ∀ i ∈ slots h.size, (h.table i).used = 0 ∨ (h.table i).used = -1 ∨
    (h.table i).used = hval h.size (h.table i).key
  sound : Sound (order h.size) (slots h.size) h.slot
  filled : h.filled = load (slots h.size) h.slot

variable {size : ℕ} {h : Htab} {key : Text} {i : ℕ}

theorem hval_mem (hsize : 3 < size) (key : Text) : hval size key ∈ slots size := by
  rw [slots, Finset.mem_Icc, hval]
  have hlt := Nat.mod_lt (hash key) (show 0 < size by omega)
  split
  · omega
  · omega

theorem hval2_pos (size : ℕ) (key : Text) : 0 < hval2 size key := by
  rw [hval2]
  omega

theorem hval2_lt (hsize : 3 < size) (key : Text) : hval2 size key < size := by
  rw [hval2]
  have hlt := Nat.mod_lt (hval size key) (show 0 < size - 2 by omega)
  omega

theorem covers (hprime : size.Prime) (hsize : 3 < size) : Covers (order size) (slots size) :=
  fun key i => mem_orbit hprime (hval2_pos size key) (hval2_lt hsize key) (hval_mem hsize key) i

theorem Good.covers (hg : Good h) : Covers (order h.size) (slots h.size) :=
  Hashtable.covers hg.prime hg.size_gt

/-- The comparison of hashes rules out no entry with the key. -/
theorem Good.stops_iff (hg : Good h) (key : Text) (hi : i ∈ slots h.size) :
    (h.slot i).stops key = true ↔ (h.table i).used = 0 ∨ h.Matches key i := by
  have hpos : 0 < hval h.size key := (Finset.mem_Icc.mp (hval_mem hg.size_gt key)).1
  rw [Htab.slot, Entry.slot, Htab.Matches]
  rcases hg.used i hi with hzero | hmark | hused
  · rw [if_pos hzero]
    exact ⟨fun _ => Or.inl hzero, fun _ => rfl⟩
  · -- a mark is passed over: no first slot is -1
    rw [hmark, if_neg (by decide), if_pos rfl]
    constructor
    · exact fun h => Bool.noConfusion h
    · rintro (h | ⟨h, -⟩)
      · exact absurd h (by decide)
      · omega
  · have hipos : 0 < hval h.size (h.table i).key :=
      (Finset.mem_Icc.mp (hval_mem hg.size_gt _)).1
    rw [if_neg (by omega), if_neg (by omega), Slot.stops_used]
    constructor
    · intro hkey
      rw [hused, hkey]
      exact Or.inr ⟨rfl, rfl⟩
    · rintro (h | ⟨-, hkey⟩)
      · omega
      · exact hkey.symm

/-- Where the search is left: in the slot in which the search for the key ends, or, when
there is none, in the first one again. -/
def Htab.ends (h : Htab) (key : Text) : Option ℕ → ℕ × Bool
  | some i => (i, decide ((h.table i).used ≠ 0))
  | none => (hval h.size key, false)

/-- The loop looks at the slots that are left. -/
theorem Good.probe_eq (hg : Good h) (key : Text) (rounds n : ℕ) (hn : n < h.size)
    (hrounds : h.size ≤ rounds + n) :
    h.probe key rounds ((next h.size (hval2 h.size key))^[n] (hval h.size key)) =
      some (h.ends key ((List.iterate (next h.size (hval2 h.size key))
        ((next h.size (hval2 h.size key))^[n + 1] (hval h.size key)) (h.size - 1 - n)).find?
          fun i => (h.slot i).stops key)) := by
  have hstart := hval_mem hg.size_gt key
  have hpos := hval2_pos h.size key
  have hlt := hval2_lt hg.size_gt key
  induction rounds generalizing n with
  | zero => omega
  | succ rounds ih =>
    have hstep : ∀ m, next h.size (hval2 h.size key)
        ((next h.size (hval2 h.size key))^[m] (hval h.size key)) =
          (next h.size (hval2 h.size key))^[m + 1] (hval h.size key) :=
      fun m => (Function.iterate_succ_apply' ..).symm
    rw [Htab.probe, hstep n]
    by_cases hlast : n + 1 = h.size
    · -- all slots have been visited
      have hempty : h.size - 1 - n = 0 := by omega
      rw [hlast, iterate_prime hpos hlt hstart, if_pos rfl, hempty]
      rfl
    · have hmore : n + 1 < h.size := by omega
      have hleft : h.size - 1 - n = (h.size - 1 - (n + 1)) + 1 := by omega
      rw [if_neg (iterate_ne_start hg.prime hpos hlt hstart (Nat.succ_pos n) hmore), hleft,
        List.iterate, List.find?_cons, hstep (n + 1)]
      have hmem := iterate_mem hpos hlt hstart (n + 1)
      have hstops := hg.stops_iff key hmem
      have hnext := ih (n + 1) hmore (by omega)
      generalize (next h.size (hval2 h.size key))^[n + 1] (hval h.size key) = idx at *
      by_cases hmatch : h.Matches key idx
      · have hused : (h.table idx).used ≠ 0 := by
          have := (Finset.mem_Icc.mp hstart).1
          have := hmatch.1
          omega
        rw [if_pos hmatch, hstops.mpr (Or.inr hmatch)]
        show some (idx, true) = some (idx, decide ((h.table idx).used ≠ 0))
        rw [decide_eq_true hused]
      · rw [if_neg hmatch]
        by_cases hused : (h.table idx).used ≠ 0
        · have hpass : (h.slot idx).stops key = false := by
            rw [← Bool.not_eq_true, hstops]
            rintro (hzero | hmatch')
            · exact hused hzero
            · exact hmatch hmatch'
          rw [if_pos hused, hpass]
          exact hnext
        · have hzero : (h.table idx).used = 0 := not_not.mp hused
          rw [if_neg hused, hstops.mpr (Or.inl hzero)]
          show some (idx, false) = some (idx, decide ((h.table idx).used ≠ 0))
          rw [decide_eq_false hused]

/-- **The search ends** in the first slot that holds the key or was never used. -/
theorem Good.locate_eq (hg : Good h) (key : Text) :
    h.locate key = some (h.ends key (seek (order h.size) h.slot key)) := by
  have hsize := hg.size_gt
  have hmem := hval_mem hsize key
  have hstops := hg.stops_iff key hmem
  have hrest := hg.probe_eq key h.size 0 (by omega) (Nat.le_refl _)
  rw [Function.iterate_zero, id, Function.iterate_one, Nat.sub_zero] at hrest
  rw [Htab.locate, seek, order, orbit_eq (by omega), List.find?_cons, hrest]
  by_cases hused : (h.table (hval h.size key)).used ≠ 0
  · rw [if_pos hused]
    by_cases hmatch : h.Matches key (hval h.size key)
    · rw [if_pos hmatch, hstops.mpr (Or.inr hmatch)]
      show some (hval h.size key, true) =
        some (hval h.size key, decide ((h.table (hval h.size key)).used ≠ 0))
      rw [decide_eq_true hused]
    · have hpass : (h.slot (hval h.size key)).stops key = false := by
        rw [← Bool.not_eq_true, hstops]
        rintro (hzero | hmatch')
        · exact hused hzero
        · exact hmatch hmatch'
      rw [if_neg hmatch, hpass]
  · have hzero : (h.table (hval h.size key)).used = 0 := not_not.mp hused
    rw [if_neg hused, hstops.mpr (Or.inl hzero)]
    show some (hval h.size key, false) =
      some (hval h.size key, decide ((h.table (hval h.size key)).used ≠ 0))
    rw [decide_eq_false hused]

end Search

end Hashtable
