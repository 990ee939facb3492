/-
Checksums by a shift register.

`shift g` moves a register up by one bit; when the top bit is set, the mask `g` is taken
off *before* the shift.  A symbol is added to the register, which is then shifted `n`
times.

* `shift_xor` — a shift is linear in exclusive or, for every mask;
* `shifts_eq_zero_iff` — for a mask with its first and last bit set, the registers that
  shift to zero are zero and the mask itself, whatever the number of shifts;
* `crc_eq_crc_iff` — **two texts that differ in one symbol have one checksum exactly when
  the difference is the mask**.
-/
import Mathlib.Algebra.Group.Nat.Defs

namespace Crc

variable {w : ℕ}

/-- One shift of the register. -/
def shift (g c : BitVec w) : BitVec w := if c.msb then (c ^^^ g) <<< 1 else c <<< 1

/-- `n` shifts of the register. -/
def shifts (g : BitVec w) : ℕ → BitVec w → BitVec w
  | 0, c => c
  | n + 1, c => shifts g n (shift g c)

/-- A symbol goes into the register. -/
def feed (g : BitVec w) (n : ℕ) (c x : BitVec w) : BitVec w := shifts g n (c ^^^ x)

/-- The register after a text. -/
def crc (g : BitVec w) (n : ℕ) (c : BitVec w) (data : List (BitVec w)) : BitVec w :=
  data.foldl (feed g n) c

section Linear

variable (g : BitVec w)

/-- The mask taken off with the top bit. -/
theorem shift_eq (c : BitVec w) : shift g c = c <<< 1 ^^^ (if c.msb then g <<< 1 else 0#w) := by
  rw [shift]
  split
  · rw [BitVec.shiftLeft_xor_distrib]
  · rw [BitVec.xor_zero]

theorem shift_xor (a b : BitVec w) : shift g (a ^^^ b) = shift g a ^^^ shift g b := by
  have hswap : ∀ p q r s : BitVec w, p ^^^ q ^^^ (r ^^^ s) = p ^^^ r ^^^ (q ^^^ s) := by
    intro p q r s
    ac_rfl
  rw [shift_eq, shift_eq, shift_eq, hswap, BitVec.shiftLeft_xor_distrib, BitVec.msb_xor]
  congr 1
  cases a.msb <;> cases b.msb <;> simp

theorem shifts_xor (n : ℕ) (a b : BitVec w) :
    shifts g n (a ^^^ b) = shifts g n a ^^^ shifts g n b := by
  induction n generalizing a b with
  | zero => rfl
  | succ n ih => rw [shifts, shifts, shifts, shift_xor, ih]

end Linear

section Kernel

variable {g : BitVec w}

/-- Without its top bit a register is lost in a shift only when it is zero. -/
theorem shiftLeft_one_eq_zero_iff {c : BitVec w} (h : c.msb = false) : c <<< 1 = 0#w ↔ c = 0#w := by
  constructor
  · intro h0
    have hlt : 2 * c.toNat < 2 ^ w := by
      rw [BitVec.msb_eq_decide] at h
      have hge := of_decide_eq_false h
      have hc := c.isLt
      rcases w with _ | w
      · simp at hc ⊢
        omega
      · simp only [Nat.add_sub_cancel] at hge
        rw [Nat.pow_succ]
        omega
    have hnat := congrArg BitVec.toNat h0
    rw [BitVec.toNat_shiftLeft, Nat.shiftLeft_eq, Nat.pow_one, Nat.mod_eq_of_lt (by omega)] at hnat
    apply BitVec.eq_of_toNat_eq
    simp at hnat ⊢
    omega
  · rintro rfl
    simp

theorem shift_eq_zero_iff (hg : g.msb = true) {c : BitVec w} :
    shift g c = 0#w ↔ c = 0#w ∨ c = g := by
  rw [shift]
  by_cases hc : c.msb = true
  · rw [if_pos hc, shiftLeft_one_eq_zero_iff (by rw [BitVec.msb_xor, hc, hg]; rfl), BitVec.xor_eq_zero_iff]
    refine ⟨Or.inr, fun h => h.resolve_left ?_⟩
    rintro rfl
    simp at hc
  · rw [if_neg hc, shiftLeft_one_eq_zero_iff (by simpa using hc)]
    refine ⟨Or.inl, fun h => h.resolve_right ?_⟩
    rintro rfl
    exact hc hg

/-- What a shift leaves ends in a zero bit. -/
theorem shift_ne_of_lsb (hlsb : g.getLsbD 0 = true) (c : BitVec w) : shift g c ≠ g := by
  intro h
  rw [← h, shift] at hlsb
  split at hlsb <;> simp at hlsb

/-- **The registers that are lost**: zero and the mask, after one shift or many. -/
theorem shifts_eq_zero_iff (hmsb : g.msb = true) (hlsb : g.getLsbD 0 = true) (n : ℕ)
    (c : BitVec w) : shifts g (n + 1) c = 0#w ↔ c = 0#w ∨ c = g := by
  induction n generalizing c with
  | zero => exact shift_eq_zero_iff hmsb
  | succ n ih =>
    -- the register after the first shift is not the mask, so it has to be zero
    rw [shifts, ih, or_iff_left (shift_ne_of_lsb hlsb c), shift_eq_zero_iff hmsb]

theorem shifts_ne_of_lsb (hlsb : g.getLsbD 0 = true) (n : ℕ) (c : BitVec w) :
    shifts g (n + 1) c ≠ g := by
  induction n generalizing c with
  | zero => exact shift_ne_of_lsb hlsb c
  | succ n ih => exact ih (shift g c)

end Kernel

section Texts

variable {g : BitVec w} {n : ℕ}

/-- Registers that end up equal after a symbol. -/
theorem feed_eq_feed_iff (hmsb : g.msb = true) (hlsb : g.getLsbD 0 = true) {a b x y : BitVec w} :
    feed g (n + 1) a x = feed g (n + 1) b y ↔
      a ^^^ x ^^^ (b ^^^ y) = 0#w ∨ a ^^^ x ^^^ (b ^^^ y) = g := by
  rw [feed, feed, ← BitVec.xor_eq_zero_iff, ← shifts_xor, shifts_eq_zero_iff hmsb hlsb]

/-- Registers a symbol has been fed to are told apart by every text that follows. -/
theorem crc_feed_eq_iff (hmsb : g.msb = true) (hlsb : g.getLsbD 0 = true) (a b : BitVec w)
    (data : List (BitVec w)) :
    crc g (n + 1) (shifts g (n + 1) a) data = crc g (n + 1) (shifts g (n + 1) b) data ↔
      shifts g (n + 1) a = shifts g (n + 1) b := by
  induction data generalizing a b with
  | nil => rfl
  | cons x data ih =>
    change crc g (n + 1) (feed g (n + 1) _ x) data = crc g (n + 1) (feed g (n + 1) _ x) data ↔ _
    rw [feed, feed, ih]
    change feed g (n + 1) _ x = feed g (n + 1) _ x ↔ _
    have hdiff : ∀ p q : BitVec w, p ^^^ x ^^^ (q ^^^ x) = p ^^^ q := by
      intro p q
      rw [BitVec.xor_assoc, BitVec.xor_comm q x, ← BitVec.xor_assoc x x q, BitVec.xor_self,
        BitVec.zero_xor]
    -- the difference of two shifted registers is itself a shifted register, never the mask
    rw [feed_eq_feed_iff hmsb hlsb, hdiff, ← shifts_xor, or_iff_left (shifts_ne_of_lsb hlsb n _),
      shifts_xor, BitVec.xor_eq_zero_iff]

/-- **One changed symbol goes unnoticed exactly when the change is the mask.** -/
theorem crc_eq_crc_iff (hmsb : g.msb = true) (hlsb : g.getLsbD 0 = true) (c x y : BitVec w)
    (front back : List (BitVec w)) :
    crc g (n + 1) c (front ++ x :: back) = crc g (n + 1) c (front ++ y :: back) ↔
      x = y ∨ x ^^^ y = g := by
  rw [crc, crc, List.foldl_append, List.foldl_append, List.foldl_cons, List.foldl_cons]
  change crc g (n + 1) (shifts g (n + 1) _) back = crc g (n + 1) (shifts g (n + 1) _) back ↔ _
  rw [crc_feed_eq_iff hmsb hlsb]
  change feed g (n + 1) _ x = feed g (n + 1) _ y ↔ _
  have hdiff : ∀ r : BitVec w, r ^^^ x ^^^ (r ^^^ y) = x ^^^ y := by
    intro r
    rw [BitVec.xor_comm r x, BitVec.xor_assoc, ← BitVec.xor_assoc r r y, BitVec.xor_self,
      BitVec.zero_xor]
  rw [feed_eq_feed_iff hmsb hlsb, hdiff, BitVec.xor_eq_zero_iff]

end Texts

section Lsb

variable {g : BitVec w}

theorem shift_lsb (c : BitVec w) : (shift g c).getLsbD 0 = false := by
  rw [shift]
  split
  · simp
  · simp

theorem shifts_lsb (n : ℕ) {c : BitVec w} (h : c.getLsbD 0 = false) :
    (shifts g n c).getLsbD 0 = false := by
  induction n generalizing c with
  | zero => exact h
  | succ n ih => exact ih (shift_lsb c)

/-- The register after a text ends in a zero bit. -/
theorem crc_lsb (n : ℕ) (c x : BitVec w) (data : List (BitVec w)) :
    (crc g (n + 1) c (x :: data)).getLsbD 0 = false := by
  induction data generalizing c x with
  | nil =>
    have hone : crc g (n + 1) c [x] = shifts g n (shift g (c ^^^ x)) := rfl
    rw [hone]
    exact shifts_lsb n (shift_lsb _)
  | cons y data ih =>
    have hstep : crc g (n + 1) c (x :: y :: data) = crc g (n + 1) (feed g (n + 1) c x) (y :: data) :=
      List.foldl_cons ..
    rw [hstep]
    exact ih _ y

end Lsb

end Crc
