/-
Numbers as text, and back.

`Nat.toDigits` is what `printf` writes for `%x` and `%u`; `readDigits` is the loop
that reads digits of a base up to the first character that is none.

* `readDigits_toDigits` — it reads back what was printed, whatever stands behind.
-/
import Mathlib.Algebra.Group.Nat.Defs

namespace Digits

/-- The value of a hexadecimal digit (`isxdigit`). -/
def digitValue (c : Char) : Option ℕ :=
  if c.isDigit then some (c.toNat - 48)
  else if 'a' ≤ c ∧ c ≤ 'f' then some (c.toNat - 87)
  else if 'A' ≤ c ∧ c ≤ 'F' then some (c.toNat - 55)
  else none

/-- Digits of `base` in front of a text, onto the number `acc`; the rest of the text. -/
def readDigits (base acc : ℕ) : List Char → ℕ × List Char
  | [] => (acc, [])
  | c :: cs =>
    match digitValue c with
    | some v => if v < base then readDigits base (acc * base + v) cs else (acc, c :: cs)
    | none => (acc, c :: cs)

/-- The text does not go on with a digit. -/
def NoDigit (cs : List Char) : Prop := ∀ c ∈ cs.head?, digitValue c = none

theorem digitValue_digitChar {d : ℕ} (h : d < 16) : digitValue d.digitChar = some d := by
  have hdigits : ∀ e < 16, digitValue e.digitChar = some e := by decide
  exact hdigits d h

variable {base acc d n : ℕ} {cs : List Char}

theorem readDigits_digitChar (hd : d < base) (hb : base ≤ 16) :
    readDigits base acc (d.digitChar :: cs) = readDigits base (acc * base + d) cs := by
  rw [readDigits, digitValue_digitChar (by omega)]
  dsimp only
  rw [if_pos hd]

/-- The digits of `n` shift the number read so far by their count. -/
theorem readDigits_append (hb : 1 < base) (hb' : base ≤ 16) (n acc : ℕ) (cs : List Char) :
    readDigits base acc (Nat.toDigits base n ++ cs)
      = readDigits base (acc * base ^ (Nat.toDigits base n).length + n) cs := by
  induction n using Nat.strongRecOn generalizing acc cs with
  | ind n ih =>
    by_cases hn : n < base
    · rw [Nat.toDigits_of_lt_base hn, List.singleton_append, readDigits_digitChar hn hb']
      simp
    · have hlt : n / base < n := Nat.div_lt_self (by omega) hb
      have hmod : n % base < base := Nat.mod_lt n (by omega)
      rw [Nat.toDigits_of_base_le hb (by omega), List.append_assoc, ih _ hlt,
        List.singleton_append, readDigits_digitChar hmod hb', List.length_append,
        List.length_singleton, Nat.pow_succ, ← Nat.mul_assoc, Nat.add_mul, Nat.add_assoc,
        Nat.div_add_mod']

/-- Reading back what was printed. -/
theorem readDigits_toDigits (hb : 1 < base) (hb' : base ≤ 16) (n : ℕ) (hcs : NoDigit cs) :
    readDigits base 0 (Nat.toDigits base n ++ cs) = (n, cs) := by
  rw [readDigits_append hb hb', Nat.zero_mul, Nat.zero_add]
  cases cs with
  | nil => rfl
  | cons c cs =>
    have hc : digitValue c = none := hcs c rfl
    rw [readDigits, hc]

theorem mem_toDigits {c : Char} (hb : 1 < base) (n : ℕ) (hc : c ∈ Nat.toDigits base n) :
    ∃ d < base, c = d.digitChar := by
  induction n using Nat.strongRecOn with
  | ind n ih =>
    by_cases hn : n < base
    · rw [Nat.toDigits_of_lt_base hn, List.mem_singleton] at hc
      exact ⟨n, hn, hc⟩
    · rw [Nat.toDigits_of_base_le hb (by omega), List.mem_append, List.mem_singleton] at hc
      rcases hc with hc | hc
      · exact ih _ (Nat.div_lt_self (by omega) hb) hc
      · exact ⟨n % base, Nat.mod_lt n (by omega), hc⟩

/-- A positive number is printed without leading zeros. -/
theorem toDigits_head (hb : 1 < base) (hb' : base ≤ 16) (hn : 0 < n) :
    ∃ c ds, Nat.toDigits base n = c :: ds ∧ c ≠ '0' := by
  induction n using Nat.strongRecOn with
  | ind n ih =>
    by_cases hlt : n < base
    · refine ⟨n.digitChar, [], Nat.toDigits_of_lt_base hlt, ?_⟩
      have hdigits : ∀ d < 16, 0 < d → d.digitChar ≠ '0' := by decide
      exact hdigits n (by omega) hn
    · obtain ⟨c, ds, h, hc⟩ := ih (n / base) (Nat.div_lt_self hn hb)
        (Nat.div_pos (by omega) (by omega))
      exact ⟨c, _, by rw [Nat.toDigits_of_base_le hb (by omega), h]; rfl, hc⟩

end Digits
