/-
Manufacturing fields as text, and back (`mnf_info.c`).

* `mnfStrToField_shown` — the content of a binary field survives `mnf_field_to_str` and
  `mnf_str_to_field`, reversed or not;
* `shown_text` — so does an ASCII text, cut to the length of its field;
* `hexCodec_iff` — **hex digits are read as documented exactly when they fill the field**.
  `hexstr_to_bin` fetches two characters before it looks for the end of the string, and
  takes a NUL in second place for a digit: a shorter string is read past its end, and one
  that lacks a single digit is accepted.
-/
import Mathlib.Data.List.TakeWhile
import Mathlib.Data.Nat.Bitwise
import OpenMptcpRouter.Mnf.Fields

namespace Mnf

open CString

/-- `isxdigit`. -/
def isHexDigit (c : UInt8) : Bool :=
  isDigit c || (65 ≤ c && c ≤ 70) || (97 ≤ c && c ≤ 102)

/-- The indices of the input that the last `len` rounds of `hexstr_to_bin` read, from
character `i` on. -/
def hexstrReads (input : CStr) : ℕ → ℕ → List ℕ
  | 0, _ => []
  | len + 1, i =>
    i :: (i + 1) ::
      if input.charAt i = 0 then []
      else
        match hexcharToInt (input.charAt (i + 1)), hexcharToInt (input.charAt i) with
        | some _, some _ => hexstrReads input len (i + 2)
        | _, _ => []

/-- The string is a whole number of bytes in hex. -/
def HexBytes (s : Text) : Prop := s.length % 2 = 0 ∧ s.all isHexDigit = true

/-- A string for a binary field is accepted as hex bytes, read up to its NUL, and shown in
upper case with `F` behind it. -/
structure HexCodec (field : MnfField) (s : CStr) : Prop where
  accepts : (mnfStrToField field s).1 = false ↔ HexBytes s.text
  reads : ∀ i ∈ hexstrReads s field.length 0, i ≤ s.text.length
  shows : (mnfStrToField field s).1 = false →
    mnfFieldToStr field (mnfStrToField field s).2 =
      s.text.map toupper ++ List.replicate (2 * field.length - s.text.length) 70

/-- What the conversions of a field promise, for a content `x` and a string `s`. -/
structure Codec (field : MnfField) (x : Text) (s : CStr) : Prop where
  content : field.binary = true → x.length = field.length →
    ∀ t : CStr, t.text = mnfFieldToStr field x → mnfStrToField field t = (false, x)
  hex : field.binary = true → s.text.length ≤ 2 * field.length → HexCodec field s
  text : field.binary = false → (∀ c ∈ s.text, c < 0x80) →
    mnfStrToField field s = (false, (mnfStrToField field s).2) ∧
      mnfFieldToStr field (mnfStrToField field s).2 = s.text.take field.length

/-- A string of hex digits that does not fill its field. -/
structure ShortHex (field : MnfField) (s : CStr) : Prop where
  binary : field.binary = true
  hex : s.text.all isHexDigit = true
  short : s.text.length < 2 * field.length

section Digits

/-- What `hexchar_to_int` makes of a character: the value of a digit, 16 for the NUL. -/
theorem hexcharToInt_cases (c : UInt8) :
    (isHexDigit c = true ∧ ∃ v < 16, hexcharToInt c = some v ∧ intToHexchar v = toupper c) ∨
      (c = 0 ∧ isHexDigit c = false ∧ hexcharToInt c = some 16) ∨
      (c ≠ 0 ∧ isHexDigit c = false ∧ hexcharToInt c = none) := by
  have htable : ∀ n < 256,
      (isHexDigit (UInt8.ofNat n) = true ∧ ∃ v < 16, hexcharToInt (UInt8.ofNat n) = some v ∧
          intToHexchar v = toupper (UInt8.ofNat n)) ∨
        (UInt8.ofNat n = 0 ∧ isHexDigit (UInt8.ofNat n) = false ∧
          hexcharToInt (UInt8.ofNat n) = some 16) ∨
        (UInt8.ofNat n ≠ 0 ∧ isHexDigit (UInt8.ofNat n) = false ∧
          hexcharToInt (UInt8.ofNat n) = none) := by
    decide +kernel
  have hc := htable c.toNat c.toNat_lt
  rwa [UInt8.ofNat_toNat] at hc

theorem hexcharToInt_of_hex {c : UInt8} (h : isHexDigit c = true) :
    ∃ v < 16, hexcharToInt c = some v ∧ intToHexchar v = toupper c := by
  obtain ⟨-, hv⟩ | ⟨-, hno, -⟩ | ⟨-, hno, -⟩ := hexcharToInt_cases c
  · exact hv
  · exact absurd (h.symm.trans hno) (by simp)
  · exact absurd (h.symm.trans hno) (by simp)

theorem hexcharToInt_of_not_hex {c : UInt8} (h : isHexDigit c = false) (h0 : c ≠ 0) :
    hexcharToInt c = none := by
  obtain ⟨hyes, -⟩ | ⟨hc, -⟩ | ⟨-, -, hnone⟩ := hexcharToInt_cases c
  · exact absurd (hyes.symm.trans h) (by simp)
  · exact absurd hc h0
  · exact hnone

theorem hexcharToInt_intToHexchar {v : ℕ} (h : v < 16) : hexcharToInt (intToHexchar v) = some v := by
  have htable : ∀ v < 16, hexcharToInt (intToHexchar v) = some v := by decide
  exact htable v h

theorem intToHexchar_ne_zero {v : ℕ} (h : v < 16) : intToHexchar v ≠ 0 := by
  have htable : ∀ v < 16, intToHexchar v ≠ 0 := by decide
  exact htable v h

/-- Two nibbles put together. -/
theorem or_nibble {high low : ℕ} (hl : low < 16) : high * 16 ||| low = high * 16 + low := by
  have h := Nat.two_pow_add_eq_or_of_lt (i := 4) hl high
  rw [Nat.mul_comm] at h
  exact h.symm

/-- A byte is its two nibbles. -/
theorem byte_halves (c : UInt8) :
    UInt8.ofNat (c.toNat / 16 % 16 * 16 ||| c.toNat % 16) = c := by
  have hc := c.toNat_lt
  rw [or_nibble (by omega), show c.toNat / 16 % 16 * 16 + c.toNat % 16 = c.toNat by omega,
    UInt8.ofNat_toNat]

/-- And two nibbles are those of their byte. -/
theorem halves_byte {high low : ℕ} (hh : high < 16) (hl : low < 16) :
    (UInt8.ofNat (high * 16 ||| low)).toNat / 16 % 16 = high ∧
      (UInt8.ofNat (high * 16 ||| low)).toNat % 16 = low := by
  have hlt : high * 16 + low < 256 := by omega
  rw [or_nibble hl, UInt8.toNat_ofNat']
  omega

end Digits

section Chars

variable {s : CStr} {i : ℕ} {c d : UInt8} {rest : Text}

theorem charAt_of_drop (h : s.text.drop i = c :: rest) : s.charAt i = c := by
  have hlt : i < s.text.length := by
    by_contra hge
    rw [List.drop_eq_nil_of_le (by omega)] at h
    exact absurd h (by simp)
  rw [List.drop_eq_getElem_cons hlt, List.cons.injEq] at h
  rw [CStr.charAt, if_pos hlt, List.getElem?_eq_getElem hlt, Option.getD_some]
  exact h.1

theorem charAt_length (s : CStr) : s.charAt s.text.length = 0 := by
  rw [CStr.charAt, if_neg (Nat.lt_irrefl _), if_pos rfl]

theorem drop_succ_of_drop (h : s.text.drop i = c :: rest) : s.text.drop (i + 1) = rest := by
  rw [← List.drop_drop, h, List.drop_one, List.tail_cons]

theorem length_of_drop (h : s.text.drop i = rest) (hi : i ≤ s.text.length) :
    s.text.length = i + rest.length := by
  rw [← h, List.length_drop]
  omega

theorem ne_zero_of_drop (h : s.text.drop i = c :: rest) : c ≠ 0 := by
  intro h0
  refine s.nulFree (List.mem_of_mem_drop (i := i) ?_)
  rw [h, h0]
  exact List.mem_cons_self

end Chars

section Rounds

variable {s : CStr} (len : ℕ) {i : ℕ} {c d : UInt8} {rest : Text}

/-- A round on two digits makes the byte they stand for. -/
theorem hexstrToBin_digits (h : s.text.drop i = c :: d :: rest) (hc : isHexDigit c = true)
    (hd : isHexDigit d = true) :
    ∃ b, hexstrToBin s (len + 1) i =
        ((hexstrToBin s len (i + 2)).1, b :: (hexstrToBin s len (i + 2)).2) ∧
      binToHexstr [b] = [toupper c, toupper d] ∧
      hexstrReads s (len + 1) i = i :: (i + 1) :: hexstrReads s len (i + 2) := by
  have hci := charAt_of_drop h
  have hdi := charAt_of_drop (drop_succ_of_drop h)
  have hne := ne_zero_of_drop h
  obtain ⟨high, hhigh, hcv, hcu⟩ := hexcharToInt_of_hex hc
  obtain ⟨low, hlow, hdv, hdu⟩ := hexcharToInt_of_hex hd
  refine ⟨UInt8.ofNat (high * 16 ||| low), ?_, ?_, ?_⟩
  · rw [hexstrToBin]
    simp only [hci, hdi, if_neg hne, hcv, hdv]
  · obtain ⟨h1, h2⟩ := halves_byte hhigh hlow
    rw [binToHexstr, List.flatMap_singleton, h1, h2, hcu, hdu]
  · rw [hexstrReads]
    simp only [hci, hdi, if_neg hne, hcv, hdv]

/-- A round on a character that is no digit, in either place, is the last one. -/
theorem hexstrToBin_refused (hc0 : s.charAt i ≠ 0)
    (h : hexcharToInt (s.charAt (i + 1)) = none ∨ hexcharToInt (s.charAt i) = none) :
    (hexstrToBin s (len + 1) i).1 = true ∧ hexstrReads s (len + 1) i = [i, i + 1] := by
  rw [hexstrToBin, hexstrReads]
  simp only [if_neg hc0]
  rcases h with h | h
  · rw [h]
    exact ⟨rfl, rfl⟩
  · rw [h]
    cases hexcharToInt (s.charAt (i + 1)) <;> exact ⟨rfl, rfl⟩

/-- The end of the string, which ends the loop after two characters have been read. -/
theorem hexstrToBin_end (h : s.charAt i = 0) :
    hexstrToBin s (len + 1) i = (false, List.replicate (len + 1) 0xff) ∧
      hexstrReads s (len + 1) i = [i, i + 1] := by
  rw [hexstrToBin, hexstrReads]
  simp only [if_pos h]
  exact ⟨trivial, trivial⟩

/-- Half a byte at the end of the string goes through: the NUL counts as digit 16. -/
theorem hexstrToBin_half (h : s.text.drop i = [c]) (hc : isHexDigit c = true) :
    (hexstrToBin s (len + 1) i).1 = (hexstrToBin s len (i + 2)).1 ∧
      hexstrReads s (len + 1) i = i :: (i + 1) :: hexstrReads s len (i + 2) := by
  have hci := charAt_of_drop h
  have hne := ne_zero_of_drop h
  have hlen : s.text.length = i + 1 := by
    refine length_of_drop h ?_
    by_contra hgt
    rw [List.drop_eq_nil_of_le (by omega)] at h
    exact absurd h (by simp)
  have hdi : s.charAt (i + 1) = 0 := by rw [← hlen, charAt_length]
  have hzero : hexcharToInt 0 = some 16 := by decide
  obtain ⟨high, -, hcv, -⟩ := hexcharToInt_of_hex hc
  rw [hexstrToBin, hexstrReads]
  simp only [hci, hdi, if_neg hne, hcv, hzero]
  exact ⟨trivial, trivial⟩

end Rounds

section Runs

variable {s : CStr} {len i : ℕ} {rest : Text}

/-- A string with a character that is no digit is refused, and read at most up to its NUL. -/
theorem hexstrToBin_of_not_hex (hi : i ≤ s.text.length) (h : s.text.drop i = rest)
    (hlen : rest.length ≤ 2 * len) (hbad : rest.all isHexDigit = false) :
    (hexstrToBin s len i).1 = true ∧ ∀ j ∈ hexstrReads s len i, j ≤ s.text.length := by
  induction len generalizing i rest with
  | zero =>
    have hnil : rest = [] := List.length_eq_zero_iff.mp (by omega)
    rw [hnil] at hbad
    exact absurd hbad (by simp)
  | succ len ih =>
    match rest, h, hlen, hbad with
    | [], _, _, hbad => exact absurd hbad (by simp)
    | [c], h, _, hbad =>
      -- the last character, in first place
      have hc : isHexDigit c = false := by simpa using hbad
      have hci := charAt_of_drop h
      have hne := ne_zero_of_drop h
      have hlength := length_of_drop h hi
      obtain ⟨herr, hreads⟩ := hexstrToBin_refused len (hci ▸ hne)
        (.inr (hci ▸ hexcharToInt_of_not_hex hc hne))
      refine ⟨herr, fun j hj => ?_⟩
      rw [hreads] at hj
      simp only [List.mem_cons, List.not_mem_nil, or_false] at hj
      rw [List.length_singleton] at hlength
      omega
    | c :: d :: rest, h, hlen, hbad =>
      have hlength := length_of_drop h hi
      rw [List.length_cons, List.length_cons] at hlength hlen
      have hci := charAt_of_drop h
      have hdrop := drop_succ_of_drop h
      have hdi := charAt_of_drop hdrop
      have hne := ne_zero_of_drop h
      have hdne := ne_zero_of_drop hdrop
      by_cases hpair : isHexDigit c = true ∧ isHexDigit d = true
      · -- the pair is fine, so the bad character comes later
        have hbad' : rest.all isHexDigit = false := by
          simpa [hpair.1, hpair.2] using hbad
        obtain ⟨b, heq, -, hreads⟩ := hexstrToBin_digits len h hpair.1 hpair.2
        obtain ⟨herr, hread⟩ := ih (by omega) (drop_succ_of_drop hdrop) (by omega) hbad'
        refine ⟨by rw [heq]; exact herr, fun j hj => ?_⟩
        rw [hreads] at hj
        simp only [List.mem_cons] at hj
        rcases hj with rfl | rfl | hj
        · omega
        · omega
        · exact hread j hj
      · have hnone : hexcharToInt (s.charAt (i + 1)) = none ∨ hexcharToInt (s.charAt i) = none := by
          rw [hci, hdi]
          rcases not_and_or.mp hpair with hc | hd
          · exact .inr (hexcharToInt_of_not_hex (by simpa using hc) hne)
          · exact .inl (hexcharToInt_of_not_hex (by simpa using hd) hdne)
        obtain ⟨herr, hreads⟩ := hexstrToBin_refused len (hci ▸ hne) hnone
        refine ⟨herr, fun j hj => ?_⟩
        rw [hreads] at hj
        simp only [List.mem_cons, List.not_mem_nil, or_false] at hj
        omega

theorem binToHexstr_replicate (n : ℕ) :
    binToHexstr (List.replicate n 0xff) = List.replicate (2 * n) 70 := by
  induction n with
  | zero => rfl
  | succ n ih =>
    rw [List.replicate_succ, binToHexstr, List.flatMap_cons, ← binToHexstr, ih, Nat.mul_succ,
      Nat.add_comm, List.replicate_add]
    rfl

/-- An even number of digits is accepted, and shown in upper case with `F` behind. -/
theorem hexstrToBin_of_hex (hi : i ≤ s.text.length) (h : s.text.drop i = rest)
    (hlen : rest.length ≤ 2 * len) (heven : rest.length % 2 = 0)
    (hhex : rest.all isHexDigit = true) :
    (hexstrToBin s len i).1 = false ∧
      binToHexstr (hexstrToBin s len i).2 =
        rest.map toupper ++ List.replicate (2 * len - rest.length) 70 := by
  induction len generalizing i rest with
  | zero =>
    have hnil : rest = [] := List.length_eq_zero_iff.mp (by omega)
    subst hnil
    exact ⟨rfl, rfl⟩
  | succ len ih =>
    match rest, h, hlen, heven, hhex with
    | [], h, _, _, _ =>
      have hlength := length_of_drop h hi
      rw [List.length_nil, Nat.add_zero] at hlength
      obtain ⟨heq, -⟩ := hexstrToBin_end len (hlength ▸ charAt_length s)
      rw [heq]
      exact ⟨rfl, binToHexstr_replicate _⟩
    | c :: d :: rest, h, hlen, heven, hhex =>
      have hlength := length_of_drop h hi
      rw [List.length_cons, List.length_cons] at hlength hlen heven
      simp only [List.all_cons, Bool.and_eq_true] at hhex
      obtain ⟨hc, hd, hrest⟩ := hhex
      have hdrop := drop_succ_of_drop h
      obtain ⟨b, heq, hb, -⟩ := hexstrToBin_digits len h hc hd
      obtain ⟨hok, hbytes⟩ := ih (i := i + 2) (by omega) (drop_succ_of_drop hdrop) (by omega)
        (by omega) hrest
      rw [heq]
      refine ⟨hok, ?_⟩
      rw [binToHexstr, List.flatMap_cons, ← binToHexstr, hbytes]
      have hcons : [toupper c, toupper d] = intToHexchar (b.toNat / 16 % 16) ::
          [intToHexchar (b.toNat % 16)] := by
        rw [← hb, binToHexstr, List.flatMap_singleton]
      rw [← hcons, List.map_cons, List.map_cons, List.length_cons, List.length_cons,
        show 2 * (len + 1) - (rest.length + 1 + 1) = 2 * len - rest.length by omega]
      rfl

/-- Digits that fill the field are all that is read. -/
theorem hexstrReads_of_full (hi : i ≤ s.text.length) (h : s.text.drop i = rest)
    (hlen : rest.length = 2 * len) (hhex : rest.all isHexDigit = true) :
    ∀ j ∈ hexstrReads s len i, j ≤ s.text.length := by
  induction len generalizing i rest with
  | zero => exact fun j hj => absurd hj List.not_mem_nil
  | succ len ih =>
    match rest, h, hlen, hhex with
    | c :: d :: rest, h, hlen, hhex =>
      have hlength := length_of_drop h hi
      rw [List.length_cons, List.length_cons] at hlength hlen
      simp only [List.all_cons, Bool.and_eq_true] at hhex
      obtain ⟨hc, hd, hrest⟩ := hhex
      obtain ⟨-, -, -, hreads⟩ := hexstrToBin_digits len h hc hd
      have hread := ih (i := i + 2) (by omega) (drop_succ_of_drop (drop_succ_of_drop h)) (by omega)
        hrest
      intro j hj
      rw [hreads] at hj
      simp only [List.mem_cons] at hj
      rcases hj with rfl | rfl | hj
      · omega
      · omega
      · exact hread j hj

/-- Digits that do not fill the field: the byte behind the NUL is read, or a string that
lacks one digit is accepted. -/
theorem hexstrToBin_of_short (hi : i ≤ s.text.length) (h : s.text.drop i = rest)
    (hlen : rest.length < 2 * len) (hhex : rest.all isHexDigit = true) :
    s.text.length + 1 ∈ hexstrReads s len i ∨
      rest.length % 2 = 1 ∧ (hexstrToBin s len i).1 = false := by
  induction len generalizing i rest with
  | zero => omega
  | succ len ih =>
    match rest, h, hlen, hhex with
    | [], h, _, _ =>
      have hlength := length_of_drop h hi
      rw [List.length_nil, Nat.add_zero] at hlength
      obtain ⟨-, hreads⟩ := hexstrToBin_end len (hlength ▸ charAt_length s)
      rw [hreads, hlength]
      exact .inl (List.mem_cons_of_mem _ List.mem_cons_self)
    | [c], h, _, hhex =>
      have hlength := length_of_drop h hi
      rw [List.length_singleton] at hlength
      have hc : isHexDigit c = true := by simpa using hhex
      obtain ⟨herr, hreads⟩ := hexstrToBin_half len h hc
      cases len with
      | zero =>
        rw [herr]
        exact .inr ⟨rfl, rfl⟩
      | succ len =>
        -- the next round starts behind the NUL
        refine .inl ?_
        rw [hreads, hlength, hexstrReads]
        exact List.mem_cons_of_mem _ (List.mem_cons_of_mem _ List.mem_cons_self)
    | c :: d :: rest, h, hlen, hhex =>
      have hlength := length_of_drop h hi
      rw [List.length_cons, List.length_cons] at hlength hlen
      simp only [List.all_cons, Bool.and_eq_true] at hhex
      obtain ⟨hc, hd, hrest⟩ := hhex
      obtain ⟨b, heq, -, hreads⟩ := hexstrToBin_digits len h hc hd
      have hnext := ih (i := i + 2) (by omega) (drop_succ_of_drop (drop_succ_of_drop h)) (by omega)
        hrest
      rcases hnext with hmem | ⟨hodd, hok⟩
      · rw [hreads]
        exact .inl (List.mem_cons_of_mem _ (List.mem_cons_of_mem _ hmem))
      · refine .inr ⟨?_, by rw [heq]; exact hok⟩
        rw [List.length_cons, List.length_cons]
        omega

end Runs

section Fields

variable {field : MnfField}

theorem applyMnfOrder_applyMnfOrder (buf : Text) :
    applyMnfOrder field (applyMnfOrder field buf) = buf := by
  rw [applyMnfOrder, applyMnfOrder]
  split
  · exact List.reverse_reverse buf
  · rfl

/-- Bytes in hex are read back, in upper case as they are written. -/
theorem hexstrToBin_binToHexstr (s : CStr) (bytes : Text) (i : ℕ)
    (h : s.text.drop i = binToHexstr bytes) : hexstrToBin s bytes.length i = (false, bytes) := by
  induction bytes generalizing i with
  | nil => rfl
  | cons b bytes ih =>
    rw [binToHexstr, List.flatMap_cons, ← binToHexstr] at h
    have hdrop := drop_succ_of_drop h
    have hhigh : b.toNat / 16 % 16 < 16 := by omega
    have hlow : b.toNat % 16 < 16 := by omega
    have hnext := ih (i + 2) (drop_succ_of_drop hdrop)
    rw [List.length_cons, hexstrToBin]
    simp only [charAt_of_drop h, charAt_of_drop hdrop, if_neg (intToHexchar_ne_zero hhigh),
      hexcharToInt_intToHexchar hhigh, hexcharToInt_intToHexchar hlow, hnext, byte_halves]

/-- **The content of a binary field survives being shown.** -/
theorem mnfStrToField_shown (hbin : field.binary = true) {x : Text} (hx : x.length = field.length)
    (t : CStr) (ht : t.text = mnfFieldToStr field x) : mnfStrToField field t = (false, x) := by
  have hshown : mnfFieldToStr field x = binToHexstr (applyMnfOrder field x) := by
    rw [mnfFieldToStr]
    simp only [hbin, if_true]
  have hlen : (applyMnfOrder field x).length = field.length := by rw [length_applyMnfOrder, hx]
  have hread := hexstrToBin_binToHexstr t (applyMnfOrder field x) 0
    (by rw [List.drop_zero, ht, hshown])
  rw [hlen] at hread
  rw [mnfStrToField, if_pos hbin, hread]
  dsimp only
  rw [applyMnfOrder_applyMnfOrder]

/-- The high bit of an ASCII character is clear. -/
theorem and_high_of_lt {c : UInt8} (h : c < 0x80) : (c &&& 0x80 == 0) = true := by
  have hlt : c.toNat < 2 ^ 7 := UInt8.lt_iff_toNat_lt.mp h
  have hand : (c &&& 0x80).toNat = 0 := by
    rw [UInt8.toNat_and, show (0x80 : UInt8).toNat = 2 ^ 7 by rfl, Nat.and_two_pow,
      Nat.testBit_lt_two_pow hlt]
    rfl
  rw [beq_iff_eq]
  exact UInt8.toNat_inj.mp hand

/-- **An ASCII text survives being stored, cut to the length of its field.** -/
theorem shown_text (hbin : field.binary = false) (s : CStr) (hascii : ∀ c ∈ s.text, c < 0x80) :
    mnfFieldToStr field (mnfStrToField field s).2 = s.text.take field.length := by
  have hhigh : ∀ c ∈ s.text.take field.length, (c &&& 0x80 == 0) = true := fun c hc =>
    and_high_of_lt (hascii c (List.mem_of_mem_take hc))
  have hpad : (List.replicate (field.length - (s.text.take field.length).length)
      (0xff : UInt8)).takeWhile (· &&& 0x80 == 0) = [] := by
    rcases field.length - (s.text.take field.length).length with _ | n <;> rfl
  rw [mnfStrToField, if_neg (by simp [hbin]), mnfFieldToStr]
  dsimp only
  rw [applyMnfOrder_applyMnfOrder, if_neg (by simp [hbin]), List.takeWhile_append_of_pos hhigh, hpad,
    List.append_nil]

/-- The verdict on a string for a binary field, and how it is shown, are those of the
hex reader. -/
theorem mnfStrToField_binary (hbin : field.binary = true) (s : CStr) :
    (mnfStrToField field s).1 = (hexstrToBin s field.length 0).1 ∧
      ((mnfStrToField field s).1 = false →
        mnfFieldToStr field (mnfStrToField field s).2 =
          binToHexstr (hexstrToBin s field.length 0).2) := by
  rw [mnfStrToField, if_pos hbin]
  rcases hexstrToBin s field.length 0 with ⟨_ | _, bytes⟩
  · refine ⟨rfl, fun _ => ?_⟩
    rw [mnfFieldToStr]
    dsimp only
    rw [applyMnfOrder_applyMnfOrder, if_pos hbin]
  · exact ⟨rfl, fun h => absurd h (by simp)⟩

/-- **Hex digits are read as documented exactly when they fill the field** — or when there
is something else among them, and the string is refused. -/
theorem hexCodec_iff (hbin : field.binary = true) (s : CStr)
    (hlen : s.text.length ≤ 2 * field.length) : HexCodec field s ↔ ¬ ShortHex field s := by
  obtain ⟨hverdict, hshown⟩ := mnfStrToField_binary hbin s
  have hstart : s.text.drop 0 = s.text := List.drop_zero
  constructor
  · rintro ⟨haccepts, hreads, -⟩ ⟨-, hhex, hshort⟩
    -- the loop runs past the NUL, or a last digit has been completed by it
    rcases hexstrToBin_of_short (Nat.zero_le _) hstart hshort hhex with hmem | ⟨hodd, hok⟩
    · have := hreads _ hmem
      omega
    · have heven := (haccepts.mp (hverdict.trans hok)).1
      omega
  · intro hfull
    by_cases hhex : s.text.all isHexDigit = true
    · have hexact : s.text.length = 2 * field.length := by
        by_contra hne
        exact hfull ⟨hbin, hhex, by omega⟩
      obtain ⟨hok, hbytes⟩ := hexstrToBin_of_hex (Nat.zero_le _) hstart hlen (by omega) hhex
      refine ⟨⟨fun _ => ⟨by omega, hhex⟩, fun _ => hverdict.trans hok⟩,
        hexstrReads_of_full (Nat.zero_le _) hstart hexact hhex, fun h => ?_⟩
      rw [hshown h, hbytes]
    · have hbad : s.text.all isHexDigit = false := by simpa using hhex
      obtain ⟨herr, hreads⟩ := hexstrToBin_of_not_hex (Nat.zero_le _) hstart hlen hbad
      rw [← hverdict] at herr
      refine ⟨⟨fun h => ?_, fun h => absurd h.2 hhex⟩, hreads, fun h => ?_⟩
      · exact absurd (h.symm.trans herr) (by simp)
      · exact absurd (h.symm.trans herr) (by simp)

end Fields

/-- **The conversions keep their promises exactly on strings that are not `ShortHex`.** -/
theorem codec_iff (field : MnfField) (x : Text) (s : CStr) :
    Codec field x s ↔ ¬ ShortHex field s := by
  constructor
  · intro h hshort
    have hlen : s.text.length ≤ 2 * field.length := Nat.le_of_lt hshort.short
    exact (hexCodec_iff hshort.binary s hlen).mp (h.hex hshort.binary hlen) hshort
  · intro h
    refine ⟨fun hbin hx t ht => mnfStrToField_shown hbin hx t ht, fun hbin hlen => ?_, ?_⟩
    · exact (hexCodec_iff hbin s hlen).mpr h
    · intro hbin hascii
      refine ⟨?_, shown_text hbin s hascii⟩
      rw [mnfStrToField, if_neg (by simp [hbin])]

/-- The MAC address, six bytes in hex. -/
def macField : MnfField := ⟨109, ascii "mac", ascii "MAC address", 0x00, 6, .mac, true, false⟩

/-- The first eleven digits of an address, with zeros behind. -/
def oddMac : CStr := .ofText (ascii "001E4200000")

/-- An address that lacks its last digit is accepted. -/
theorem not_codec_oddMac :
    macField ∈ mnfFields ∧ (mnfStrToField macField oddMac).1 = false ∧ ¬ HexBytes oddMac.text ∧
      ¬ ∀ x, Codec macField x oddMac := by
  have haccepted : (mnfStrToField macField oddMac).1 = false := by decide
  have hodd : ¬ HexBytes oddMac.text := fun h => absurd h.1 (by decide)
  refine ⟨by decide, haccepted, hodd, fun h => hodd ?_⟩
  exact ((h []).hex rfl (by decide)).accepts.mp haccepted

end Mnf
