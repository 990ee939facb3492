/-
C strings inside a byte buffer.

A C string function sees a buffer from some offset up to the first zero byte.
`strstr buf k pat` is the offset of the first `pat` seen from offset `k`:

* `strstr_eq_some` — that offset is an occurrence in the buffer itself, no zero
  byte lies between `k` and it, and no earlier offset is an occurrence;
* `strstr_eq_none` — every occurrence is hidden behind a zero byte.

`atoi` is the unchecked decimal conversion in wrapping 32-bit arithmetic.
-/
import OpenMptcpRouter.Lib.Search

namespace CString

open Search

/-- The bytes of an ASCII text. -/
def ascii (s : String) : List UInt8 := s.toList.map fun c => UInt8.ofNat c.toNat

/-- The bytes a C string function sees: those before the first zero byte. -/
def cstr (buf : List UInt8) : List UInt8 := buf.takeWhile (· ≠ 0)

/-- `strstr` of `pat` in the C string at offset `k`, as an offset of the buffer. -/
def strstr (buf : List UInt8) (k : ℕ) (pat : List UInt8) : Option ℕ :=
  (findSub pat (cstr (buf.drop k))).map (k + ·)

/-- `is_digit`. -/
def isDigit (c : UInt8) : Bool := 48 ≤ c && c ≤ 57

/-- The loop of `atoi` on the text still to be read. -/
def atoiLoop (i : ℕ) : List UInt8 → ℕ
  | [] => i
  | c :: cs => if isDigit c then atoiLoop ((i * 10 + (c.toNat - 48)) % 2 ^ 32) cs else i

/-- `atoi` of the C string at offset `k`. -/
def atoi (buf : List UInt8) (k : ℕ) : ℕ := atoiLoop 0 (cstr (buf.drop k))

/-- The number a string of decimal digits stands for. -/
def decVal (ds : List UInt8) : ℕ := ds.foldl (fun v c => v * 10 + (c.toNat - 48)) 0

/-- No zero byte in `buf[k, j)`. -/
def NulFree (buf : List UInt8) (k j : ℕ) : Prop := ∀ x, k ≤ x → x < j → buf[x]? ≠ some 0

/-- `pat` stands at `i`, the first such place from `k` on, with no zero byte on the way. -/
def SeenAt (buf pat : List UInt8) (k i : ℕ) : Prop :=
  k ≤ i ∧ OccursAt pat buf i ∧ NulFree buf k i ∧ ∀ j, k ≤ j → j < i → ¬ OccursAt pat buf j

theorem cstr_isPrefix (buf : List UInt8) : cstr buf <+: buf := List.takeWhile_prefix _

theorem getElem?_cstr_ne_zero (buf : List UInt8) (i : ℕ) : (cstr buf)[i]? ≠ some 0 := by
  intro h
  have hmem : (0 : UInt8) ∈ cstr buf := List.mem_of_getElem? h
  simpa using List.all_eq_true.mp List.all_takeWhile 0 hmem

/-- Position `i` is seen from the start of the buffer iff no zero byte stands
before it or at it. -/
theorem lt_length_cstr_iff : ∀ {buf : List UInt8} {i : ℕ},
    i < (cstr buf).length ↔ i < buf.length ∧ NulFree buf 0 (i + 1) := by
  intro buf
  induction buf with
  | nil =>
    intro i
    simp [cstr]
  | cons c cs ih =>
    intro i
    rw [cstr, List.takeWhile_cons]
    by_cases hc : c = 0
    · subst hc
      simp only [ne_eq, not_true_eq_false, decide_false, Bool.false_eq_true, if_false,
        List.length_nil, Nat.not_lt_zero, false_iff, not_and]
      intro _ hfree
      exact hfree 0 le_rfl (by omega) (by simp)
    · rw [if_pos (by simpa using hc), List.length_cons]
      change i < (cstr cs).length + 1 ↔ _
      rcases i with _ | i
      · simp only [Nat.zero_lt_succ, List.length_cons, true_and, true_iff]
        intro x _ hx
        obtain rfl : x = 0 := by omega
        simpa using hc
      · rw [Nat.add_lt_add_iff_right, ih, List.length_cons, Nat.add_lt_add_iff_right]
        refine and_congr_right fun _ => ⟨fun h x _ hx => ?_, fun h x _ hx => ?_⟩
        · rcases x with _ | x
          · simpa using hc
          · simpa using h x (Nat.zero_le x) (by omega)
        · simpa using h (x + 1) (by omega) (by omega)

/-- A string ends within `n` bytes iff one of them is zero. -/
theorem length_cstr_lt_iff {buf : List UInt8} {n : ℕ} :
    (cstr buf).length < n ↔ ∃ k < n, buf.getD k 0 = 0 := by
  induction buf generalizing n with
  | nil =>
    rcases n with _ | n
    · simp [cstr]
    · exact iff_of_true (by simp [cstr]) ⟨0, Nat.succ_pos n, rfl⟩
  | cons c cs ih =>
    rcases n with _ | n
    · simp
    rw [cstr, List.takeWhile_cons]
    by_cases hc : c = 0
    · subst hc
      exact iff_of_true (by simp) ⟨0, Nat.succ_pos n, rfl⟩
    · rw [if_pos (by simpa using hc), List.length_cons, Nat.add_lt_add_iff_right]
      refine ih.trans ⟨?_, ?_⟩
      · rintro ⟨k, hk, hzero⟩
        exact ⟨k + 1, by omega, hzero⟩
      · rintro ⟨k, hk, hzero⟩
        rcases k with _ | k
        · exact absurd hzero hc
        · exact ⟨k, by omega, hzero⟩

theorem cstr_eq_take (buf : List UInt8) : cstr buf = buf.take (cstr buf).length :=
  List.prefix_iff_eq_take.mp (cstr_isPrefix buf)

theorem nulFree_drop {buf : List UInt8} {k i : ℕ} :
    NulFree (buf.drop k) 0 i ↔ NulFree buf k (k + i) := by
  constructor
  · intro h x hk hx
    have := h (x - k) (Nat.zero_le _) (by omega)
    rwa [List.getElem?_drop, show k + (x - k) = x by omega] at this
  · intro h x _ hx
    rw [List.getElem?_drop]
    exact h (k + x) (by omega) (by omega)

/-- A zero-free pattern is seen exactly where it stands with no zero byte before it. -/
theorem occursAt_cstr {buf pat : List UInt8} {i : ℕ} (hp : pat ≠ []) (hz : (0 : UInt8) ∉ pat) :
    OccursAt pat (cstr buf) i ↔ OccursAt pat buf i ∧ NulFree buf 0 i := by
  have hpos : 0 < pat.length := List.length_pos_iff.mpr hp
  rw [cstr_eq_take, occursAt_take hp]
  refine and_congr_right fun hocc => ⟨fun hle x _ hx => ?_, fun hfree => ?_⟩
  · have hlt : x < (cstr buf).length := by omega
    exact (lt_length_cstr_iff.mp hlt).2 x (Nat.zero_le x) (by omega)
  · -- the last byte of the occurrence is seen: before it stand bytes of `pat` only
    have hlen := hocc.le_length hp
    have hlt : i + pat.length - 1 < (cstr buf).length := by
      refine lt_length_cstr_iff.mpr ⟨by omega, fun x _ hx => ?_⟩
      by_cases hxi : x < i
      · exact hfree x (Nat.zero_le x) hxi
      · have hx' := occursAt_iff_getElem?.mp hocc (x - i) (by omega)
        rw [show i + (x - i) = x by omega] at hx'
        rw [hx']
        exact fun h0 => hz (List.mem_of_getElem? h0)
    omega

theorem strstr_eq_some {buf pat : List UInt8} {k i : ℕ} (hp : pat ≠ []) (hz : (0 : UInt8) ∉ pat) :
    strstr buf k pat = some i ↔
      k ≤ i ∧ OccursAt pat buf i ∧ NulFree buf k i ∧ ∀ j, k ≤ j → j < i → ¬ OccursAt pat buf j := by
  rw [strstr, Option.map_eq_some_iff]
  constructor
  · rintro ⟨i', hi', rfl⟩
    obtain ⟨_, hocc, hmin⟩ := findSub_eq_some.mp hi'
    obtain ⟨hocc, hfree⟩ := (occursAt_cstr hp hz).mp hocc
    rw [nulFree_drop] at hfree
    refine ⟨by omega, occursAt_drop.mp hocc, hfree, fun j hkj hj hoccj => ?_⟩
    refine hmin (j - k) (by omega) ((occursAt_cstr hp hz).mpr ⟨?_, ?_⟩)
    · rw [occursAt_drop, show k + (j - k) = j by omega]
      exact hoccj
    · rw [nulFree_drop]
      exact fun x hkx hx => hfree x hkx (by omega)
  · rintro ⟨hki, hocc, hfree, hmin⟩
    refine ⟨i - k, findSub_eq_some.mpr ⟨?_, ?_, fun j hj hoccj => ?_⟩, by omega⟩
    · have : OccursAt pat (cstr (buf.drop k)) (i - k) := by
        rw [occursAt_cstr hp hz, occursAt_drop, nulFree_drop, show k + (i - k) = i by omega]
        exact ⟨hocc, hfree⟩
      have := this.le_length hp
      omega
    · rw [occursAt_cstr hp hz, occursAt_drop, nulFree_drop, show k + (i - k) = i by omega]
      exact ⟨hocc, hfree⟩
    · obtain ⟨hoccj, _⟩ := (occursAt_cstr hp hz).mp hoccj
      exact hmin (k + j) (by omega) (by omega) (occursAt_drop.mp hoccj)

theorem strstr_eq_none {buf pat : List UInt8} {k : ℕ} (hp : pat ≠ []) (hz : (0 : UInt8) ∉ pat) :
    strstr buf k pat = none ↔ ∀ i, k ≤ i → OccursAt pat buf i → ¬ NulFree buf k i := by
  rw [strstr, Option.map_eq_none_iff, findSub_eq_none]
  constructor
  · intro h i hki hocc hfree
    have hseen : OccursAt pat (cstr (buf.drop k)) (i - k) := by
      rw [occursAt_cstr hp hz, occursAt_drop, nulFree_drop, show k + (i - k) = i by omega]
      exact ⟨hocc, hfree⟩
    have hle := hseen.le_length hp
    exact h (i - k) (by omega) hseen
  · intro h i _ hocc
    rw [occursAt_cstr hp hz, occursAt_drop, nulFree_drop] at hocc
    exact h (k + i) (by omega) hocc.1 hocc.2

theorem strstr_eq_some_iff_seenAt {buf pat : List UInt8} {k i : ℕ} (hp : pat ≠ [])
    (hz : (0 : UInt8) ∉ pat) : strstr buf k pat = some i ↔ SeenAt buf pat k i :=
  strstr_eq_some hp hz

/-- A pattern is found exactly when it stands in what is seen. -/
theorem strstr_isSome_iff {buf pat : List UInt8} {k : ℕ} :
    (strstr buf k pat).isSome ↔ pat <:+: cstr (buf.drop k) := by
  rw [strstr, Option.isSome_map, Option.isSome_iff_ne_none, ne_eq, findSub_eq_none]
  constructor
  · intro h
    simp only [not_forall, not_not] at h
    obtain ⟨i, -, hocc⟩ := h
    exact infix_of_occursAt hocc
  · rintro ⟨s, t, heq⟩ h
    have hlen : s.length ≤ (cstr (buf.drop k)).length := by
      rw [← heq, List.length_append, List.length_append]
      omega
    refine h s.length hlen ?_
    rw [OccursAt, ← heq, List.append_assoc, List.drop_left]
    exact List.prefix_append pat t

/-- The text in front of the first zero byte. -/
theorem cstr_append {text rest : List UInt8} (h : (0 : UInt8) ∉ text) :
    cstr (text ++ rest) = text ++ cstr rest := by
  refine List.takeWhile_append_of_pos fun c hc => ?_
  have hne : c ≠ 0 := fun h0 => h (h0 ▸ hc)
  simpa using hne

/-- Behind a zero byte nothing is seen. -/
theorem cstr_append_zero (text rest : List UInt8) : cstr (text ++ 0 :: rest) = cstr text := by
  induction text with
  | nil => rfl
  | cons c text ih =>
    rw [List.cons_append, cstr, cstr, List.takeWhile_cons, List.takeWhile_cons]
    split
    · rw [← cstr, ← cstr, ih]
    · rfl

theorem isDigit_zero : isDigit 0 = false := by decide

/-- `atoi` reads the digits up to the first other character, in 32 bits. -/
theorem atoi_eq (buf : List UInt8) (k : ℕ) :
    atoi buf k = decVal ((buf.drop k).takeWhile isDigit) % 2 ^ 32 := by
  suffices h : ∀ (text : List UInt8) (v : ℕ), atoiLoop (v % 2 ^ 32) (cstr text)
      = (text.takeWhile isDigit).foldl (fun v c => v * 10 + (c.toNat - 48)) v % 2 ^ 32 from
    h (buf.drop k) 0
  intro text
  induction text with
  | nil => intro v; rfl
  | cons c text ih =>
    intro v
    by_cases hc : isDigit c = true
    · have hne : c ≠ 0 := fun h0 => by rw [h0, isDigit_zero] at hc; exact absurd hc (by simp)
      have hstep : (v % 2 ^ 32 * 10 + (c.toNat - 48)) % 2 ^ 32
          = (v * 10 + (c.toNat - 48)) % 2 ^ 32 := by omega
      have hcstr : cstr (c :: text) = c :: cstr text := by
        rw [cstr, List.takeWhile_cons, if_pos (by simpa using hne)]
        rfl
      rw [hcstr, atoiLoop, if_pos hc, List.takeWhile_cons, if_pos hc, List.foldl_cons, hstep, ih]
    · have hnil : (c :: text).takeWhile isDigit = [] := by rw [List.takeWhile_cons, if_neg hc]
      rw [hnil, List.foldl_nil, cstr, List.takeWhile_cons]
      split
      · rw [atoiLoop, if_neg hc]
      · rfl

end CString
