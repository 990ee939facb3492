/-
The partition table where it comes from, and what its readers touch (`smem.c`).

`smem_ptable_init` copies the table out of shared memory, with 32 entries or, where the
earlier boot stage has written the shorter one, with 16.  The four readers go by the
length the table gives for itself, and take each name for a string.

* `Access` — what a reader touches: an entry, a byte of its name, a byte of `parts`;
* `bounded_iff` — the readers keep to the entries that were copied, to the 16 bytes of
  each name and to `parts`, exactly if the table says it has no more entries than were
  copied, and each of their names ends within its field;
* `shorter_table_overread` — a table of the shorter kind that says it has 17 entries.
-/
import Mathlib.Data.Nat.Digits.Defs
import OpenMptcpRouter.Lib.CString
import OpenMptcpRouter.Smem.Readers

namespace Smem

open CString

/-- `CONFIG_QCA_SMEM_BASE`. -/
def qcaSmemBase : ℕ := 0x87e00000

/-- `SMEM_AARM_PARTITION_TABLE`. -/
def smemAarmPartitionTable : ℕ := 9

/-- `SMEM_FIRST_VALID_TYPE`. -/
def smemFirstValidType : ℕ := 7

/-- `SMEM_LAST_VALID_TYPE`. -/
def smemLastValidType : ℕ := 484

/-- `sizeof(struct smem_ptn)`. -/
def sizeofPtn : ℕ := 28

/-- `sizeof(smem_ptable)`: the header, and `SMEM_PTABLE_PARTS_MAX` entries. -/
def sizeofPtable : ℕ := 16 + 32 * sizeofPtn

/-- `SMEM_PTABLE_PARTS_DEFAULT`. -/
def ptablePartsDefault : ℕ := 16

/-- The words at an address, `readl`. -/
abbrev Shm := ℕ → UInt32

/-- `&smem->alloc_info[type]`. -/
def allocInfo (type : ℕ) : ℕ := qcaSmemBase + 208 + 16 * type

/-- `smem_read_alloc_entry` to an aligned buffer: the words of the entry. -/
def smemReadAllocEntry (readl : Shm) (type len : ℕ) : Option (List UInt32) :=
  let ainfo := allocInfo type
  if len % 4 ≠ 0 then none
  else if type < smemFirstValidType ∨ type > smemLastValidType then none
  else if readl ainfo = 0 then none
  else if (readl (ainfo + 8)).toNat ≠ (len + 7) / 8 * 8 then none
  else
    let src := qcaSmemBase + (readl (ainfo + 4)).toNat
    some ((List.range (len / 4)).map fun k => readl ((src + 4 * k) % 2 ^ 32))

/-- The bytes of a word in memory. -/
def leBytes (x : UInt32) : List UInt8 :=
  (List.range 4).map fun k => UInt8.ofNat (x.toNat / 256 ^ k)

/-- The memory from `&smem_ptable` on, and how much of it was read from shared memory. -/
structure Ptable where
  mem : List UInt8
  bytesRead : ℕ
  deriving DecidableEq

namespace Ptable

variable (t : Ptable)

/-- The word at `off`. -/
def word (off : ℕ) : ℕ :=
  (t.mem.getD off 0).toNat + 256 * (t.mem.getD (off + 1) 0).toNat +
    256 ^ 2 * (t.mem.getD (off + 2) 0).toNat + 256 ^ 3 * (t.mem.getD (off + 3) 0).toNat

theorem word_lt (off : ℕ) : t.word off < 2 ^ 32 := by
  have h0 := (t.mem.getD off 0).toNat_lt
  have h1 := (t.mem.getD (off + 1) 0).toNat_lt
  have h2 := (t.mem.getD (off + 2) 0).toNat_lt
  have h3 := (t.mem.getD (off + 3) 0).toNat_lt
  rw [word]
  omega

/-- `smem_ptable.len`. -/
def len : ℕ := t.word 12

/-- The memory from `smem_ptable.parts[i].name` on. -/
def nameAt (i : ℕ) : List UInt8 := t.mem.drop (16 + sizeofPtn * i)

/-- The numbers of `smem_ptable.parts[i]`; what its name is, is up to the reader. -/
def ptn (i : ℕ) : SmemPtn where
  nameBytes := List.replicate ptnNameMax 0
  start := t.word (16 + sizeofPtn * i + 16)
  size := t.word (16 + sizeofPtn * i + 20)
  attr := t.word (16 + sizeofPtn * i + 24)
  nameBytes_length := List.length_replicate
  name_nul := List.mem_replicate.mpr ⟨by decide, rfl⟩
  start_lt := t.word_lt _
  size_lt := t.word_lt _

/-- The number of entries that were read from shared memory. -/
def entriesRead : ℕ := (t.bytesRead - 16) / sizeofPtn

end Ptable

/-- `smem_ptable_init`, with what the static table and the memory behind it held before. -/
def smemPtableInit (readl : Shm) (old : List UInt8) : Option Ptable :=
  let copied (len : ℕ) : Option Ptable :=
    (smemReadAllocEntry readl smemAarmPartitionTable len).map fun words =>
      ⟨words.flatMap leBytes ++ old.drop len, len⟩
  let entry := (copied sizeofPtable).orElse fun _ =>
    copied (sizeofPtable - sizeofPtn * ptablePartsDefault)
  entry.bind fun t =>
    if t.word 0 ≠ 0x55ee73aa ∨ t.word 4 ≠ 0xe35ebddb then none else some t

/-! ### The readers -/

/-- What a reader touches: `smem_ptable.parts[i]`, byte `k` of its name, a byte of `parts`. -/
inductive Access
  | entry (i : ℕ)
  | name (i k : ℕ)
  | write (k : ℕ)
  deriving DecidableEq, Repr

/-- An entry and the first `n` bytes from its name on. -/
def nameAccesses (i n : ℕ) : List Access := .entry i :: (List.range n).map (.name i)

/-- `strncmp`: whether the strings agree, and how many bytes it looks at. -/
def strncmp : ℕ → List UInt8 → List UInt8 → Bool × ℕ
  | 0, _, _ => (true, 0)
  | n + 1, cs, ct =>
    if cs.headD 0 ≠ ct.headD 0 then (false, 1)
    else if cs.headD 0 = 0 then (true, 1)
    else ((strncmp n cs.tail ct.tail).1, (strncmp n cs.tail ct.tail).2 + 1)

/-- `strcmp` with a string `ct`: it ends at the latest with that string. -/
def strcmp (cs ct : List UInt8) : Bool × ℕ := strncmp (ct.length + 1) cs ct

namespace Ptable

variable (b : Board) (t : Ptable)

/-- The loop of `smem_getpart` from entry `i` on, over the `r` entries there are still. -/
def getpartLoop (partName : List UInt8) : ℕ → ℕ → Option ℕ × List Access
  | _, 0 => (none, [])
  | i, r + 1 =>
    let (equal, n) := strncmp ptnNameMax (t.nameAt i) partName
    if equal then (some i, nameAccesses i n)
    else
      let (found, accesses) := getpartLoop partName (i + 1) r
      (found, nameAccesses i n ++ accesses)

/-- `smem_getpart`. -/
def smemGetpart (partName : List UInt8) : Option (ℕ × ℕ) × List Access :=
  match t.getpartLoop partName 0 t.len with
  | (none, accesses) => (none, accesses)
  | (some i, accesses) =>
    let p := t.ptn i
    let size :=
      if p.size = tillEnd then
        (((b.nor.size / b.flashBlockSize : ℕ) : ℤ) - p.start) % 2 ^ 32 |>.toNat
      else p.size
    (some (p.start, size), accesses ++ [.entry i])

/-- `get_which_flash_param`. -/
def getWhichFlashParam (partName : List UInt8) : ℕ × List Access :=
  ((List.range t.len).foldl (fun flashVar i =>
      if (strcmp (t.nameAt i) partName).1 then partWhichFlash (t.ptn i) else flashVar) 0,
    (List.range t.len).flatMap fun i => nameAccesses i (strcmp (t.nameAt i) partName).2)

/-- `do_smeminfo`: its rows, each with number, name, attributes, start and size. -/
def doSmeminfo : List (ℕ × List UInt8 × ℕ × ℤ × ℤ) × List Access :=
  ((List.range t.len).map fun i =>
      (i, cstr (t.nameAt i), (t.ptn i).attr, poffset b (t.ptn i), psize b (t.ptn i)),
    (List.range t.len).flatMap fun i => nameAccesses i ((cstr (t.nameAt i)).length + 1))

/-- The bytes `snprintf` writes of a text of `n` characters at `pos`, with `room` bytes there
according to its argument; a negative one it takes for all of the memory. -/
def snprintf (pos : ℕ) (room : ℤ) (n : ℕ) : List Access :=
  (List.range (if room < 0 then n + 1 else min (n + 1) room.toNat)).map fun k => .write (pos + k)

/-- `"%lld%s0x%llx(%s),"`. -/
def entryText (i : ℕ) : Text :=
  sizeText (psize b (t.ptn i)) ++ offsetText (poffset b (t.ptn i)) ++
    '(' :: (cstr (t.nameAt i)).map (fun c => Char.ofNat c.toNat) ++ [')', ',']

/-- `";nand%d:"`. -/
def nandText : Text := ';' :: nandName b ++ [':']

/-- The loop of `qca_smem_part_to_mtdparts` from entry `i` on, over the `r` entries there are
still, at byte `pos` of `parts`: where it ends. -/
def mtdpartsLoop : ℕ → ℕ → ℕ → Bool → ℕ × List Access
  | _, 0, pos, _ => (pos, [])
  | i, r + 1, pos, init =>
    if pos ≥ partsMax then (pos, [])
    else
      let opens := partWhichFlash (t.ptn i) ≠ 0 ∧ init = false
      let opened := if opens then (nandText b).length else 0
      let opening := if opens then snprintf pos (partsMax - pos) (nandText b).length else []
      let n := (t.entryText b i).length
      let (stop, accesses) := mtdpartsLoop (i + 1) r (pos + opened + n)
        (init || decide (partWhichFlash (t.ptn i) ≠ 0))
      (stop, nameAccesses i ((cstr (t.nameAt i)).length + 1) ++ opening ++
        snprintf (pos + opened) (partsMax - (pos + opened : ℕ)) n ++ accesses)

/-- `qca_smem_part_to_mtdparts`: where the NUL behind the text goes, if there is a text. -/
def qcaSmemPartToMtdparts (mtdid : List UInt8) : Option ℕ × List Access :=
  let n := mtdid.length + 1
  let (stop, accesses) := t.mtdpartsLoop b 0 t.len n false
  if t.len = 0 ∨ n ≥ partsMax then (none, snprintf 0 partsMax n)
  else (some stop, snprintf 0 partsMax n ++ accesses ++ [.write stop])

end Ptable

/-! ### Bounds -/

/-- The access is to an entry that was read from shared memory, inside its name, or inside
`parts`. -/
def Access.Inside (t : Ptable) : Access → Prop
  | .entry i => i < t.entriesRead
  | .name _ k => k < ptnNameMax
  | .write k => k < partsMax

/-- The readers keep to their bounds, whatever names they are called with;
`qca_smem_part_to_mtdparts` is called with a string from an array of 256 bytes. -/
def Bounded (b : Board) (t : Ptable) : Prop :=
  (∀ partName, ∀ a ∈ (t.smemGetpart b partName).2, a.Inside t) ∧
  (∀ partName, ∀ a ∈ (t.getWhichFlashParam partName).2, a.Inside t) ∧
  (∀ mtdid, mtdid.length < 256 → ∀ a ∈ (t.qcaSmemPartToMtdparts b mtdid).2, a.Inside t) ∧
  ∀ a ∈ (t.doSmeminfo b).2, a.Inside t

/-- The table has no more entries than were read, and a NUL among the 16 bytes of each name. -/
def Sound (t : Ptable) : Prop :=
  t.len ≤ t.entriesRead ∧ ∀ i < t.len, ∃ k < ptnNameMax, (t.nameAt i).getD k 0 = 0

section Strings

theorem strncmp_le (n : ℕ) (cs ct : List UInt8) : (strncmp n cs ct).2 ≤ n := by
  induction n generalizing cs ct with
  | zero => exact Nat.le_refl 0
  | succ n ih =>
    have hrest := ih cs.tail ct.tail
    rw [strncmp]
    split
    · exact Nat.succ_le_succ (Nat.zero_le n)
    · split
      · exact Nat.succ_le_succ (Nat.zero_le n)
      · exact Nat.succ_le_succ hrest

/-- A comparison does not go on behind the NUL of a string. -/
theorem strncmp_le_cstr (n : ℕ) (cs ct : List UInt8) :
    (strncmp n cs ct).2 ≤ (cstr cs).length + 1 := by
  induction n generalizing cs ct with
  | zero => exact Nat.zero_le _
  | succ n ih =>
    rw [strncmp]
    split
    · exact Nat.succ_le_succ (Nat.zero_le _)
    · split
      · exact Nat.succ_le_succ (Nat.zero_le _)
      case isFalse hne =>
        rcases cs with _ | ⟨c, cs⟩
        · exact absurd rfl hne
        · have hcstr : cstr (c :: cs) = c :: cstr cs := List.takeWhile_cons_of_pos (by simpa using hne)
          rw [hcstr]
          exact Nat.succ_le_succ (ih cs _)

theorem length_decimal_le {x : ℤ} (h : -2 ^ 63 ≤ x ∧ x < 2 ^ 63) : (decimal x).length ≤ 20 := by
  have hdigits : ∀ n : ℕ, n ≤ 2 ^ 63 → (Nat.toDigits 10 n).length ≤ 19 :=
    fun n hn => Nat.toDigits_length 10 n 19 (by decide) (by omega)
  rw [decimal]
  split
  · exact Nat.succ_le_succ (hdigits _ (by omega))
  · exact Nat.le_succ_of_le (hdigits _ (by omega))

theorem length_sizeText_le {x : ℤ} (h : -2 ^ 63 ≤ x ∧ x < 2 ^ 63) : (sizeText x).length ≤ 22 := by
  have h0 := length_decimal_le h
  have h1 : (decimal (x / 2 ^ 10)).length ≤ 20 := length_decimal_le (by omega)
  have h2 : (decimal (x / 2 ^ 20)).length ≤ 20 := length_decimal_le (by omega)
  rw [sizeText]
  split
  · simpa using h2
  · split
    · simpa using h1
    · simp only [List.length_append, List.length_singleton]
      omega

theorem length_offsetText_le (x : ℤ) : (offsetText x).length ≤ 18 := by
  have hdigits : (Nat.toDigits 16 (x % 2 ^ 64).toNat).length ≤ 16 :=
    Nat.toDigits_length 16 _ 16 (by decide) (by omega)
  rw [offsetText]
  simp only [List.length_cons]
  omega

end Strings

namespace Ptable

variable {b : Board} {t : Ptable} {i n : ℕ}

/-- No entry takes up more than 58 characters, if its name ends in its field. -/
theorem length_entryText_le (h : (cstr (t.nameAt i)).length < ptnNameMax) :
    (t.entryText b i).length ≤ 58 := by
  have hpsize : -2 ^ 63 ≤ psize b (t.ptn i) ∧ psize b (t.ptn i) < 2 ^ 63 := by
    rw [psize]
    split <;> exact loff_range _
  have hsize := length_sizeText_le hpsize
  have hoffset := length_offsetText_le (poffset b (t.ptn i))
  rw [ptnNameMax] at h
  rw [entryText]
  simp only [List.length_append, List.length_cons, List.length_map, List.length_nil]
  omega

theorem length_nandText (b : Board) : (nandText b).length = 7 := by
  rw [nandText, nandName]
  split <;> rfl

theorem inside_nameAccesses (hi : i < t.entriesRead) (hn : n ≤ ptnNameMax) :
    ∀ a ∈ nameAccesses i n, a.Inside t := by
  intro a ha
  rcases List.mem_cons.mp ha with rfl | ha
  · exact hi
  · obtain ⟨k, hk, rfl⟩ := List.mem_map.mp ha
    exact Nat.lt_of_lt_of_le (List.mem_range.mp hk) hn

/-- A text that fits is written inside `parts`. -/
theorem inside_snprintf {pos : ℕ} (h : pos + n < partsMax) :
    ∀ a ∈ snprintf pos (partsMax - pos) n, a.Inside t := by
  intro a ha
  obtain ⟨k, hk, rfl⟩ := List.mem_map.mp ha
  rw [if_neg (by omega), List.mem_range] at hk
  have hlt : pos + k < partsMax := by omega
  exact hlt

theorem length_cstr_lt (h : Sound t) (hi : i < t.len) :
    (cstr (t.nameAt i)).length < ptnNameMax := length_cstr_lt_iff.mpr (h.2 i hi)

/-- Entries are named in turn up to the one looked for. -/
theorem inside_getpartLoop (hlen : t.len ≤ t.entriesRead) (partName : List UInt8) {r : ℕ}
    (hr : i + r ≤ t.len) :
    (∀ a ∈ (t.getpartLoop partName i r).2, a.Inside t) ∧
      ∀ j ∈ (t.getpartLoop partName i r).1, j < t.entriesRead := by
  induction r generalizing i with
  | zero => exact ⟨fun a ha => absurd ha List.not_mem_nil, fun j hj => by cases hj⟩
  | succ r ih =>
    have hi : i < t.entriesRead := by omega
    have hname := inside_nameAccesses hi (strncmp_le ptnNameMax (t.nameAt i) partName)
    obtain ⟨hlater, hfound⟩ := ih (i := i + 1) (by omega)
    rw [getpartLoop]
    dsimp only
    split
    · refine ⟨hname, fun j hj => ?_⟩
      cases hj
      exact hi
    · exact ⟨List.forall_mem_append.mpr ⟨hname, hlater⟩, hfound⟩

theorem inside_smemGetpart (hlen : t.len ≤ t.entriesRead) (partName : List UInt8) :
    ∀ a ∈ (t.smemGetpart b partName).2, a.Inside t := by
  obtain ⟨hloop, hfound⟩ := inside_getpartLoop hlen partName (i := 0) (r := t.len) (by omega)
  rw [smemGetpart]
  rcases hres : t.getpartLoop partName 0 t.len with ⟨_ | i, accesses⟩
  · rw [hres] at hloop
    exact hloop
  · rw [hres] at hloop hfound
    refine List.forall_mem_append.mpr ⟨hloop, fun a ha => ?_⟩
    rw [List.mem_singleton.mp ha]
    exact hfound i rfl

theorem inside_getWhichFlashParam (h : Sound t) (partName : List UInt8) :
    ∀ a ∈ (t.getWhichFlashParam partName).2, a.Inside t := by
  intro a ha
  obtain ⟨i, hi, ha⟩ := List.mem_flatMap.mp ha
  rw [List.mem_range] at hi
  have hname := length_cstr_lt h hi
  have hn := strncmp_le_cstr (partName.length + 1) (t.nameAt i) partName
  exact inside_nameAccesses (Nat.lt_of_lt_of_le hi h.1) (Nat.le_trans hn hname) a ha

theorem inside_doSmeminfo (h : Sound t) : ∀ a ∈ (t.doSmeminfo b).2, a.Inside t := by
  intro a ha
  obtain ⟨i, hi, ha⟩ := List.mem_flatMap.mp ha
  rw [List.mem_range] at hi
  exact inside_nameAccesses (Nat.lt_of_lt_of_le hi h.1) (length_cstr_lt h hi) a ha

/-- **The loop of the partition list.**  As long as there is room for what the entries can
take up at most, all of it is written inside `parts`. -/
theorem inside_mtdpartsLoop (h : Sound t) {r pos : ℕ} {init : Bool} (hr : i + r ≤ t.len)
    (hpos : pos + (if init then 0 else 7) + 58 * r < partsMax) :
    (∀ a ∈ (t.mtdpartsLoop b i r pos init).2, a.Inside t) ∧
      (t.mtdpartsLoop b i r pos init).1 < partsMax := by
  induction r generalizing i pos init with
  | zero =>
    refine ⟨fun a ha => absurd ha List.not_mem_nil, ?_⟩
    change pos < partsMax
    omega
  | succ r ih =>
    have hi : i < t.len := by omega
    have hname := length_cstr_lt h hi
    have htext := length_entryText_le (b := b) hname
    have hent := inside_nameAccesses (n := (cstr (t.nameAt i)).length + 1)
      (Nat.lt_of_lt_of_le hi h.1) hname
    rw [mtdpartsLoop, if_neg (by omega)]
    dsimp only
    by_cases hopens : partWhichFlash (t.ptn i) ≠ 0 ∧ init = false
    · -- `;nand%d:` comes once, in front of the first entry on that chip
      obtain ⟨hwhich, rfl⟩ := hopens
      have hroom : pos + 7 + 58 * (r + 1) < partsMax := hpos
      have hrest : pos + 7 + (t.entryText b i).length + (if true then 0 else 7) + 58 * r <
          partsMax := by
        simp only [if_true]
        omega
      have hnext := ih (i := i + 1) (by omega) hrest
      simp only [ne_eq, hwhich, not_false_eq_true, and_self, if_true, length_nandText,
        Bool.false_or, decide_true]
      refine ⟨?_, hnext.2⟩
      rw [List.forall_mem_append, List.forall_mem_append, List.forall_mem_append]
      exact ⟨⟨⟨hent, inside_snprintf (by omega)⟩, inside_snprintf (by omega)⟩, hnext.1⟩
    · have hinit : (init || decide (partWhichFlash (t.ptn i) ≠ 0)) = init := by
        cases init with
        | true => rfl
        | false => simpa using hopens
      have hrest : pos + 0 + (t.entryText b i).length + (if init then 0 else 7) + 58 * r <
          partsMax := by omega
      have hnext := ih (i := i + 1) (by omega) hrest
      simp only [if_neg hopens, hinit, List.append_nil]
      refine ⟨?_, hnext.2⟩
      rw [List.forall_mem_append, List.forall_mem_append]
      exact ⟨⟨hent, inside_snprintf (by omega)⟩, hnext.1⟩

theorem inside_qcaSmemPartToMtdparts (h : Sound t) (hlen : t.len ≤ 32) {mtdid : List UInt8}
    (hmtdid : mtdid.length < 256) : ∀ a ∈ (t.qcaSmemPartToMtdparts b mtdid).2, a.Inside t := by
  have hroom : mtdid.length + 1 + 7 + 58 * t.len < partsMax := by
    rw [partsMax]
    omega
  have hfirst : ∀ a ∈ snprintf 0 partsMax (mtdid.length + 1), a.Inside t :=
    @inside_snprintf _ _ 0 (by omega)
  obtain ⟨hloop, hstop⟩ := @inside_mtdpartsLoop b _ 0 h t.len _ false (by omega) hroom
  rw [qcaSmemPartToMtdparts]
  dsimp only
  split
  · exact hfirst
  · rw [List.forall_mem_append, List.forall_mem_append, List.forall_mem_singleton]
    exact ⟨⟨hfirst, hloop⟩, hstop⟩

/-- `do_smeminfo` shows what there is to show about the bounds. -/
theorem sound_of_inside (h : ∀ a ∈ (t.doSmeminfo b).2, a.Inside t) : Sound t := by
  have hent : ∀ i < t.len, ∀ a ∈ nameAccesses i ((cstr (t.nameAt i)).length + 1), a.Inside t :=
    fun i hi a ha => h a (List.mem_flatMap.mpr ⟨i, List.mem_range.mpr hi, ha⟩)
  refine ⟨?_, fun i hi => ?_⟩
  · by_contra hlt
    refine absurd (hent t.entriesRead (by omega) _ List.mem_cons_self) ?_
    exact Nat.lt_irrefl t.entriesRead
  · refine length_cstr_lt_iff.mp (hent i hi (.name i (cstr (t.nameAt i)).length) ?_)
    refine List.mem_cons_of_mem _ (List.mem_map.mpr ⟨_, ?_, rfl⟩)
    exact List.mem_range.mpr (Nat.lt_succ_self _)

end Ptable

/-- The table has room for 32 entries, and 32 or 16 of them are read. -/
theorem entriesRead_of_init {readl : Shm} {old : List UInt8} {t : Ptable}
    (h : smemPtableInit readl old = some t) : t.entriesRead = 32 ∨ t.entriesRead = 16 := by
  obtain ⟨t', hentry, hmagic⟩ := Option.bind_eq_some_iff.mp h
  obtain rfl : t' = t := by
    split at hmagic
    · cases hmagic
    · exact Option.some_inj.mp hmagic
  dsimp only at hentry
  rcases hlong : smemReadAllocEntry readl smemAarmPartitionTable sizeofPtable with _ | words
  · rw [hlong] at hentry
    obtain ⟨words, -, rfl⟩ := Option.map_eq_some_iff.mp hentry
    have hentries : (sizeofPtable - sizeofPtn * ptablePartsDefault - 16) / sizeofPtn = 16 := by
      decide
    exact Or.inr hentries
  · rw [hlong] at hentry
    cases hentry
    have hentries : (sizeofPtable - 16) / sizeofPtn = 32 := by decide
    exact Or.inl hentries

/-- **The table's readers.**  Whatever shared memory holds, if the table is taken then its
readers keep to their bounds exactly if the table is sound. -/
theorem bounded_iff (b : Board) (readl : Shm) (old : List UInt8) (t : Ptable)
    (h : smemPtableInit readl old = some t) : Bounded b t ↔ Sound t := by
  constructor
  · rintro ⟨-, -, -, hinfo⟩
    exact Ptable.sound_of_inside hinfo
  · intro hsound
    have hlen : t.len ≤ 32 := by
      have hle := hsound.1
      rcases entriesRead_of_init h with heq | heq <;> omega
    exact ⟨fun _ => Ptable.inside_smemGetpart hsound.1 _,
      fun _ => Ptable.inside_getWhichFlashParam hsound _,
      fun _ hmtdid => Ptable.inside_qcaSmemPartToMtdparts hsound hlen hmtdid,
      Ptable.inside_doSmeminfo hsound⟩

/-- Shared memory with a table of the shorter kind, which says it has `n` entries. -/
def shorterTable (n : UInt32) : Shm := fun a =>
  if a = allocInfo smemAarmPartitionTable then 1
  else if a = allocInfo smemAarmPartitionTable + 4 then 0x1000
  else if a = allocInfo smemAarmPartitionTable + 8 then 464
  else if a = qcaSmemBase + 0x1000 then 0x55ee73aa
  else if a = qcaSmemBase + 0x1004 then 0xe35ebddb
  else if a = qcaSmemBase + 0x100c then n
  else 0

/-- The table that is read from it. -/
def shorterPtable (n : UInt32) : Ptable :=
  ⟨(([0x55ee73aa, 0xe35ebddb, 0, n] ++ List.replicate 112 0 : List UInt32)).flatMap leBytes ++
    List.replicate 448 0, 464⟩

theorem bounded_iff_shorter : smemPtableInit (shorterTable 2) (List.replicate 912 0) =
      some (shorterPtable 2) ∧
    (Bounded exampleBoard (shorterPtable 2) ↔ Sound (shorterPtable 2)) := by
  have hinit : smemPtableInit (shorterTable 2) (List.replicate 912 0) = some (shorterPtable 2) := by
    decide +kernel
  exact ⟨hinit, bounded_iff exampleBoard (shorterTable 2) (List.replicate 912 0) (shorterPtable 2) hinit⟩

/-- **A table of 16 entries that says it has 17.**  The seventeenth was never read. -/
theorem shorter_table_overread : smemPtableInit (shorterTable 17) (List.replicate 912 0) =
      some (shorterPtable 17) ∧ ¬ Bounded exampleBoard (shorterPtable 17) := by
  refine ⟨by decide +kernel, fun hbounded => ?_⟩
  have hsound := Ptable.sound_of_inside hbounded.2.2.2
  have hlen : (shorterPtable 17).len = 17 := by decide
  have hread : (shorterPtable 17).entriesRead = 16 := by decide
  have hle := hsound.1
  omega

end Smem
