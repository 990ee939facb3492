/-
Do the readers of the partition table agree?

`Agree b table p` says that the packer, the two listings of the boot loader and its
lookup by name all give entry `p` the same bytes.  Names are looked up in three different
ways (a dictionary, the first match, the last match): for distinct names that the packer
reads as the boot loader does these find the entry itself, and what is left is arithmetic.

* `agree_iff` — **they agree on a table exactly when every entry is `Plain`**: its name is
  read by both, its numbers fit in a `loff_t`, and an open end is the end of a chip that has
  the size and the number of blocks of the boot flash.  The boot loader takes that chip for
  any other, the packer asks on which chip the entry is.
-/
import Mathlib.Data.Nat.Prime.Basic
import Mathlib.Algebra.Order.Ring.Int
import Mathlib.Tactic.Linarith
import Mathlib.Tactic.Positivity
import Mathlib.Tactic.Ring
import OpenMptcpRouter.Smem.Names

namespace Smem

/-- The chip an entry is on. -/
def chipOf (b : Board) (p : SmemPtn) : Mtd := if partWhichFlash p = 1 then b.nand else b.nor

/-- Offset and size in bytes, by every reader under the name of the entry. -/
def Agree (b : Board) (table : List SmemPtn) (p : SmemPtn) : Prop :=
  ∃ info, packed b table p = some info ∧
    (∃ i, (i, p.name, p.attr, info.offset, info.length) ∈ smeminfoRows b table) ∧
    info.offset = poffset b p ∧ info.length = psize b p ∧
    partDetails b table p.name = some (info.offset, info.length)

/-- An open end the boot loader sees where the packer does. -/
structure OpenPlain (b : Board) (p : SmemPtn) : Prop where
  /-- the chip is as large as the boot flash -/
  chip_size : (chipOf b p).size = b.nor.size
  /-- and has as many blocks, as far as 32 bits tell -/
  blocks : (chipOf b p).size / partBlockSize b p % 2 ^ 32 =
    b.nor.size / b.flashBlockSize % 2 ^ 32
  /-- the entry begins on it -/
  start_le : p.start ≤ (chipOf b p).size / partBlockSize b p
  /-- and what is left is counted in 32 bits -/
  left_lt : (chipOf b p).size / partBlockSize b p - p.start < 2 ^ 32
  left_bytes_lt : (chipOf b p).size - p.start * partBlockSize b p < 2 ^ 63

/-- An entry all readers take the same way. -/
structure Plain (b : Board) (p : SmemPtn) : Prop extends NameRead p where
  offset_lt : p.start * partBlockSize b p < 2 ^ 63
  size_lt : p.size ≠ tillEnd → p.size * partBlockSize b p < 2 ^ 63
  openEnd : p.size = tillEnd → OpenPlain b p

section Loff

theorem loff_eq_self_iff {x : ℤ} : loff x = x ↔ -2 ^ 63 ≤ x ∧ x < 2 ^ 63 := by
  rw [loff, Int.bmod_eq_emod]
  norm_num
  split <;> omega

theorem loff_eq_iff {x y : ℤ} (hx : -2 ^ 63 ≤ x ∧ x < 2 ^ 63) :
    x = loff y ↔ (2 ^ 64 : ℤ) ∣ y - x := by
  rw [loff, Int.bmod_eq_emod]
  norm_num
  split <;> omega

theorem loff_sub_loff (x y : ℤ) : loff (x - loff y) = loff (x - y) := Int.sub_bmod_bmod ..

/-- Counts of blocks are equal when their bytes are, unless they are far apart. -/
theorem dvd_mul_block_iff {d bs : ℤ} (hpos : 0 < bs) (hbs : bs < 2 ^ 32) (hd : d < 2 ^ 33)
    (hlow : -2 ^ 64 < d * bs) (hhigh : d * bs < 2 ^ 65) : (2 ^ 64 : ℤ) ∣ d * bs ↔ d = 0 := by
  constructor
  · rintro ⟨c, hc⟩
    have hc0 : c = 0 ∨ c = 1 := by omega
    rcases hc0 with rfl | rfl
    · rcases mul_eq_zero.mp (hc.trans (mul_zero _)) with h | h
      · exact h
      · omega
    · -- a block size that divides `2 ^ 64` is a power of two, at most `2 ^ 31`
      exfalso
      have hdvd : bs.toNat ∣ 2 ^ 64 := by
        refine Int.natCast_dvd_natCast.mp ⟨d, ?_⟩
        rw [Int.toNat_of_nonneg hpos.le, mul_comm, hc]
        norm_num
      obtain ⟨t, -, ht⟩ := (Nat.dvd_prime_pow Nat.prime_two).mp hdvd
      have hbst : bs = 2 ^ t := by
        rw [← Int.toNat_of_nonneg hpos.le, ht]
        norm_num
      have ht31 : t ≤ 31 := by
        by_contra hlt
        have : (2 : ℤ) ^ 32 ≤ 2 ^ t := pow_le_pow_right₀ (by norm_num) (by omega)
        omega
      have hle : bs ≤ 2 ^ 31 := by
        rw [hbst]
        exact pow_le_pow_right₀ (by norm_num) ht31
      nlinarith
  · rintro rfl
    simp

end Loff

section Lookup

variable {b : Board} {table : List SmemPtn} {p : SmemPtn}

theorem foldl_last_of_not_mem {name : Text} (ps : List SmemPtn) (v : ℕ)
    (h : name ∉ ps.map SmemPtn.name) :
    ps.foldl (fun v q => if q.name = name then partWhichFlash q else v) v = v := by
  induction ps generalizing v with
  | nil => rfl
  | cons q ps ih =>
    rw [List.map_cons, List.mem_cons, not_or] at h
    rw [List.foldl_cons, ih _ h.2, if_neg (Ne.symm h.1)]

/-- Each way to look the name up finds the entry. -/
theorem find?_name (hnodup : (table.map SmemPtn.name).Nodup) (hp : p ∈ table) :
    (table.find? fun q => q.name == p.name) = some p := by
  obtain ⟨pre, post, rfl, hpre, -⟩ := split_at hnodup hp
  have hnone : (pre.find? fun q => q.name == p.name) = none := by
    rw [List.find?_eq_none]
    intro q hq heq
    exact hpre (beq_iff_eq.mp heq ▸ List.mem_map_of_mem hq)
  rw [List.find?_append, hnone, Option.none_or, List.find?_cons, beq_self_eq_true]

theorem whichFlashParam_name (hnodup : (table.map SmemPtn.name).Nodup) (hp : p ∈ table) :
    whichFlashParam table p.name = partWhichFlash p := by
  obtain ⟨pre, post, rfl, -, hpost⟩ := split_at hnodup hp
  rw [whichFlashParam, List.foldl_append, List.foldl_cons, foldl_last_of_not_mem post _ hpost,
    if_pos rfl]

theorem mem_smeminfoRows (hp : p ∈ table) :
    ∃ i, (i, p.name, p.attr, poffset b p, psize b p) ∈ smeminfoRows b table := by
  obtain ⟨i, hi, rfl⟩ := List.mem_iff_getElem.mp hp
  exact ⟨i, List.mem_iff_getElem.mpr ⟨i, by simpa [smeminfoRows] using hi, by simp [smeminfoRows]⟩⟩

/-- The number of blocks `smem_getpart` finds for an entry. -/
def blocksOf (b : Board) (p : SmemPtn) : ℤ :=
  if p.size = tillEnd then (((b.nor.size / b.flashBlockSize : ℕ) : ℤ) - p.start) % 2 ^ 32
  else p.size

theorem partDetails_name (hnodup : (table.map SmemPtn.name).Nodup) (hp : p ∈ table) :
    partDetails b table p.name =
      some (poffset b p, loff (blocksOf b p * partBlockSize b p)) := by
  rw [partDetails, smemGetpart, find?_name hnodup hp, Option.map_some, Option.map_some,
    setPartEntry, flashBlockSizeOf, whichFlashParam_name hnodup hp, poffset, partBlockSize, blocksOf]
  have hnonneg : 0 ≤ (((b.nor.size / b.flashBlockSize : ℕ) : ℤ) - p.start) % 2 ^ 32 :=
    Int.emod_nonneg _ (by norm_num)
  by_cases h : p.size = tillEnd
  · simp only [h, if_true, Int.toNat_of_nonneg hnonneg]
  · simp only [h, if_false]

end Lookup

section Entry

variable {b : Board} {p : SmemPtn}

/-- The bytes the packer gives an entry. -/
theorem readEntry_eq (hflash : partWhichFlash p = 0 ∨ partWhichFlash p = 1) :
    (readEntry b.flashBlockSize b.nor.size b.nand.erasesize b.nand.size p).offset =
        p.start * partBlockSize b p ∧
      (readEntry b.flashBlockSize b.nor.size b.nand.erasesize b.nand.size p).length =
        if p.size = tillEnd then (chipOf b p).size - (p.start : ℤ) * partBlockSize b p
        else p.size * partBlockSize b p := by
  rcases hflash with h | h
  · simp only [readEntry, partBlockSize, chipOf, h, if_true, zero_ne_one, if_false]
    split <;> exact ⟨rfl, rfl⟩
  · simp only [readEntry, partBlockSize, chipOf, h, if_true, one_ne_zero, if_false]
    split <;> exact ⟨rfl, rfl⟩

theorem partBlockSize_pos (b : Board) (p : SmemPtn) : 0 < partBlockSize b p := by
  rw [partBlockSize]
  split
  · exact b.nand.erasesize_pos
  · exact b.flashBlockSize_pos

theorem partBlockSize_lt (b : Board) (p : SmemPtn) : partBlockSize b p < 2 ^ 32 := by
  rw [partBlockSize]
  split
  · exact b.nand.erasesize_lt
  · exact b.flashBlockSize_lt

theorem loff_range (x : ℤ) : -2 ^ 63 ≤ loff x ∧ loff x < 2 ^ 63 := by
  rw [loff, Int.bmod_eq_emod]
  norm_num
  split <;> omega

/-- A count of bytes that is not negative is its `loff_t` iff it is below `2 ^ 63`. -/
theorem loff_natCast_eq_iff {a b : ℕ} : (a : ℤ) * b = loff (a * b) ↔ a * b < 2 ^ 63 := by
  rw [eq_comm, loff_eq_self_iff]
  have : (0 : ℤ) ≤ a * b := by positivity
  norm_cast
  omega

/-- The blocks left on the chip behind the start of the entry, by both counts. -/
theorem blocksOf_eq_iff {j : ℕ} (hopen : p.size = tillEnd) :
    blocksOf b p = j - p.start ↔
      p.start ≤ j ∧ j - p.start < 2 ^ 32 ∧ j % 2 ^ 32 = b.nor.size / b.flashBlockSize % 2 ^ 32 := by
  rw [blocksOf, if_pos hopen]
  generalize b.nor.size / b.flashBlockSize = k
  omega

/-- The sizes of an open-ended entry. -/
theorem open_sizes_iff (hdvd : partBlockSize b p ∣ (chipOf b p).size)
    (hopen : p.size = tillEnd) (hoffset : p.start * partBlockSize b p < 2 ^ 63) :
    ((chipOf b p).size - (p.start : ℤ) * partBlockSize b p = psize b p ∧
      (chipOf b p).size - (p.start : ℤ) * partBlockSize b p =
        loff (blocksOf b p * partBlockSize b p)) ↔ OpenPlain b p := by
  have hpsize : psize b p = loff (b.nor.size - p.start * partBlockSize b p) := by
    rw [psize, if_pos hopen, poffset, loff_sub_loff]
  have hblocks : 0 ≤ blocksOf b p ∧ blocksOf b p < 2 ^ 32 := by
    rw [blocksOf, if_pos hopen]
    omega
  have hpos := partBlockSize_pos b p
  have hlt := partBlockSize_lt b p
  have hnor := b.nor.size_lt
  have hchip := (chipOf b p).size_lt
  have hstart := p.start_lt
  obtain ⟨j, hj⟩ := hdvd
  have hdiv : (chipOf b p).size / partBlockSize b p = j := by rw [hj, Nat.mul_div_cancel_left _ hpos]
  -- the difference of the two counts, in bytes
  have hdiff : blocksOf b p * partBlockSize b p -
      ((chipOf b p).size - (p.start : ℤ) * partBlockSize b p) =
        (blocksOf b p - (j - p.start)) * partBlockSize b p := by
    rw [hj]
    push_cast
    ring
  have hbytes : 0 ≤ blocksOf b p * partBlockSize b p ∧
      blocksOf b p * partBlockSize b p < 2 ^ 64 := by
    constructor
    · exact mul_nonneg hblocks.1 (by omega)
    · calc blocksOf b p * partBlockSize b p ≤ (2 ^ 32 - 1) * (2 ^ 32 - 1) :=
            mul_le_mul (by omega) (by omega) (by omega) (by norm_num)
        _ < 2 ^ 64 := by norm_num
  have hX : (0 : ℤ) ≤ p.start * partBlockSize b p := by positivity
  have hX' : (p.start : ℤ) * partBlockSize b p < 2 ^ 63 := by exact_mod_cast hoffset
  rw [hpsize]
  constructor
  · rintro ⟨h1, h2⟩
    have hrange := loff_range ((b.nor.size : ℤ) - p.start * partBlockSize b p)
    rw [← h1] at hrange
    have hsize := (loff_eq_iff hrange).mp h1
    have hcount := (loff_eq_iff hrange).mp h2
    rw [hdiff, dvd_mul_block_iff (by omega) (by omega) (by omega) (by omega) (by omega)] at hcount
    obtain ⟨hle, hleft, hmod⟩ := (blocksOf_eq_iff hopen).mp (by omega : blocksOf b p = j - p.start)
    exact ⟨by omega, by rw [hdiv]; exact hmod, by rwa [hdiv], by rwa [hdiv], by omega⟩
  · rintro ⟨hsize, hmod, hle, hleft, hbytes'⟩
    rw [hdiv] at hmod hle hleft
    have hcount := (blocksOf_eq_iff hopen).mpr ⟨hle, hleft, hmod⟩
    have hrange : -2 ^ 63 ≤ ((chipOf b p).size - (p.start : ℤ) * partBlockSize b p) ∧
        ((chipOf b p).size - (p.start : ℤ) * partBlockSize b p) < 2 ^ 63 := by
      push_cast at *
      omega
    refine ⟨(loff_eq_iff hrange).mpr ?_, (loff_eq_iff hrange).mpr ?_⟩
    · rw [hsize]
      simp
    · rw [hdiff, hcount]
      simp

end Entry

section Table

variable {b : Board} {table : List SmemPtn} {p : SmemPtn}

/-- The readers agree on an entry iff its start and both its sizes are the same to all. -/
theorem agree_entry_eq (hnodup : (table.map SmemPtn.name).Nodup)
    (hread : ∀ q ∈ table, NameRead q) (hp : p ∈ table)
    (hflash : partWhichFlash p = 0 ∨ partWhichFlash p = 1) :
    Agree b table p ↔
      (p.start : ℤ) * partBlockSize b p = poffset b p ∧
        (readEntry b.flashBlockSize b.nor.size b.nand.erasesize b.nand.size p).length = psize b p ∧
        (readEntry b.flashBlockSize b.nor.size b.nand.erasesize b.nand.size p).length =
          loff (blocksOf b p * partBlockSize b p) := by
  simp only [Agree, packed_eq hnodup hread hp, partDetails_name hnodup hp, Option.some.injEq,
    Prod.mk.injEq, exists_eq_left', (readEntry_eq (b := b) hflash).1]
  constructor
  · rintro ⟨-, h1, h2, -, h3⟩
    exact ⟨h1, h2, h3.symm⟩
  · rintro ⟨h1, h2, h3⟩
    refine ⟨?_, h1, h2, h1.symm, h3.symm⟩
    rw [h1, h2]
    exact mem_smeminfoRows hp

/-- `agree_iff` for one entry. -/
theorem agree_entry_iff (hnor : b.flashBlockSize ∣ b.nor.size)
    (hnand : b.nand.erasesize ∣ b.nand.size) (hnodup : (table.map SmemPtn.name).Nodup)
    (hread : ∀ q ∈ table, NameRead q) (hp : p ∈ table)
    (hflash : partWhichFlash p = 0 ∨ partWhichFlash p = 1) :
    Agree b table p ↔ Plain b p := by
  have hdvd : partBlockSize b p ∣ (chipOf b p).size := by
    rcases hflash with h | h <;> simp only [partBlockSize, chipOf, h, zero_ne_one, if_true, if_false]
    · exact hnor
    · exact hnand
  have hoffset : (p.start : ℤ) * partBlockSize b p = poffset b p ↔
      p.start * partBlockSize b p < 2 ^ 63 := by
    rw [poffset]
    exact loff_natCast_eq_iff
  rw [agree_entry_eq hnodup hread hp hflash, hoffset, (readEntry_eq (b := b) hflash).2]
  by_cases hopen : p.size = tillEnd
  · rw [if_pos hopen]
    constructor
    · rintro ⟨h1, h2⟩
      exact ⟨hread p hp, h1, fun h => absurd hopen h,
        fun _ => (open_sizes_iff hdvd hopen h1).mp h2⟩
    · rintro ⟨-, h1, -, h2⟩
      exact ⟨h1, (open_sizes_iff hdvd hopen h1).mpr (h2 hopen)⟩
  · -- a size in blocks is the same product to both readers
    have hsize : (p.size : ℤ) * partBlockSize b p = psize b p ↔
        p.size * partBlockSize b p < 2 ^ 63 := by
      rw [psize, if_neg hopen]
      exact loff_natCast_eq_iff
    have hblocks : loff (blocksOf b p * partBlockSize b p) = psize b p := by
      rw [blocksOf, psize, if_neg hopen, if_neg hopen]
    rw [if_neg hopen, hblocks, and_self, hsize]
    exact ⟨fun ⟨h1, h2⟩ => ⟨hread p hp, h1, fun _ => h2, fun h => absurd h hopen⟩,
      fun h => ⟨h.offset_lt, h.size_lt hopen⟩⟩

/-- **The readers agree exactly on plain entries.** -/
theorem agree_iff (hnor : b.flashBlockSize ∣ b.nor.size) (hnand : b.nand.erasesize ∣ b.nand.size)
    (hnodup : (table.map SmemPtn.name).Nodup)
    (hflash : ∀ p ∈ table, partWhichFlash p = 0 ∨ partWhichFlash p = 1) :
    (∀ p ∈ table, Agree b table p) ↔ ∀ p ∈ table, Plain b p := by
  constructor
  · intro hagree p hp
    -- what agrees is found, so that the names are read
    have hread : ∀ q ∈ table, NameRead q := nameRead_of_packed hnodup fun q hq => by
      obtain ⟨info, hinfo, -⟩ := hagree q hq
      rw [hinfo]
      exact Option.some_ne_none info
    exact (agree_entry_iff hnor hnand hnodup hread hp (hflash p hp)).mp (hagree p hp)
  · intro hplain p hp
    have hread : ∀ q ∈ table, NameRead q := fun q hq => (hplain q hq).toNameRead
    exact (agree_entry_iff hnor hnand hnodup hread hp (hflash p hp)).mpr (hplain p hp)

end Table

/-- A NOR chip of 32 MiB in blocks of 64 KiB, a NAND chip of 128 MiB in blocks of 128 KiB. -/
def exampleBoard : Board where
  flashBlockSize := 0x10000
  nor := { size := 0x2000000, erasesize := 0x10000, size_lt := by decide,
           erasesize_pos := by decide, erasesize_lt := by decide }
  nand := { size := 0x8000000, erasesize := 0x20000, size_lt := by decide,
            erasesize_pos := by decide, erasesize_lt := by decide }
  spiNand := true
  flashBlockSize_pos := by decide
  flashBlockSize_lt := by decide

/-- `rootfs`, from block 0 of the NAND chip till its end. -/
def rootfsEntry : SmemPtn where
  nameBytes := padded "rootfs"
  start := 0
  size := tillEnd
  attr := 0x01000000
  nameBytes_length := by decide
  name_nul := by decide
  start_lt := by decide
  size_lt := by decide

/-- `0:ART`, a block on the NOR chip. -/
def artEntry : SmemPtn where
  nameBytes := padded "0:ART"
  start := 0x17
  size := 1
  attr := 0
  nameBytes_length := by decide
  name_nul := by decide
  start_lt := by decide
  size_lt := by decide

theorem agree_iff_art :
    (∀ p ∈ [artEntry], Agree exampleBoard [artEntry] p) ↔ ∀ p ∈ [artEntry], Plain exampleBoard p :=
  agree_iff (by decide) (by decide) (by decide) (by decide)

theorem nameRead_rootfs : NameRead rootfsEntry :=
  ⟨.intro "rootfs".toList rfl, by decide +kernel⟩

/-- Of an open-ended NAND partition the packer sees 128 MiB, the listings 32 MiB and the
lookup 64 MiB. -/
theorem rootfs_disagree :
    (packed exampleBoard [rootfsEntry] rootfsEntry).map PartInfo.length = some 0x8000000 ∧
      psize exampleBoard rootfsEntry = 0x2000000 ∧
      partDetails exampleBoard [rootfsEntry] rootfsEntry.name = some (0, 0x4000000) ∧
      ¬ Agree exampleBoard [rootfsEntry] rootfsEntry := by
  have hpack : packed exampleBoard [rootfsEntry] rootfsEntry = some ⟨0, 0x8000000, 1⟩ := by
    rw [packed_eq (by decide) (List.forall_mem_singleton.mpr nameRead_rootfs)
      List.mem_cons_self]
    decide
  have hpsize : psize exampleBoard rootfsEntry = 0x2000000 := by decide
  refine ⟨by rw [hpack]; rfl, hpsize, by decide, ?_⟩
  rintro ⟨info, hinfo, -, -, hlen, -⟩
  obtain rfl := Option.some.inj (hpack.symm.trans hinfo)
  exact absurd (hlen.trans hpsize) (by decide)

end Smem
