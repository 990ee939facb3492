/-
The partition table and its readers (`smem.c`, `MIBIB` of `pack.py`).

An entry counts blocks, on the NOR or on the NAND chip; the size `0xFFFFFFFF` means
"till end of device".  Three pieces of code turn entries into bytes:

* `readParts` — the packer, in Python integers, with the chip the entry is on; it takes all
  16 bytes of a name, where the boot loader stops at the NUL;
* `psize` — `qca_smem_part_to_mtdparts` and `do_smeminfo`, in `loff_t`, where an open end
  is always the end of the chip with the environment;
* `partDetails` — `smem_getpart` counts the blocks, in 32 bits and in blocks of the boot
  flash, and `qca_set_part_entry` multiplies by the block size of the entry's own chip.
-/
import Mathlib.Algebra.Group.Int.Defs
import Mathlib.Algebra.Group.Nat.Defs
import Mathlib.Data.List.DropRight
import Mathlib.Data.List.GetD
import Mathlib.Data.List.Nodup
import Mathlib.Logic.Function.Basic
import OpenMptcpRouter.Lib.CString

namespace Smem

/-- A text, character by character. -/
abbrev Text := List Char

/-- `SMEM_PTN_NAME_MAX`. -/
def ptnNameMax : ℕ := 16

/-- The size that means "till end of device". -/
def tillEnd : ℕ := 0xFFFFFFFF

/-- `struct smem_ptn`, with a name that is NUL-terminated. -/
structure SmemPtn where
  /-- the array `name`, with what is behind the NUL -/
  nameBytes : List UInt8
  start : ℕ
  size : ℕ
  attr : ℕ
  nameBytes_length : nameBytes.length = ptnNameMax
  name_nul : 0 ∈ nameBytes
  start_lt : start < 2 ^ 32
  size_lt : size < 2 ^ 32

/-- `name` as a C string. -/
def SmemPtn.cname (p : SmemPtn) : List UInt8 := CString.cstr p.nameBytes

/-- The characters of the name, as the boot loader compares and prints them. -/
def SmemPtn.name (p : SmemPtn) : Text := p.cname.map Char.ofUInt8

theorem SmemPtn.cname_length (p : SmemPtn) : p.cname.length < ptnNameMax := by
  obtain ⟨k, hk, hzero⟩ := List.mem_iff_getElem.mp p.name_nul
  rw [cname, CString.length_cstr_lt_iff, ← p.nameBytes_length]
  exact ⟨k, hk, by rw [List.getD_eq_getElem _ _ hk, hzero]⟩

theorem SmemPtn.name_length (p : SmemPtn) : p.name.length < ptnNameMax := by
  rw [name, List.length_map]
  exact p.cname_length

/-- A name in its array of 16 bytes, padded with NULs. -/
def padded (name : String) : List UInt8 :=
  let bytes := CString.ascii name
  bytes ++ List.replicate (ptnNameMax - bytes.length) 0

/-- A flash device, as `struct mtd_info` describes it. -/
structure Mtd where
  size : ℕ
  erasesize : ℕ
  /-- `eraseregions`: offset, erase size and number of blocks of each. -/
  eraseregions : List (ℕ × ℕ × ℕ) := []
  size_lt : size < 2 ^ 64
  erasesize_pos : 0 < erasesize
  erasesize_lt : erasesize < 2 ^ 32

/-- The two chips, the boot loader's view. -/
structure Board where
  /-- `smem->flash_block_size`, of the NOR boot flash -/
  flashBlockSize : ℕ
  /-- `nand_info[nand_env_device]` -/
  nor : Mtd
  /-- `nand_info[spi_nand_available]` -/
  nand : Mtd
  /-- `gboard_param->spi_nand_available == 1` -/
  spiNand : Bool
  flashBlockSize_pos : 0 < flashBlockSize
  flashBlockSize_lt : flashBlockSize < 2 ^ 32

/-- `part_which_flash`, and the last byte of an entry in `pack.py`. -/
def partWhichFlash (p : SmemPtn) : ℕ := p.attr / 2 ^ 24 % 256

/-- A 64-bit value stored in a `loff_t`. -/
def loff (x : ℤ) : ℤ := Int.bmod x (2 ^ 64)

/-! ### The packer -/

/-- `PartInfo` of `pack.py`, without the name. -/
structure PartInfo where
  offset : ℤ
  length : ℤ
  whichFlash : ℕ
  deriving DecidableEq, Repr

/-- One round of the loop of `MIBIB.__read_parts`. -/
def readEntry (blocksize chipsize nandBlocksize nandChipsize : ℤ) (mentry : SmemPtn) : PartInfo :=
  if partWhichFlash mentry = 0 then
    let byteOffset := mentry.start * blocksize
    if mentry.size = tillEnd then ⟨byteOffset, chipsize - byteOffset, partWhichFlash mentry⟩
    else ⟨byteOffset, mentry.size * blocksize, partWhichFlash mentry⟩
  else
    let byteOffset := mentry.start * nandBlocksize
    if mentry.size = tillEnd then
      ⟨byteOffset, nandChipsize - byteOffset, partWhichFlash mentry⟩
    else ⟨byteOffset, mentry.size * nandBlocksize, partWhichFlash mentry⟩

/-- `bytes.strip(b'\x00')`. -/
def strip (bytes : List UInt8) : List UInt8 := (bytes.dropWhile (· = 0)).rdropWhile (· = 0)

/-- `bytes.decode()`; `none` is a `UnicodeDecodeError`. -/
def decode (bytes : List UInt8) : Option Text :=
  (String.fromUTF8? ⟨bytes.toArray⟩).map String.toList

/-- `MIBIB.__read_parts`: the partitions by name, unless one of the names is not UTF-8. -/
def readParts (blocksize chipsize nandBlocksize nandChipsize : ℤ) (table : List SmemPtn) :
    Option (Text → Option PartInfo) :=
  table.foldlM (fun parts mentry => do
    let partName ← decode (strip mentry.nameBytes)
    return Function.update parts partName
      (some (readEntry blocksize chipsize nandBlocksize nandChipsize mentry))) fun _ => none

/-- The packer's reader with the sizes of the board. -/
def packParts (b : Board) : List SmemPtn → Option (Text → Option PartInfo) :=
  readParts b.flashBlockSize b.nor.size b.nand.erasesize b.nand.size

/-! ### The boot loader -/

/-- `get_part_block_size`. -/
def partBlockSize (b : Board) (p : SmemPtn) : ℕ :=
  if partWhichFlash p = 1 then b.nand.erasesize else b.flashBlockSize

/-- `((loff_t)p->start) * bsize`. -/
def poffset (b : Board) (p : SmemPtn) : ℤ := loff (p.start * partBlockSize b p)

/-- `psize` of `qca_smem_part_to_mtdparts` and of `do_smeminfo`. -/
def psize (b : Board) (p : SmemPtn) : ℤ :=
  if p.size = tillEnd then loff (b.nor.size - poffset b p)
  else loff (p.size * partBlockSize b p)

/-- A row of `do_smeminfo`: number, name, attributes, start and size. -/
def smeminfoRows (b : Board) (table : List SmemPtn) : List (ℕ × Text × ℕ × ℤ × ℤ) :=
  table.mapIdx fun i p => (i, p.name, p.attr, poffset b p, psize b p)

/-- `smem_getpart`: start and size in blocks. -/
def smemGetpart (b : Board) (table : List SmemPtn) (partName : Text) : Option (ℕ × ℕ) :=
  (table.find? fun p => p.name == partName).map fun p =>
    if p.size = tillEnd then
      (p.start, (((b.nor.size / b.flashBlockSize : ℕ) : ℤ) - p.start) % 2 ^ 32 |>.toNat)
    else (p.start, p.size)

/-- `get_which_flash_param`: of the last entry with the name. -/
def whichFlashParam (table : List SmemPtn) (partName : Text) : ℕ :=
  table.foldl (fun flashVar p => if p.name = partName then partWhichFlash p else flashVar) 0

/-- `get_flash_block_size`. -/
def flashBlockSizeOf (b : Board) (table : List SmemPtn) (name : Text) : ℕ :=
  if whichFlashParam table name = 1 then b.nand.erasesize else b.flashBlockSize

/-- `qca_set_part_entry`: offset and size in bytes. -/
def setPartEntry (b : Board) (table : List SmemPtn) (name : Text) (start size : ℕ) : ℤ × ℤ :=
  (loff (start * flashBlockSizeOf b table name), loff (size * flashBlockSizeOf b table name))

/-- `smem_getpart`, then `qca_set_part_entry`, as in `qca_get_part_details`. -/
def partDetails (b : Board) (table : List SmemPtn) (name : Text) : Option (ℤ × ℤ) :=
  (smemGetpart b table name).map fun r => setPartEntry b table name r.1 r.2

/-! ### The kernel's partition list -/

/-- `%lld`. -/
def decimal (x : ℤ) : Text :=
  if x < 0 then '-' :: Nat.toDigits 10 x.natAbs else Nat.toDigits 10 x.toNat

/-- `0x%llx`. -/
def offsetText (x : ℤ) : Text := '0' :: 'x' :: Nat.toDigits 16 (x % 2 ^ 64).toNat

/-- A size in the largest unit that is smaller than it and divides it. -/
def sizeText (psize : ℤ) : Text :=
  if psize > 2 ^ 20 ∧ psize % 2 ^ 20 = 0 then decimal (psize / 2 ^ 20) ++ ['M', '@']
  else if psize > 2 ^ 10 ∧ psize % 2 ^ 10 = 0 then decimal (psize / 2 ^ 10) ++ ['K', '@']
  else decimal psize ++ ['@']

/-- `"%lld%s0x%llx(%s),"`. -/
def partText (b : Board) (p : SmemPtn) : Text :=
  sizeText (psize b p) ++ offsetText (poffset b p) ++ '(' :: p.name ++ [')', ',']

/-- `sizeof(parts)`. -/
def partsMax : ℕ := 4096

/-- `nand%d`, the id of the NAND chip. -/
def nandName (b : Board) : Text := if b.spiNand then "nand1".toList else "nand0".toList

/-- The loop of `qca_smem_part_to_mtdparts`: it goes on while there is room in `parts`. -/
def partsLoop (b : Board) (parts : Text) (init : Bool) : List SmemPtn → Text
  | [] => parts
  | p :: table =>
    if partsMax ≤ parts.length then parts
    else if partWhichFlash p ≠ 0 ∧ init = false then
      partsLoop b (parts ++ ';' :: nandName b ++ ':' :: partText b p) true table
    else partsLoop b (parts ++ partText b p) init table

/-- `qca_smem_part_to_mtdparts`; what does not fit is cut off. -/
def smemPartToMtdparts (b : Board) (table : List SmemPtn) (mtdid : Text) : Option Text :=
  if table = [] then none
  else some ((partsLoop b (mtdid ++ [':']) false table).take (partsMax - 1))

end Smem
