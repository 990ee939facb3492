/-
Crashdump data written to NAND and eMMC through a buffer.

NAND is written in pages and eMMC in blocks, but what is to be written comes in pieces
of any size.  The writers keep the end of the data that does not fill a page in
`temp_data`: a call completes that page, writes the whole pages of the rest straight
from its argument, and keeps what is left; the deinit function pads the last page.

* `fed_writeData` — the step: what is buffered and what was written are those of the
  concatenation of all pieces so far;
* `writers_eq_plain_write` — for both writers, every write size and all pieces, the
  device holds the concatenation padded with `0xFF`, each page written once.
-/
import Mathlib.Data.Int.Order.Basic
import Mathlib.Data.List.Nodup
import Mathlib.Data.Nat.ModEq
import OpenMptcpRouter.Lib.Blocks

namespace Crashdump

open Blocks Regions

/-- Value of an `unsigned int`. -/
def u32 (x : ℤ) : ℕ := (x % 2 ^ 32).toNat

/-- What the writers for the two flash memories differ in: the size of `temp_data`, how far
`cur_crashdump_offset` moves for one page of `write_size` bytes, and the number of offsets
the driver tells apart. -/
structure Flash where
  size : ℕ
  unit : ℕ → ℕ
  addrs : ℕ

/-- `MAX_NAND_PAGE_SIZE`; `nand_write` takes the offset in bytes, a `loff_t`. -/
def nand : Flash := ⟨2048, fun writeSize => writeSize, 2 ^ 64⟩

/-- `MAX_EMMC_BLK_LEN`; `block_write` takes the number of a block, a `ulong`. -/
def emmc : Flash := ⟨1024, fun _ => 1, 2 ^ 32⟩

/-- Why a writer stops: an access outside an array, a device that refuses a write, or a
page that does not fit in `temp_data`. -/
inductive Fault
  | outOfBounds
  | refused
  | noMemory
  deriving DecidableEq, Repr

/-- The writes to a device, each with its offset. -/
abbrev Log := List (ℕ × List UInt8)

/-- `struct crashdump_flash_nand_cxt` and `struct crashdump_flash_emmc_cxt`, and the writes
the device has taken. -/
structure Cxt where
  startCrashdumpOffset : ℕ
  curCrashdumpOffset : ℕ
  curDataLen : ℕ
  writeSize : ℕ
  tempData : ℕ → UInt8
  log : Log

/-- `memcpy` to `temp_data + off`. -/
def toTemp (f : Flash) (temp : ℕ → UInt8) (off : ℕ) (xs : List UInt8) :
    Except Fault (ℕ → UInt8) :=
  if off + xs.length ≤ f.size then .ok (put temp off xs) else .error .outOfBounds

/-- The first `n` bytes of `temp_data`. -/
def fromTemp (f : Flash) (temp : ℕ → UInt8) (n : ℕ) : Except Fault (List UInt8) :=
  if n ≤ f.size then .ok (window temp 0 n) else .error .outOfBounds

/-- `n` bytes of `data` from byte `pos` on. -/
def bytesAt (data : List UInt8) (pos n : ℕ) : Except Fault (List UInt8) :=
  if pos + n ≤ data.length then .ok ((data.drop pos).take n) else .error .outOfBounds

variable (f : Flash) (accepts : Log → Bool)

/-- A write at the current offset, which then moves on by `pages` pages. -/
def deviceWrite (c : Cxt) (data : List UInt8) (pages : ℕ) : Except Fault Cxt :=
  let log := c.log ++ [(c.curCrashdumpOffset % f.addrs, data)]
  if accepts log then
    .ok { c with log := log
                 curCrashdumpOffset := c.curCrashdumpOffset + pages * f.unit c.writeSize }
  else .error .refused

/-- The two init functions: the context, with what is left in `temp_data` from before. -/
def initWrite (ready : Bool) (temp : ℕ → UInt8) (writeSize offset : ℕ) : Except Fault Cxt :=
  if writeSize > f.size then .error .noMemory
  else if ready then .ok ⟨offset, offset, 0, writeSize, temp, []⟩
  else .error .refused

/-- The page in `temp_data` is completed with `n` bytes and written. -/
def completePage (c : Cxt) (data : List UInt8) (n : ℕ) : Except Fault Cxt := do
  let head ← bytesAt data 0 n
  let temp ← toTemp f c.tempData c.curDataLen head
  let page ← fromTemp f temp c.writeSize
  deviceWrite f accepts { c with tempData := temp } page 1

/-- Whole pages are written from where they stand in the data. -/
def writePages (c : Cxt) (data : List UInt8) (pos len pages : ℕ) : Except Fault Cxt :=
  if len > 0 then do
    let whole ← bytesAt data pos len
    deviceWrite f accepts c whole pages
  else .ok c

/-- The end of the data is kept in `temp_data`. -/
def keepRest (c : Cxt) (data : List UInt8) (pos : ℕ) : Except Fault Cxt := do
  let remainingBytes := u32 (data.length - pos)
  let tail ← bytesAt data pos remainingBytes
  let temp ← toTemp f c.tempData 0 tail
  return { c with tempData := temp, curDataLen := remainingBytes }

/-- The two write functions. -/
def writeData (c : Cxt) (data : List UInt8) : Except Fault Cxt := do
  let size := data.length
  let totalBytes := u32 (c.curDataLen + size)
  if totalBytes < c.writeSize then
    let temp ← toTemp f c.tempData c.curDataLen data
    return { c with tempData := temp, curDataLen := c.curDataLen + size }
  else
    let remainingLenCurPage := u32 (c.writeSize - c.curDataLen)
    let c ← completePage f accepts c data remainingLenCurPage
    let pages := ((size : ℤ) - remainingLenCurPage).tdiv c.writeSize
    let curWriteLen := u32 (pages * c.writeSize)
    let c ← writePages f accepts c data remainingLenCurPage curWriteLen pages.toNat
    keepRest f c data (remainingLenCurPage + curWriteLen)

/-- The two deinit functions. -/
def deinitWrite (c : Cxt) : Except Fault Cxt := do
  let remainingBytes := u32 (c.writeSize - c.curDataLen)
  if c.curDataLen ≠ 0 then
    let temp ← toTemp f c.tempData c.curDataLen (List.replicate remainingBytes 0xFF)
    let page ← fromTemp f temp c.writeSize
    deviceWrite f accepts { c with tempData := temp } page 0
  else
    return c

/-- `init_crashdump_nand_flash_write`, with whether the sectors could be erased. -/
def initCrashdumpNandFlashWrite (erased : Bool) := initWrite nand erased

/-- `crashdump_nand_flash_write_data`. -/
def crashdumpNandFlashWriteData := writeData nand

/-- `deinit_crashdump_nand_flash_write`. -/
def deinitCrashdumpNandFlashWrite := deinitWrite nand

/-- `init_crashdump_emmc_flash_write`. -/
def initCrashdumpEmmcFlashWrite := initWrite emmc true

/-- `crashdump_emmc_flash_write_data`. -/
def crashdumpEmmcFlashWriteData := writeData emmc

/-- `deinit_crashdump_emmc_flash_write`. -/
def deinitCrashdumpEmmcFlashWrite := deinitWrite emmc

/-! ### What the writers keep -/

/-- Where page `k` goes. -/
def place (w offset k : ℕ) : ℕ := (offset + k * f.unit w) % f.addrs

/-- The pages written to the device, each with its offset. -/
def written (w : ℕ) (log : Log) : List (ℕ × List UInt8) :=
  log.flatMap fun p => placed (place f w p.1) 0 (whole w p.2)

/-- The pages `bs` were written, one behind the other. -/
structure Flushed (w offset : ℕ) (bs : List (List UInt8)) (c : Cxt) : Prop where
  writeSize : c.writeSize = w
  cursor : c.curCrashdumpOffset = offset + bs.length * f.unit w
  written : written f w c.log = placed (place f w offset) 0 bs
  aligned : ∀ p ∈ c.log, p.2.length % w = 0

/-- The context after the bytes `xs`: their complete pages were written, and the rest is in
`temp_data`. -/
structure Fed (w offset : ℕ) (xs : List UInt8) (c : Cxt) : Prop extends
    Flushed f w offset (whole w xs) c where
  length : c.curDataLen = xs.length % w
  temp : window c.tempData 0 (xs.length % w) = rest w xs

variable {f accepts} {w offset : ℕ} {bs : List (List UInt8)} {xs data : List UInt8} {c : Cxt}

theorem u32_add {a b : ℕ} (h : a + b < 2 ^ 32) : u32 (a + b) = a + b := by
  rw [u32]
  omega

theorem u32_sub {a b : ℕ} (h : b ≤ a) (ha : a < 2 ^ 32) : u32 (a - b) = a - b := by
  rw [u32]
  omega

theorem toTemp_eq {temp : ℕ → UInt8} {off : ℕ} (h : off + xs.length ≤ f.size) :
    toTemp f temp off xs = .ok (put temp off xs) := if_pos h

theorem fromTemp_eq {temp : ℕ → UInt8} {n : ℕ} (h : n ≤ f.size) :
    fromTemp f temp n = .ok (window temp 0 n) := if_pos h

theorem bytesAt_eq {pos n : ℕ} (h : pos + n ≤ data.length) :
    bytesAt data pos n = .ok ((data.drop pos).take n) := if_pos h

theorem ok_bind {α β : Type} (a : α) (g : α → Except Fault β) : (Except.ok a >>= g) = g a := rfl

/-- Pages written from a page of the stream on take the places of that page and the next. -/
theorem placed_from (n : ℕ) (bs : List (List UInt8)) :
    placed (place f w ((offset + n * f.unit w) % f.addrs)) 0 bs =
      placed (place f w offset) n bs := by
  refine placed_congr fun i => ?_
  rw [place, place, Nat.zero_add, Nat.mod_add_mod, Nat.add_assoc, ← Nat.add_mul]

/-- A write of complete pages. -/
theorem Flushed.deviceWrite (h : Flushed f w offset bs c) (haccepts : ∀ log, accepts log = true)
    {pages : ℕ} (hpages : (whole w data).length = pages) (hmod : data.length % w = 0) :
    ∃ c', Crashdump.deviceWrite f accepts c data pages = .ok c' ∧
      Flushed f w offset (bs ++ whole w data) c' ∧ c'.tempData = c.tempData ∧
      c'.curDataLen = c.curDataLen := by
  refine ⟨_, if_pos (haccepts _), ⟨h.writeSize, ?_, ?_, ?_⟩, rfl, rfl⟩
  · rw [h.cursor, h.writeSize, List.length_append, hpages, Nat.add_mul, Nat.add_assoc]
  · have hlog := h.written
    rw [Crashdump.written] at hlog ⊢
    rw [List.flatMap_append, hlog, List.flatMap_singleton, h.cursor, placed_from, placed_append,
      Nat.zero_add]
  · intro p hp
    rcases List.mem_append.mp hp with hp | hp
    · exact h.aligned p hp
    · rwa [List.mem_singleton.mp hp]

/-- Data that does not fill the page is added to it. -/
theorem Fed.writeData_short (h : Fed f w offset xs c) (hsize : w ≤ f.size) (hf : f.size < 2 ^ 31)
    (hlt : xs.length % w + data.length < w) :
    ∃ c', Crashdump.writeData f accepts c data = .ok c' ∧ Fed f w offset (xs ++ data) c' := by
  have hw : 0 < w := by omega
  have hbytes : (rest w xs ++ data).length < w := by rwa [List.length_append, length_rest]
  have hwhole : whole w (xs ++ data) = whole w xs := by
    rw [whole_append hw, whole_of_lt hbytes, List.append_nil]
  have hmod : (xs ++ data).length % w = xs.length % w + data.length := by
    rw [List.length_append, ← Nat.mod_add_mod, Nat.mod_eq_of_lt hlt]
  rw [Crashdump.writeData]
  dsimp only
  rw [h.length, h.writeSize, u32_add (by omega), if_pos hlt, toTemp_eq (by omega), ok_bind]
  refine ⟨_, rfl, ⟨rfl, ?_, ?_, h.aligned⟩, hmod.symm, ?_⟩
  · rw [hwhole]
    exact h.cursor
  · rw [hwhole]
    exact h.written
  · have hput := window_put_append c.tempData 0 (xs.length % w) data
    rw [Nat.zero_add] at hput
    rw [hmod, hput, h.temp, rest_append hw, rest_of_lt hbytes]

/-- The page at the end of the data so far, completed from the front of `data`. -/
theorem whole_completed (hw : 0 < w) (hle : w ≤ xs.length % w + data.length) :
    let head := data.take (w - xs.length % w)
    let later := data.drop (w - xs.length % w)
    (rest w xs ++ head).length = w ∧
      whole w (xs ++ data) = whole w xs ++ [rest w xs ++ head] ++ whole w later ∧
      rest w (xs ++ data) = rest w later := by
  intro head later
  have hlt := length_rest_lt hw xs
  rw [← length_rest (w := w) xs] at hle
  have hhead : head = data.take (w - (rest w xs).length) := by rw [length_rest]
  have hlen : (rest w xs ++ head).length = w := by
    rw [List.length_append, hhead, List.length_take]
    omega
  have hnone : rest w (rest w xs ++ head) = [] :=
    rest_of_mod_eq_zero (by rw [hlen, Nat.mod_self])
  have hsplit : rest w xs ++ data = (rest w xs ++ head) ++ later := by
    rw [List.append_assoc, List.take_append_drop]
  refine ⟨hlen, ?_, ?_⟩
  · rw [whole_append hw, hsplit, whole_append hw, hnone, List.nil_append,
      whole_of_length_eq hw hlen, List.append_assoc]
  · rw [rest_append hw, hsplit, rest_append hw, hnone, List.nil_append]

/-- The number of whole pages, as the source computes it on `int`. -/
theorem pages_eq {n pos : ℕ} (hpos : pos ≤ n) :
    ((n : ℤ) - pos).tdiv w = ((n - pos) / w : ℕ) := by
  rw [← Int.ofNat_sub hpos]
  exact (Int.ofNat_tdiv ..).symm

theorem pages_mul_eq {n pos : ℕ} (hn : n < 2 ^ 31) :
    u32 (((n - pos) / w : ℕ) * w) = (n - pos) / w * w := by
  have hle : (n - pos) / w * w ≤ n - pos := Nat.div_mul_le_self ..
  rw [u32, ← Int.natCast_mul]
  omega

theorem Fed.completePage (h : Fed f w offset xs c) (hw : 0 < w) (hsize : w ≤ f.size)
    (haccepts : ∀ log, accepts log = true) (hle : w ≤ xs.length % w + data.length) :
    ∃ c', Crashdump.completePage f accepts c data (w - xs.length % w) = .ok c' ∧
      Flushed f w offset (whole w xs ++ [rest w xs ++ data.take (w - xs.length % w)]) c' := by
  have hr : xs.length % w < w := Nat.mod_lt _ hw
  have hpage := (whole_completed hw hle).1
  have hhead : (data.take (w - xs.length % w)).length = w - xs.length % w := by
    rw [List.length_take]
    omega
  have htemp : window (put c.tempData (xs.length % w) (data.take (w - xs.length % w))) 0 w =
      rest w xs ++ data.take (w - xs.length % w) := by
    have hput := window_put_append c.tempData 0 (xs.length % w) (data.take (w - xs.length % w))
    rwa [Nat.zero_add, hhead, Nat.add_sub_cancel' hr.le, h.temp] at hput
  rw [Crashdump.completePage, bytesAt_eq (by omega), ok_bind, List.drop_zero, h.length,
    toTemp_eq (by omega), ok_bind, h.writeSize, fromTemp_eq hsize, ok_bind, htemp]
  have hone := whole_of_length_eq hw hpage
  have hflush : Flushed f w offset (whole w xs)
      { c with tempData := put c.tempData (xs.length % w) (data.take (w - xs.length % w)) } :=
    ⟨h.writeSize, h.cursor, h.written, h.aligned⟩
  obtain ⟨c', heq, hflush', -⟩ := hflush.deviceWrite haccepts (congrArg List.length hone)
    (by rw [hpage, Nat.mod_self])
  rw [h.length, h.writeSize] at heq
  exact ⟨c', heq, hone ▸ hflush'⟩

/-- The whole pages of the rest are written from `data`, if there are any. -/
theorem Flushed.writePages (h : Flushed f w offset bs c) (hw : 0 < w)
    (haccepts : ∀ log, accepts log = true) (data : List UInt8) (pos : ℕ) :
    ∃ c', Crashdump.writePages f accepts c data pos ((data.length - pos) / w * w)
        ((data.length - pos) / w) = .ok c' ∧
      Flushed f w offset (bs ++ whole w (data.drop pos)) c' := by
  have hle : (data.length - pos) / w * w ≤ data.length - pos := Nat.div_mul_le_self ..
  have hpages : whole w ((data.drop pos).take ((data.length - pos) / w * w)) =
      whole w (data.drop pos) := by
    rw [← List.length_drop]
    exact whole_take hw _
  have hlen : (whole w (data.drop pos)).length = (data.length - pos) / w := by
    rw [length_whole, List.length_drop]
  rw [Crashdump.writePages]
  by_cases hsome : (data.length - pos) / w * w > 0
  · have hmod : ((data.drop pos).take ((data.length - pos) / w * w)).length % w = 0 := by
      rw [List.length_take, List.length_drop, Nat.min_eq_left hle, Nat.mul_mod_left]
    rw [if_pos hsome, bytesAt_eq (by omega), ok_bind]
    obtain ⟨c', heq, hflush, -⟩ := h.deviceWrite haccepts (hpages ▸ hlen) hmod
    exact ⟨c', heq, hpages ▸ hflush⟩
  · -- less than a page is left, so there is no write
    rw [if_neg hsome]
    have hnone : whole w (data.drop pos) = [] := by
      refine List.length_eq_zero_iff.mp (hlen.trans ?_)
      exact (Nat.mul_eq_zero.mp (Nat.eq_zero_of_not_pos hsome)).resolve_right (by omega)
    refine ⟨c, rfl, ?_⟩
    rwa [hnone, List.append_nil]

/-- What is left behind the whole pages is kept. -/
theorem Flushed.keepRest (h : Flushed f w offset (whole w xs) c) (hw : 0 < w)
    (hsize : w ≤ f.size) (hn : data.length < 2 ^ 31) {pos : ℕ} (hpos : pos ≤ data.length)
    (hrest : rest w xs = rest w (data.drop pos)) :
    ∃ c', Crashdump.keepRest f c data (pos + (data.length - pos) / w * w) = .ok c' ∧
      Fed f w offset xs c' := by
  have hle : (data.length - pos) / w * w ≤ data.length - pos := Nat.div_mul_le_self ..
  have hlen : (rest w xs).length = data.length - (pos + (data.length - pos) / w * w) := by
    rw [hrest, rest, List.length_drop, List.length_drop, Nat.sub_sub]
  have hbytes : (data.drop (pos + (data.length - pos) / w * w)).take (rest w xs).length =
      rest w xs := by
    rw [hlen, ← List.length_drop, List.take_length, hrest, rest, List.drop_drop, List.length_drop]
  have hlt := length_rest_lt hw xs
  rw [Crashdump.keepRest, u32_sub (by omega) (by omega), ← hlen, bytesAt_eq (by omega), ok_bind, hbytes,
    toTemp_eq (by omega), ok_bind]
  refine ⟨_, rfl, ⟨h.writeSize, h.cursor, h.written, h.aligned⟩, length_rest xs, ?_⟩
  rw [← length_rest]
  exact window_put_self c.tempData 0 (rest w xs)

/-- Data that fills the page: the page is written, and the whole pages behind it. -/
theorem Fed.writeData_long (h : Fed f w offset xs c) (hw : 0 < w) (hsize : w ≤ f.size)
    (hf : f.size < 2 ^ 31) (haccepts : ∀ log, accepts log = true)
    (hle : w ≤ xs.length % w + data.length) (htotal : xs.length + data.length < 2 ^ 31) :
    ∃ c', Crashdump.writeData f accepts c data = .ok c' ∧ Fed f w offset (xs ++ data) c' := by
  have hr : xs.length % w < w := Nat.mod_lt _ hw
  have hrle : xs.length % w ≤ xs.length := Nat.mod_le ..
  have hpos : w - xs.length % w ≤ data.length := by omega
  obtain ⟨-, hwhole, hrest⟩ := whole_completed hw hle
  -- the buffered page, the whole pages behind it, and what is kept for the next call
  obtain ⟨c₁, heq₁, hflush₁⟩ := h.completePage hw hsize haccepts hle
  obtain ⟨c₂, heq₂, hflush₂⟩ := hflush₁.writePages hw haccepts data (w - xs.length % w)
  rw [← hwhole] at hflush₂
  obtain ⟨c₃, heq₃, hfed⟩ := hflush₂.keepRest hw hsize (by omega) hpos hrest
  refine ⟨c₃, ?_, hfed⟩
  rw [Crashdump.writeData]
  dsimp only
  rw [h.length, h.writeSize, u32_add (by omega), if_neg (by omega), u32_sub hr.le (by omega), heq₁,
    ok_bind, hflush₁.writeSize, pages_eq hpos, pages_mul_eq (by omega), Int.toNat_natCast, heq₂,
    ok_bind, heq₃]

/-- **One call.**  However long the data is, the context afterwards is that of the data
so far with the new data behind it. -/
theorem Fed.writeData (h : Fed f w offset xs c) (hw : 0 < w) (hsize : w ≤ f.size)
    (hf : f.size < 2 ^ 31) (haccepts : ∀ log, accepts log = true)
    (htotal : xs.length + data.length < 2 ^ 31) :
    ∃ c', Crashdump.writeData f accepts c data = .ok c' ∧ Fed f w offset (xs ++ data) c' := by
  by_cases hlt : xs.length % w + data.length < w
  · exact h.writeData_short hsize hf hlt
  · exact h.writeData_long hw hsize hf haccepts (by omega) htotal

/-- **Any calls.** -/
theorem Fed.foldlM_writeData (h : Fed f w offset xs c) (hw : 0 < w) (hsize : w ≤ f.size)
    (hf : f.size < 2 ^ 31) (haccepts : ∀ log, accepts log = true) {bufs : List (List UInt8)}
    (htotal : xs.length + bufs.flatten.length < 2 ^ 31) :
    ∃ c', bufs.foldlM (Crashdump.writeData f accepts) c = .ok c' ∧
      Fed f w offset (xs ++ bufs.flatten) c' := by
  induction bufs generalizing xs c with
  | nil => exact ⟨c, rfl, by rwa [List.flatten_nil, List.append_nil]⟩
  | cons data bufs ih =>
    rw [List.flatten_cons, List.length_append] at htotal
    have hfirst : xs.length + data.length < 2 ^ 31 := by omega
    obtain ⟨c₁, heq, hfed⟩ := h.writeData hw hsize hf haccepts hfirst
    obtain ⟨c₂, heqs, hfeds⟩ := ih hfed (by rw [List.length_append]; omega)
    refine ⟨c₂, ?_, ?_⟩
    · rw [List.foldlM_cons, heq, ok_bind, heqs]
    · rwa [List.flatten_cons, ← List.append_assoc]

/-- The last page is padded, if there is one. -/
theorem Fed.deinitWrite (h : Fed f w offset xs c) (hw : 0 < w) (hsize : w ≤ f.size)
    (hf : f.size < 2 ^ 31) (haccepts : ∀ log, accepts log = true) :
    ∃ c', deinitWrite f accepts c = .ok c' ∧
      Crashdump.written f w c'.log = placed (place f w offset) 0 (whole w (pad w 0xFF xs)) ∧
      ∀ p ∈ c'.log, p.2.length % w = 0 := by
  have hr : xs.length % w < w := Nat.mod_lt _ hw
  have hlen := length_rest (w := w) xs
  rw [Crashdump.deinitWrite, whole_pad hw]
  by_cases hnone : rest w xs = []
  · -- nothing is left in the buffer, and nothing is written
    have hzero : c.curDataLen = 0 := by rw [h.length, ← hlen, hnone, List.length_nil]
    rw [if_neg (not_not.mpr hzero), if_pos hnone, List.append_nil]
    exact ⟨c, rfl, h.written, h.aligned⟩
  · -- the rest is filled up with `0xFF` in the buffer, and one page goes to the device
    have hsome : xs.length % w ≠ 0 := by
      rw [← hlen]
      exact fun hzero => hnone (List.length_eq_zero_iff.mp hzero)
    have hpage : (rest w xs ++ List.replicate (w - (rest w xs).length) 0xFF).length = w := by
      rw [List.length_append, List.length_replicate]
      omega
    have htemp : window (put c.tempData (xs.length % w) (List.replicate (w - xs.length % w) 0xFF))
        0 w = rest w xs ++ List.replicate (w - (rest w xs).length) 0xFF := by
      have hput := window_put_append c.tempData 0 (xs.length % w)
        (List.replicate (w - xs.length % w) 0xFF)
      rw [Nat.zero_add, List.length_replicate, Nat.add_sub_cancel' hr.le, h.temp] at hput
      rw [hput, hlen]
    rw [h.length, h.writeSize, if_pos hsome, u32_sub hr.le (by omega),
      toTemp_eq (by rw [List.length_replicate]; omega), ok_bind, fromTemp_eq hsize, ok_bind, htemp,
      if_neg hnone]
    refine ⟨_, if_pos (haccepts _), ?_, ?_⟩
    · have hlog := h.written
      rw [Crashdump.written] at hlog ⊢
      rw [List.flatMap_append, hlog, List.flatMap_singleton, h.cursor, placed_from, placed_append,
        whole_of_length_eq hw hpage, Nat.zero_add]
    · intro p hp
      rcases List.mem_append.mp hp with hp | hp
      · exact h.aligned p hp
      · rw [List.mem_singleton.mp hp, hpage, Nat.mod_self]

/-- Offsets the driver tells apart are those of different pages. -/
theorem nodup_places {n : ℕ} (hunit : 0 < f.unit w) (hn : n * f.unit w ≤ f.addrs) (offset : ℕ) :
    ((List.range n).map (place f w offset)).Nodup := by
  refine List.Nodup.map_on ?_ List.nodup_range
  intro i hi j hj heq
  rw [List.mem_range] at hi hj
  have hilt : i * f.unit w < f.addrs :=
    lt_of_lt_of_le (Nat.mul_lt_mul_of_pos_right hi hunit) hn
  have hjlt : j * f.unit w < f.addrs :=
    lt_of_lt_of_le (Nat.mul_lt_mul_of_pos_right hj hunit) hn
  have hmod : i * f.unit w ≡ j * f.unit w [MOD f.addrs] := Nat.ModEq.add_left_cancel' offset heq
  rw [Nat.ModEq, Nat.mod_eq_of_lt hilt, Nat.mod_eq_of_lt hjlt] at hmod
  exact Nat.eq_of_mul_eq_mul_right hunit hmod

/-- From the init function to the deinit function. -/
theorem exists_run (hw : 0 < w) (hsize : w ≤ f.size) (hf : f.size < 2 ^ 31)
    (hunit : 0 < f.unit w ∧ f.unit w ≤ w) (haddrs : 2 ^ 32 ≤ f.addrs) {bufs : List (List UInt8)}
    (htotal : bufs.flatten.length < 2 ^ 31) (offset : ℕ) (temp : ℕ → UInt8)
    (dev : ℕ → List UInt8) (haccepts : ∀ log, accepts log = true) :
    ∃ c₀ c c', initWrite f true temp w offset = .ok c₀ ∧
      (∀ pre, pre <+: bufs → ∃ cp, pre.foldlM (writeData f accepts) c₀ = .ok cp ∧
        cp.curDataLen < w) ∧
      bufs.foldlM (writeData f accepts) c₀ = .ok c ∧ deinitWrite f accepts c = .ok c' ∧
      let stream := pad w 0xFF bufs.flatten
      let places := (List.range (stream.length / w)).map (place f w offset)
      stream.length % w = 0 ∧ places.Nodup ∧ (∀ p ∈ c'.log, p.2.length % w = 0) ∧
        (written f w c'.log).map Prod.fst = places ∧
        (places.map (updateAll dev (written f w c'.log))).flatten = stream := by
  have hfresh : Fed f w offset [] ⟨offset, offset, 0, w, temp, []⟩ := by
    have hnone : whole w ([] : List UInt8) = [] := whole_of_lt hw
    refine ⟨⟨rfl, ?_, ?_, fun p hp => absurd hp List.not_mem_nil⟩, (Nat.zero_mod w).symm, ?_⟩
    · rw [hnone, List.length_nil, Nat.zero_mul, Nat.add_zero]
    · rw [hnone]
      rfl
    · rw [rest_of_lt hw, List.length_nil, Nat.zero_mod]
      rfl
  have hall : ([] : List UInt8).length + bufs.flatten.length < 2 ^ 31 := by
    rwa [List.length_nil, Nat.zero_add]
  obtain ⟨c, hrun, hfed⟩ := hfresh.foldlM_writeData hw hsize hf haccepts hall
  obtain ⟨c', hdeinit, hwritten, haligned⟩ := hfed.deinitWrite hw hsize hf haccepts
  rw [List.nil_append] at hwritten
  refine ⟨_, c, c', (if_neg (by omega)).trans (if_pos rfl), ?_, hrun, hdeinit, ?_⟩
  · rintro pre ⟨post, rfl⟩
    rw [List.flatten_append, List.length_append] at htotal
    have hpart : ([] : List UInt8).length + pre.flatten.length < 2 ^ 31 := by
      rw [List.length_nil]
      omega
    obtain ⟨cp, hpre, hfedp⟩ := hfresh.foldlM_writeData hw hsize hf haccepts hpart
    exact ⟨cp, hpre, hfedp.length ▸ Nat.mod_lt _ hw⟩
  intro stream places
  have hmod : stream.length % w = 0 := length_pad_mod hw _ _
  -- the offsets of all pages are below the number of offsets there are
  have hpages : stream.length / w * f.unit w ≤ f.addrs := by
    have hle : stream.length / w * f.unit w ≤ stream.length / w * w :=
      Nat.mul_le_mul_left _ hunit.2
    have hlt := Nat.mod_lt (w - bufs.flatten.length % w) hw
    have hlen : stream.length =
        bufs.flatten.length + (w - bufs.flatten.length % w) % w := by
      simp only [stream, pad, List.length_append, List.length_replicate]
    have hdiv : stream.length / w * w ≤ stream.length := Nat.div_mul_le_self ..
    omega
  have hplaces : (List.range (whole w stream).length).map (fun i => place f w offset (0 + i)) =
      places := by
    simp only [length_whole, Nat.zero_add, places]
  have hnodup : places.Nodup := nodup_places hunit.1 hpages offset
  refine ⟨hmod, hnodup, haligned, ?_, ?_⟩
  · rw [hwritten, map_fst_placed, hplaces]
  · have hapart : ((List.range (whole w stream).length).map
        fun i => place f w offset (0 + i)).Nodup := by rwa [hplaces]
    have hread := updateAll_placed dev (whole w stream) hapart
    rw [hplaces] at hread
    rw [hwritten, hread, flatten_whole_of_dvd hmod]

/-- The three functions of a writer, as `qcom_wdt_write_crashdump_data` takes them for a flash
memory. -/
structure Writer where
  flash : Flash
  init : (ℕ → UInt8) → ℕ → ℕ → Except Fault Cxt
  write : (Log → Bool) → Cxt → List UInt8 → Except Fault Cxt
  deinit : (Log → Bool) → Cxt → Except Fault Cxt

/-- The functions for NAND, on sectors that were erased. -/
def nandWriter : Writer :=
  ⟨nand, initCrashdumpNandFlashWrite true, crashdumpNandFlashWriteData,
    deinitCrashdumpNandFlashWrite⟩

/-- The functions for eMMC. -/
def emmcWriter : Writer :=
  ⟨emmc, initCrashdumpEmmcFlashWrite, crashdumpEmmcFlashWriteData, deinitCrashdumpEmmcFlashWrite⟩

/-- **The writers are plain writes.**  On a device that refuses no write, calls with any
pieces stay inside `temp_data` and leave less than a page in it; after deinit the pages
from the start offset on hold the pieces one behind the other, padded with `0xFF`, and
each of them was written exactly once. -/
theorem writers_eq_plain_write (wr : Writer) (hwr : wr ∈ [nandWriter, emmcWriter])
    (w offset : ℕ) (hw : 0 < w) (hsize : w ≤ wr.flash.size) (bufs : List (List UInt8))
    (htotal : bufs.flatten.length < 2 ^ 31) (temp : ℕ → UInt8) (dev : ℕ → List UInt8)
    (accepts : Log → Bool) (haccepts : ∀ log, accepts log = true) :
    ∃ c₀ c c', wr.init temp w offset = .ok c₀ ∧
      (∀ pre, pre <+: bufs → ∃ cp, pre.foldlM (wr.write accepts) c₀ = .ok cp ∧
        cp.curDataLen < w) ∧
      bufs.foldlM (wr.write accepts) c₀ = .ok c ∧ wr.deinit accepts c = .ok c' ∧
      let stream := pad w 0xFF bufs.flatten
      let places := (List.range (stream.length / w)).map (place wr.flash w offset)
      stream.length % w = 0 ∧ places.Nodup ∧
        (∀ p ∈ c'.log, p.2.length % w = 0) ∧
        (written wr.flash w c'.log).map Prod.fst = places ∧
        (places.map (updateAll dev (written wr.flash w c'.log))).flatten = stream := by
  rw [List.mem_pair] at hwr
  rcases hwr with rfl | rfl
  · exact exists_run hw hsize (by decide) ⟨hw, le_rfl⟩ (by decide) htotal offset temp dev haccepts
  · exact exists_run hw hsize (by decide) ⟨Nat.one_pos, hw⟩ (by decide) htotal offset temp dev
      haccepts

theorem writers_eq_plain_write_pieces :
    ∃ c₀ c c', emmcWriter.init (fun _ => 0) 4 7 = .ok c₀ ∧
      [[1, 2, 3], [], [4, 5]].foldlM (emmcWriter.write fun _ => true) c₀ = .ok c ∧
      emmcWriter.deinit (fun _ => true) c = .ok c' ∧
      ([7, 8].map (updateAll (fun _ => []) (written emmc 4 c'.log))).flatten =
        [1, 2, 3, 4, 5, 0xFF, 0xFF, 0xFF] := by
  obtain ⟨c₀, c, c', hinit, -, hrun, hdeinit, -, -, -, -, hread⟩ :=
    writers_eq_plain_write emmcWriter (by simp) 4 7 (by decide) (by decide) [[1, 2, 3], [], [4, 5]]
      (by decide) (fun _ => 0) (fun _ => []) (fun _ => true) (fun _ => rfl)
  exact ⟨c₀, c, c', hinit, hrun, hdeinit, hread⟩

end Crashdump
