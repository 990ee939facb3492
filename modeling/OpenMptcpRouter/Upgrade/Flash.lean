/-
What an upgrade does to the flash (`common/cmd_sf.c`).

`doSpiFlash` is the `sf` command over a board with a flash and a RAM: it parses its
arguments, and `sf erase` and `sf write` change the flash and are recorded.  `Flashed`
says what an upgrade of a partition is for: the uploaded bytes end up in the partition
and nothing outside it is touched.

* `upgrade_uboot` — the ranges an U-Boot upgrade names: the arguments of the
  format string are one short, so the load address is taken for the start of the erase;
* `flashed_art` — an ART upgrade does what it is for;
* `flashed_iff` — **of the two, only the ART upgrade flashes its partition**.
-/
import OpenMptcpRouter.Upgrade.Command

namespace Upgrade

open Hush Digits Httpd

/-! ### The `sf` command -/

/-- `simple_strtoul`, with the text from `*endp` on. -/
def simpleStrtoul (base : ℕ) (cp : Text) : ℕ × Text :=
  let r :=
    match cp with
    | '0' :: 'x' :: c :: cs =>
      if (digitValue c).isSome then readDigits 16 0 (c :: cs)
      else readDigits (if base = 0 then 8 else base) 0 ('x' :: c :: cs)
    | '0' :: cs => readDigits (if base = 0 then 8 else base) 0 cs
    | cs => readDigits (if base = 0 then 10 else base) 0 cs
  (r.1 % 2 ^ 32, r.2)

/-- A number printed in hex, with its prefix. -/
theorem simpleStrtoul_hex {n : ℕ} {rest : Text} (base : ℕ) (hrest : NoDigit rest) :
    simpleStrtoul base ('0' :: 'x' :: Nat.toDigits 16 n ++ rest) = (n % 2 ^ 32, rest) := by
  obtain ⟨c, cs, hcs⟩ : ∃ c cs, Nat.toDigits 16 n = c :: cs :=
    List.exists_cons_of_ne_nil Nat.toDigits_ne_nil
  obtain ⟨d, hd, rfl⟩ := mem_toDigits (by decide) n (hcs ▸ List.mem_cons_self)
  have hread : readDigits 16 0 (Nat.toDigits 16 n ++ rest) = (n, rest) :=
    readDigits_toDigits (by decide) (by decide) n hrest
  rw [hcs] at hread ⊢
  simp only [List.cons_append] at hread ⊢
  rw [simpleStrtoul]
  simp [digitValue_digitChar hd, hread]

/-- A positive number printed in decimal. -/
theorem simpleStrtoul_decimal {n : ℕ} {rest : Text} (hn : 0 < n) (hrest : NoDigit rest) :
    simpleStrtoul 0 (Nat.toDigits 10 n ++ rest) = (n % 2 ^ 32, rest) := by
  obtain ⟨c, cs, hcs, hc⟩ : ∃ c cs, Nat.toDigits 10 n = c :: cs ∧ c ≠ '0' :=
    toDigits_head (by decide) (by decide) hn
  have hread : readDigits 10 0 (Nat.toDigits 10 n ++ rest) = (n, rest) :=
    readDigits_toDigits (by decide) (by decide) n hrest
  rw [hcs, List.cons_append] at hread ⊢
  rw [simpleStrtoul]
  · rw [if_pos rfl, hread]
  · exact fun _ _ h => hc (List.head_eq_of_cons_eq h)
  · exact fun _ h => hc (List.head_eq_of_cons_eq h)

/-- A number that takes up its whole argument. -/
def wholeNumber (base : ℕ) (arg : Text) : Option ℕ :=
  let r := simpleStrtoul base arg
  if arg = [] ∨ r.2 ≠ [] then none else some r.1

/-- What `sf` has done to the flash. -/
inductive Op
  | erase (offset len : ℕ)
  | write (addr offset len : ℕ)
  deriving DecidableEq, Repr

/-- A board, as far as the `sf` command knows it. -/
structure Board where
  flash : ℕ → UInt8
  ram : Ram
  /-- the environment of U-Boot -/
  env : Text → Option Text
  /-- `flash != NULL` -/
  selected : Bool := false
  sectorSize : ℕ
  ops : List Op := []

/-- `ROUND`. -/
def round (a b : ℕ) : ℕ := (a + b - 1) % 2 ^ 32 &&& (2 ^ 32 - b)

/-- `sf_parse_len_arg`. -/
def sfParseLenArg (b : Board) (arg : Text) : Option ℕ :=
  let digits := if arg.head? = some '+' then arg.tail else arg
  let r := simpleStrtoul 16 digits
  if r.2 = digits ∨ r.2 ≠ [] then none
  else some (if arg.head? = some '+' ∧ 0 < b.sectorSize then round r.1 b.sectorSize else r.1)

/-- `spi_flash_erase`. -/
def Board.spiFlashErase (b : Board) (offset len : ℕ) : Board :=
  { b with
    flash := fun a => if offset ≤ a ∧ a < offset + len then 0xff else b.flash a
    ops := b.ops ++ [.erase offset len] }

/-- `spi_flash_write`. -/
def Board.spiFlashWrite (b : Board) (addr offset len : ℕ) : Board :=
  { b with
    flash := fun a =>
      if offset ≤ a ∧ a < offset + len then b.ram ((addr + (a - offset)) % ramSize) else b.flash a
    ops := b.ops ++ [.write addr offset len] }

/-- The arguments of `do_spi_flash_probe`; `[bus:]cs`, speed and mode are optional. -/
def probeArgs (args : List Text) : Bool :=
  let number (base i : ℕ) : Bool := args[i]?.all fun a => (wholeNumber base a).isSome
  let bus := args[0]?.all fun a =>
    let r := simpleStrtoul 0 a
    decide (a ≠ []) && match r.2 with
      | [] => true
      | c :: cs => c = ':' && (wholeNumber 0 cs).isSome
  bus && number 0 1 && number 16 2

/-- `do_spi_flash_probe`; the flash is there. -/
def doSpiFlashProbe (b : Board) (args : List Text) : Board × Option ℤ :=
  if probeArgs args then ({ b with selected := true }, some 0) else (b, none)

/-- `do_spi_flash_read_write` for `write`. -/
def doSpiFlashWrite (b : Board) : List Text → Board × Option ℤ
  | addr :: offset :: len :: _ =>
    match wholeNumber 16 addr, wholeNumber 16 offset, wholeNumber 16 len with
    | some addr, some offset, some len => (b.spiFlashWrite addr offset len, some 0)
    | _, _, _ => (b, none)
  | _ => (b, none)

/-- `do_spi_flash_erase`. -/
def doSpiFlashErase (b : Board) : List Text → Board × Option ℤ
  | offset :: len :: _ =>
    match wholeNumber 16 offset, sfParseLenArg b len with
    | some offset, some len => (b.spiFlashErase offset len, some 0)
    | _, _ => (b, none)
  | _ => (b, none)

/-- `do_spi_flash`, over the words behind `sf`; no code is `CMD_RET_USAGE`.  `read`,
`update` and `bulkerase` are left out. -/
def doSpiFlash (b : Board) : List Text → Board × Option ℤ
  | [] => (b, none)
  | cmd :: args =>
    if cmd = "probe".toList then doSpiFlashProbe b args
    else if b.selected = false then (b, some 1)
    else if cmd = "write".toList then doSpiFlashWrite b args
    else if cmd = "erase".toList then doSpiFlashErase b args
    else (b, none)

/-- `cmd_process`, of which only `sf` is known here; `cmd_usage` and an unknown command
return 1. -/
def cmdProcess (s : Shell Board) (argv : List Text) : Shell Board × ℤ :=
  if argv.head? = some "sf".toList ∧ argv.length ≤ 5 then
    let r := doSpiFlash s.board argv.tail
    ({ s with board := r.1 }, r.2.getD 1)
  else (s, 1)

/-- The board after an upgrade. -/
def Board.upgrade (b : Board) (size : ℕ) (upgradeType : ℤ) : Board :=
  (doHttpUpgrade Board.env cmdProcess { board := b } size upgradeType).1.board

/-! ### What an upgrade is for -/

/-- A range of the flash. -/
structure Partition where
  start : ℕ
  size : ℕ

def Partition.Contains (p : Partition) (offset len : ℕ) : Prop :=
  p.start ≤ offset ∧ offset + len ≤ p.start + p.size

/-- The flash range an operation names lies in the partition. -/
def Op.Inside (p : Partition) : Op → Prop
  | .erase offset len => p.Contains offset len
  | .write _ offset len => p.Contains offset len

/-- The partition of an upgrade type. -/
def partition (upgradeType : ℤ) : Partition :=
  if upgradeType = typeUboot then ⟨ubootStart, ubootSize⟩ else ⟨0x170000, 0x10000⟩

/-- The sizes the upload checks let through. -/
def Admitted (upgradeType : ℤ) (size : ℕ) : Prop :=
  upgradeType = typeUboot ∧ 1 ≤ size ∧ size ≤ ubootSize ∨ upgradeType = typeArt ∧ size = artSize

/-- The `size` bytes at the load address are in the partition, erased before it was
written, and no other byte of the flash has been touched or named. -/
structure Flashed (p : Partition) (size : ℕ) (b b' : Board) : Prop where
  inside : ∀ op ∈ b'.ops, op.Inside p
  erased : ∃ offset len, offset ≤ p.start ∧ p.start + size ≤ offset + len ∧
    b'.ops = [.erase offset len, .write loadaddr p.start size]
  uploaded : ∀ i < size, b'.flash (p.start + i) = b.ram (loadaddr + i)
  outside : ∀ a, a < p.start ∨ p.start + p.size ≤ a → b'.flash a = b.flash a

/-! ### The two command lines -/

theorem wholeNumber_hex {n : ℕ} (hn : n < 2 ^ 32) : wholeNumber 16 (hex n) = some n := by
  have hread : simpleStrtoul 16 (hex n) = (n % 2 ^ 32, []) := by
    have h := @simpleStrtoul_hex n [] 16 (by simp [NoDigit])
    rwa [List.append_nil] at h
  have hne : hex n ≠ [] := by simp [hex]
  rw [wholeNumber, hread]
  simp only [hne, Nat.mod_eq_of_lt hn]
  rfl

/-- A length without a plus sign is an ordinary number. -/
theorem sfParseLenArg_eq {b : Board} {arg : Text} {n : ℕ} (hplus : arg.head? ≠ some '+')
    (h : wholeNumber 16 arg = some n) : sfParseLenArg b arg = some n := by
  rw [wholeNumber] at h
  rw [sfParseLenArg, if_neg hplus]
  simp only [hplus, false_and, if_false]
  split at h
  · simp at h
  · rename_i hok
    rw [not_or, not_not] at hok
    rw [if_neg (by rw [hok.2]; simp [Ne.symm hok.1])]
    exact h

section Sf

variable {s : Shell Board} {addr offset len : Text} {m n k : ℕ}

/-- The board of a shell changed. -/
def onBoard (s : Shell Board) (f : Board → Board) : Shell Board := { s with board := f s.board }

theorem run_sf {args : List Text} (h : args.length ≤ 4) :
    runSimple Board.env cmdProcess s { argv := "sf".toList :: args } =
      (onBoard s fun b => (doSpiFlash b args).1, (doSpiFlash s.board args).2.getD 1) := by
  rw [runSimple_eq (by decide) (by decide), cmdProcess, if_pos ⟨rfl, Nat.succ_le_succ h⟩]
  rfl

theorem run_probe :
    runSimple Board.env cmdProcess s sfProbe = (onBoard s fun b => { b with selected := true }, 0) := by
  rw [show sfProbe = { argv := "sf".toList :: ["probe".toList] } by decide, run_sf (by simp)]
  rfl

theorem run_erase (hsel : s.board.selected = true) (ho : wholeNumber 16 offset = some m)
    (hplus : len.head? ≠ some '+') (hl : wholeNumber 16 len = some n) :
    runSimple Board.env cmdProcess s { argv := "sf".toList :: ["erase".toList, offset, len] } =
      (onBoard s fun b => b.spiFlashErase m n, 0) := by
  rw [run_sf (by simp)]
  have herase : doSpiFlash s.board ["erase".toList, offset, len]
      = (s.board.spiFlashErase m n, some 0) := by
    rw [doSpiFlash, if_neg (by decide), if_neg (by simp [hsel]), if_neg (by decide), if_pos rfl,
      doSpiFlashErase, ho, sfParseLenArg_eq hplus hl]
  rw [onBoard, herase]
  rfl

theorem run_write (hsel : s.board.selected = true) (ha : wholeNumber 16 addr = some k)
    (ho : wholeNumber 16 offset = some m) (hl : wholeNumber 16 len = some n) :
    runSimple Board.env cmdProcess s { argv := "sf".toList :: ["write".toList, addr, offset, len] } =
      (onBoard s fun b => b.spiFlashWrite k m n, 0) := by
  rw [run_sf (by simp)]
  have hwrite : doSpiFlash s.board ["write".toList, addr, offset, len]
      = (s.board.spiFlashWrite k m n, some 0) := by
    rw [doSpiFlash, if_neg (by decide), if_neg (by simp [hsel]), if_pos rfl, doSpiFlashWrite,
      ha, ho, hl]
  rw [onBoard, hwrite]
  rfl

end Sf

/-- Probe, erase and write, when the arguments parse. -/
theorem run_sfLine {b : Board} {erase write : Simple} (off len addr off' len' : Text)
    {m n k m' n' : ℕ} (herase : erase = { argv := "sf".toList :: ["erase".toList, off, len] })
    (hwrite : write = { argv := "sf".toList :: ["write".toList, addr, off', len'] })
    (hm : wholeNumber 16 off = some m) (hplus : len.head? ≠ some '+')
    (hn : wholeNumber 16 len = some n) (hk : wholeNumber 16 addr = some k)
    (hm' : wholeNumber 16 off' = some m') (hn' : wholeNumber 16 len' = some n') :
    ((andLine sfProbe erase write).run (runSimple Board.env cmdProcess) { board := b }).1.board =
      (({ b with selected := true }.spiFlashErase m n).spiFlashWrite k m' n') := by
  subst herase hwrite
  rw [andLine, Stmt.run]
  simp only [List.cons_append, List.nil_append]
  rw [runLine, run_probe]
  simp only [skips]
  rw [if_neg (by decide), show decide _ = false by decide, runLine,
    run_erase rfl hm hplus hn]
  simp only [skips]
  rw [if_neg (by decide), show decide _ = false by decide, runLine, run_write rfl hk hm' hn']
  rfl

/-- What an U-Boot upgrade does: it erases `0xf0000` bytes from the load address on, and
writes the bytes of the RAM at `0x80000`. -/
theorem upgrade_uboot (b : Board) {size : ℕ} (h : size < 2 ^ 32) :
    b.upgrade size typeUboot =
      (({ b with selected := true }.spiFlashErase loadaddr ubootStart).spiFlashWrite ubootSize
        ubootStart size) := by
  rw [Board.upgrade, doHttpUpgrade_uboot]
  refine run_sfLine "0x81000000".toList "0xf0000".toList "0x80000".toList "0xf0000".toList
    (hex size) ?_ ?_ ?_ ?_ ?_ ?_ ?_ (wholeNumber_hex h)
  case refine_2 => rfl
  all_goals decide

theorem upgrade_art (b : Board) (size : ℕ) :
    b.upgrade size typeArt =
      (({ b with selected := true }.spiFlashErase 0x170000 0x10000).spiFlashWrite loadaddr
        0x170000 0x10000) := by
  rw [Board.upgrade, doHttpUpgrade_art]
  refine run_sfLine "0x170000".toList "0x10000".toList "0x81000000".toList "0x170000".toList
    "0x10000".toList ?_ ?_ ?_ ?_ ?_ ?_ ?_ ?_
  all_goals decide

/-! ### Which upgrade flashes its partition -/

theorem flashed_art {b : Board} (hops : b.ops = []) :
    Flashed (partition typeArt) artSize b (b.upgrade artSize typeArt) := by
  have hp : partition typeArt = ⟨0x170000, 0x10000⟩ := rfl
  rw [upgrade_art, hp]
  refine ⟨?_, ⟨0x170000, 0x10000, le_rfl, by simp [artSize], ?_⟩, ?_, ?_⟩
  · simp [Board.spiFlashErase, Board.spiFlashWrite, hops, Op.Inside, Partition.Contains]
  · simp [Board.spiFlashErase, Board.spiFlashWrite, hops, artSize]
  · intro i hi
    have hsmall : loadaddr + i < ramSize := by
      simp only [loadaddr, ramSize, artSize] at *
      omega
    simp only [Board.spiFlashWrite, Board.spiFlashErase]
    rw [if_pos (by simp only [artSize] at hi; omega), Nat.add_sub_cancel_left,
      Nat.mod_eq_of_lt hsmall]
  · intro a ha
    simp only [Board.spiFlashWrite, Board.spiFlashErase]
    rw [if_neg (by simp only at ha; omega), if_neg (by simp only at ha; omega)]

/-- An U-Boot upgrade names a range far outside its partition. -/
theorem not_flashed_uboot {b : Board} {size : ℕ} (h : size ≤ ubootSize) :
    ¬ Flashed (partition typeUboot) size b (b.upgrade size typeUboot) := by
  intro hflashed
  have hlt : size < 2 ^ 32 := by
    simp only [ubootSize] at h
    omega
  have hmem : Op.erase loadaddr ubootStart ∈ (b.upgrade size typeUboot).ops := by
    rw [upgrade_uboot b hlt]
    simp [Board.spiFlashErase, Board.spiFlashWrite]
  exact absurd (hflashed.inside _ hmem).2 (by decide)

/-- **Of the two upgrades only that of the ART does what it is for.** -/
theorem flashed_iff {b : Board} {size : ℕ} {upgradeType : ℤ} (hops : b.ops = [])
    (h : Admitted upgradeType size) :
    Flashed (partition upgradeType) size b (b.upgrade size upgradeType) ↔
      upgradeType = typeArt := by
  rcases h with ⟨rfl, -, hsize⟩ | ⟨rfl, rfl⟩
  · exact ⟨fun hflashed => absurd hflashed (not_flashed_uboot hsize), fun h => absurd h (by decide)⟩
  · exact ⟨fun _ => rfl, fun _ => flashed_art hops⟩

/-- A board with an empty flash. -/
def emptyBoard : Board where
  flash := fun _ => 0xff
  ram := fun a => UInt8.ofNat a
  env := fun _ => none
  sectorSize := 0x10000

theorem flashed_iff_emptyBoard :
    Flashed (partition typeArt) artSize emptyBoard (emptyBoard.upgrade artSize typeArt) :=
  (flashed_iff rfl (Or.inr ⟨rfl, rfl⟩)).mpr rfl

/-- A one-byte U-Boot image: what lands in the partition is not the byte at the load
address. -/
theorem uboot_not_flashed :
    ¬ ∀ (b : Board) (size : ℕ) (upgradeType : ℤ), b.ops = [] → Admitted upgradeType size →
      Flashed (partition upgradeType) size b (b.upgrade size upgradeType) := by
  intro hall
  have h := (hall emptyBoard 1 typeUboot rfl (Or.inl ⟨rfl, by decide, by decide⟩)).inside
    (.erase loadaddr ubootStart)
  rw [upgrade_uboot emptyBoard (by decide)] at h
  exact absurd (h (by decide)).2 (by decide)

end Upgrade
