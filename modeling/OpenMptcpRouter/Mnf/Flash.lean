/-
The manufacturing partition on the NOR chip (`mnf_flash.c`).

A field is read from the chip directly.  To write, the whole partition is read into one
static cache, the cache is patched field by field, and the chip is erased and written
back.  The driver functions fail when the chip does (`Hw`), with the cache and the chip
then left in any state:

* `Loaded F ws` — the cache is the partition of chip `F` with the updates `ws` in it, and
  the chip still is `F`;
* `triple_mnfFlashWriteInit`, `triple_mnfFlashWrite`, `triple_mnfFlashWriteFinalize` —
  the functions take a command from `F` to `Loaded F []`, through one update after the
  other, and to a chip that holds them all.
-/
import OpenMptcpRouter.Lib.Fallible
import OpenMptcpRouter.Lib.Regions
import OpenMptcpRouter.Mnf.Fields

namespace Mnf

open Fallible Regions

/-- `CONFIG_MNF_INFO_START`. -/
def mnfInfoStart : ℕ := 0x2F0000

/-- `MNF_INFO_SIZE`. -/
def mnfInfoSize : ℕ := 0x20000

/-- What the devices and the user do during one command. -/
structure Hw where
  /-- `spi_flash_probe` finds the chip. -/
  probe : Bool
  /-- The read of a single field fails. -/
  readFails : MnfField → Bool
  /-- The read of the partition fails and leaves this in the cache. -/
  readAllFails : Option (ℕ → UInt8)
  /-- The erase fails and leaves the chip like this. -/
  eraseFails : Option (ℕ → UInt8)
  /-- The write fails and leaves the chip like this. -/
  writeFails : Option (ℕ → UInt8)
  /-- `rand()`, seeded with the timer. -/
  rand : ℕ
  /-- What the user types when asked for confirmation. -/
  answer : Text
  /-- What lies behind a string on the stack. -/
  stack : ℕ → UInt8

/-- The chip, the static variables of the driver, and the lines printed. -/
structure Board where
  flash : ℕ → UInt8
  probed : Bool
  cache : ℕ → UInt8
  console : List Text

/-- A function that returns 0 or an error code. -/
abbrev Cmd (α : Type) := Fallible Board α

/-- `flash_probe`. -/
def flashProbe (hw : Hw) : Cmd Unit := do
  let s ← get
  if s.probed then pure ()
  else if hw.probe then modify fun s => { s with probed := true }
  else throw ()

/-- Address of a field on the chip. -/
def MnfField.start (field : MnfField) : ℕ := mnfInfoStart + field.offset

/-- `mnf_flash_read`. -/
def mnfFlashRead (hw : Hw) (field : MnfField) : Cmd Text := do
  flashProbe hw
  if hw.readFails field then throw ()
  else
    let s ← get
    pure (window s.flash field.start field.length)

/-- `mnf_flash_write_init`. -/
def mnfFlashWriteInit (hw : Hw) : Cmd Unit := do
  flashProbe hw
  match hw.readAllFails with
  | some junk =>
    modify fun s => { s with cache := junk }
    throw ()
  | none => modify fun s => { s with cache := fun i => s.flash (mnfInfoStart + i) }

/-- `mnf_flash_write`. -/
def mnfFlashWrite (field : MnfField) (buf : Text) : Cmd Unit :=
  modify fun s => { s with cache := put s.cache field.offset (buf.take field.length) }

/-- The address lies in the partition. -/
def InPartition (a : ℕ) : Prop := mnfInfoStart ≤ a ∧ a < mnfInfoStart + mnfInfoSize

instance (a : ℕ) : Decidable (InPartition a) := instDecidableAnd

/-- `spi_flash_erase` of the partition sets all bits, `spi_flash_write` clears bits. -/
def mnfFlashWriteFinalize (hw : Hw) : Cmd Unit := do
  match hw.eraseFails with
  | some junk =>
    modify fun s => { s with flash := junk }
    throw ()
  | none => modify fun s => { s with flash := fun a => if InPartition a then 0xff else s.flash a }
  match hw.writeFails with
  | some junk =>
    modify fun s => { s with flash := junk }
    throw ()
  | none =>
    modify fun s => { s with
      flash := fun a => if InPartition a then s.flash a &&& s.cache (a - mnfInfoStart)
        else s.flash a }

/-- The field lies in the partition. -/
def MnfField.Inside (field : MnfField) : Prop := field.offset + field.length ≤ mnfInfoSize

/-- Updates of fields, in the order they were made. -/
abbrev Updates := List (MnfField × Text)

/-- The chip with the updates made. -/
def written (F : ℕ → UInt8) (ws : Updates) : ℕ → UInt8 := putAll MnfField.start F ws

/-- Every update is of a field inside the partition, and fills it. -/
def Updates.Good (ws : Updates) : Prop :=
  Fits MnfField.length ws ∧ ∀ w ∈ ws, w.1.Inside

/-- The chip is `F`. -/
def FlashIs (F : ℕ → UInt8) (s : Board) : Prop := s.flash = F

/-- The chip is `F`, and the cache is its partition with the updates `ws`. -/
def Loaded (F : ℕ → UInt8) (ws : Updates) (s : Board) : Prop :=
  s.flash = F ∧ ∀ i < mnfInfoSize, s.cache i = written F ws (mnfInfoStart + i)

section Driver

variable {F : ℕ → UInt8} {ws : Updates} {hw : Hw} {field : MnfField}

theorem Loaded.flashIs {s : Board} (h : Loaded F ws s) : FlashIs F s := h.1

theorem triple_flashProbe {P : Board → Prop} (h : ∀ s : Board, P s → P { s with probed := true }) :
    Triple P (flashProbe hw) (fun _ => P) P := by
  intro s hs
  rw [flashProbe, runFrom_bind, runFrom_get]
  by_cases hp : s.probed
  · simpa [hp] using hs
  · cases hhw : hw.probe
    · simpa [hp] using hs
    · simpa [hp] using h s hs

theorem triple_mnfFlashRead {P : Board → Prop} (hF : ∀ s, P s → s.flash = F)
    (h : ∀ s : Board, P s → P { s with probed := true }) :
    Triple P (mnfFlashRead hw field)
      (fun old s => old = window F field.start field.length ∧ P s) P := by
  refine triple_bind (triple_flashProbe h) fun _ => triple_ite (fun _ => ?_) fun _ => ?_
  · exact triple_throw fun _ hs => hs
  · intro s hs
    exact ⟨by rw [hF s hs], hs⟩

theorem triple_mnfFlashWriteInit :
    Triple (FlashIs F) (mnfFlashWriteInit hw) (fun _ => Loaded F []) (FlashIs F) := by
  refine triple_bind (triple_flashProbe fun _ hs => hs) fun _ => ?_
  cases hw.readAllFails with
  | some junk =>
    have hjunk : Triple (FlashIs F) (modify fun s => { s with cache := junk })
        (fun _ => FlashIs F) (FlashIs F) := triple_modify fun _ hs => hs
    exact triple_bind hjunk fun _ => triple_throw fun _ hs => hs
  | none =>
    refine triple_modify fun s hs => ⟨hs, fun i _ => ?_⟩
    change s.flash (mnfInfoStart + i) = F (mnfInfoStart + i)
    rw [hs]

/-- Patching the cache is making the update. -/
theorem triple_mnfFlashWrite {buf : Text} (hlen : buf.length = field.length) :
    Triple (Loaded F ws) (mnfFlashWrite field buf) (fun _ => Loaded F (ws ++ [(field, buf)]))
      (FlashIs F) := by
  refine triple_modify fun s hs => ⟨hs.1, fun i hi => ?_⟩
  rw [written, putAll_concat, List.take_of_length_le (by omega), MnfField.start]
  change put s.cache field.offset buf i =
    put (written F ws) (mnfInfoStart + field.offset) buf (mnfInfoStart + i)
  by_cases hin : field.offset ≤ i ∧ i < field.offset + buf.length
  · obtain ⟨j, rfl⟩ := Nat.exists_eq_add_of_le hin.1
    have hj : j < buf.length := by omega
    rw [put_add hj, ← Nat.add_assoc, put_add hj]
  · have hout : i < field.offset ∨ field.offset + buf.length ≤ i := by omega
    rw [put_of_outside hout, put_of_outside (by omega)]
    exact hs.2 i hi

/-- The partition is written back with all updates, and nothing else changes. -/
theorem triple_mnfFlashWriteFinalize (herase : hw.eraseFails = none)
    (hwrite : hw.writeFails = none) (hgood : ws.Good) :
    Triple (Loaded F ws) (mnfFlashWriteFinalize hw) (fun _ => FlashIs (written F ws))
      (FlashIs F) := by
  rw [mnfFlashWriteFinalize, herase, hwrite]
  intro s hs
  change (fun a => if InPartition a then (if InPartition a then 0xff else s.flash a) &&&
    s.cache (a - mnfInfoStart) else if InPartition a then 0xff else s.flash a) = written F ws
  funext a
  by_cases ha : InPartition a
  · obtain ⟨hlo, hhi⟩ := ha
    have hcache := hs.2 (a - mnfInfoStart) (by omega)
    rw [if_pos ⟨hlo, hhi⟩, if_pos ⟨hlo, hhi⟩, hcache, Nat.add_sub_cancel' hlo]
    exact UInt8.neg_one_and
  · rw [if_neg ha, if_neg ha, hs.1]
    refine (putAll_eq_self hgood.1 fun w hw => ?_).symm
    have hin := hgood.2 w hw
    rw [MnfField.Inside] at hin
    rw [InPartition, not_and_or] at ha
    rw [MnfField.start]
    omega

end Driver

end Mnf
