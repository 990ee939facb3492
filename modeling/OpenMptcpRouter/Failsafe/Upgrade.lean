/-
The dual-slot upgrade (`lib/upgrade/ipq_failsafe.sh`).

Every section of the FIT image goes to a partition.  Where the partition has two slots,
the section is written to the one that is not booted from, and the `primaryboot` flag of
the partition is flipped so that the next boot takes it.  In the end the flags are saved
in `0:BOOTCONFIG`.  Exit codes of the flash commands are looked at nowhere.

* `primaryboot_run` — a flag is flipped once for every section of its partition, whether
  its commands succeed or not;
* `mem_written_run` — a slot is written when the commands of some section for it succeed;
* `commits_iff` — **the saved flags tell what was written exactly when, for every
  partition with two slots, the sections for it are odd in number if one of them was
  written, and even if none was.**
-/
import Mathlib.Algebra.Ring.Parity
import Mathlib.Data.List.Basic

namespace Failsafe

/-- A text, character by character. -/
abbrev Text := List Char

/-- What the script finds on the device. -/
structure System where
  /-- `board_name` -/
  board : Text
  /-- the partition is in `/proc/mtd` -/
  inMtd : Text → Bool
  /-- the partition is on the eMMC -/
  onEmmc : Text → Bool
  /-- `/proc/boot_info/P/upgradepartition`: the slot that was inactive at boot -/
  upgradepartition : Text → Option Text
  /-- `/proc/boot_info/getbinary_B` exists -/
  bootInfo : Text → Bool

/-- Whether the first and the second flash command for a section succeed. -/
structure Status where
  first : Bool
  second : Bool
  deriving DecidableEq, Repr

/-- The flags, the slots completely written so far, and the flags in `0:BOOTCONFIG`. -/
structure State where
  primaryboot : Text → Bool
  written : List Text
  saved : Text → Bool

/-- The slot now holds all of the image. -/
def State.write (s : State) (mtdname : Text) : State := { s with written := mtdname :: s.written }

/-- `if [ $primaryboot -eq 0 ]; then echo 1 ...; else echo 0 ...` -/
def State.flip (s : State) (mtdname : Text) : State :=
  { s with primaryboot := Function.update s.primaryboot mtdname (!s.primaryboot mtdname) }

/-- `do_flash_mtd`: `dd`, piped into `mtd write`. -/
def doFlashMtd (s : State) (mtdname : Text) (st : Status) : State :=
  if st.first && st.second then s.write mtdname else s

/-- `do_flash_emmc`: one `dd` of zeros, one of the image. -/
def doFlashEmmc (s : State) (mtdname : Text) (st : Status) : State :=
  if st.second then s.write mtdname else s

/-- `do_flash_partition`. -/
def doFlashPartition (sys : System) (s : State) (mtdname : Text) (st : Status) : State :=
  if sys.onEmmc mtdname then doFlashEmmc s mtdname st else doFlashMtd s mtdname st

/-- `do_flash_failsafe_partition`. -/
def doFlashFailsafePartition (sys : System) (s : State) (mtdname : Text) (st : Status) : State :=
  match sys.upgradepartition mtdname with
  | some slot => doFlashPartition sys (s.flip mtdname) slot st
  | none => doFlashPartition sys s mtdname st

/-- `do_flash_ubi`: one `ubiformat`. -/
def doFlashUbi (sys : System) (s : State) (mtdname : Text) (st : Status) : State :=
  match sys.upgradepartition mtdname with
  | some slot => if st.first then (s.flip mtdname).write slot else s.flip mtdname
  | none => if st.first then s.write mtdname else s

/-- The functions `flash_section` calls. -/
inductive Flasher
  | failsafePartition | ubi
  deriving DecidableEq, Repr

/-- The partition `do_flash_tz` takes. -/
def tzPartition (sys : System) : Text :=
  if sys.inMtd "0:QSEE".toList || sys.onEmmc "0:QSEE".toList then "0:QSEE".toList
  else "0:TZ".toList

/-- The `case` of `flash_section`: the function, and the partition it is called for. -/
def sectionTarget (sys : System) (sec : Text) : Option (Flasher × Text) :=
  if "hlos".toList.isPrefixOf sec then some (.failsafePartition, "0:HLOS".toList)
  else if "rootfs".toList.isPrefixOf sec then some (.failsafePartition, "rootfs".toList)
  else if "fs".toList.isPrefixOf sec then some (.failsafePartition, "rootfs".toList)
  else if "ubi".toList.isPrefixOf sec then some (.ubi, "rootfs".toList)
  else if "u-boot".toList.isPrefixOf sec then some (.failsafePartition, "0:APPSBL".toList)
  else if ("ddr-".toList ++ sys.board ++ "-".toList).isPrefixOf sec then
    some (.failsafePartition, "0:CDT".toList)
  else if "tz".toList.isPrefixOf sec then some (.failsafePartition, tzPartition sys)
  else none

/-- `flash_section`. -/
def flashSection (sys : System) (s : State) (sec : Text) (st : Status) : State :=
  match sectionTarget sys sec with
  | some (.failsafePartition, mtdname) => doFlashFailsafePartition sys s mtdname st
  | some (.ubi, mtdname) => doFlashUbi sys s mtdname st
  | none => s

/-- `do_flash_bootconfig bootconfig "0:BOOTCONFIG"`.  A write that fails leaves `torn`
flags behind. -/
def doFlashBootconfig (sys : System) (s : State) (st : Status) (torn : Text → Bool) : State :=
  if sys.bootInfo "bootconfig".toList then
    let done := if sys.onEmmc "0:BOOTCONFIG".toList then st.second else st.first && st.second
    { s with saved := if done then s.primaryboot else torn }
  else s

/-- The sections of an image, each with the fate of its flash commands. -/
abbrev Run := List (Text × Status)

/-- The loop over the sections. -/
def flashSections (sys : System) (s : State) (run : Run) : State :=
  run.foldl (fun s e => flashSection sys s e.1 e.2) s

/-- `platform_do_upgrade_ipq`, from the flags at boot. -/
def platformDoUpgradeIpq (sys : System) (boot : Text → Bool) (run : Run) (st : Status)
    (torn : Text → Bool) : State :=
  let s : State := ⟨boot, [], boot⟩
  if sys.board = "teltonika,rutx".toList then
    doFlashBootconfig sys (flashSections sys s run) st torn
  else s

/-! ### What a run does to a partition -/

/-- The section is flashed to partition `p`. -/
def Targets (sys : System) (p sec : Text) : Prop :=
  (sectionTarget sys sec).map Prod.snd = some p

instance (sys : System) (p sec : Text) : Decidable (Targets sys p sec) := by
  unfold Targets; infer_instance

/-- The slot a section is written to. -/
def destination (sys : System) (sec : Text) : Option Text :=
  (sectionTarget sys sec).map fun t => (sys.upgradepartition t.2).getD t.2

/-- The commands that carry the section's image succeed. -/
def Completes (sys : System) (sec slot : Text) (st : Status) : Bool :=
  match sectionTarget sys sec with
  | some (.ubi, _) => st.first
  | _ => if sys.onEmmc slot then st.second else st.first && st.second

/-- Some section of the run is written to the slot completely. -/
def WrittenBy (sys : System) (run : Run) (slot : Text) : Prop :=
  ∃ e ∈ run, destination sys e.1 = some slot ∧ Completes sys e.1 slot e.2 = true

instance (sys : System) (run : Run) (slot : Text) : Decidable (WrittenBy sys run slot) := by
  unfold WrittenBy; infer_instance

/-- How many sections are flashed to `p`. -/
def sectionsOf (sys : System) (run : Run) (p : Text) : ℕ :=
  run.countP fun e => decide (Targets sys p e.1)

section Step

variable {sys : System} {s : State} {sec p slot : Text} {st : Status}

@[simp] theorem write_primaryboot : (s.write slot).primaryboot = s.primaryboot := rfl

@[simp] theorem flip_written : (s.flip p).written = s.written := rfl

theorem doFlashPartition_eq : doFlashPartition sys s slot st =
    if (if sys.onEmmc slot then st.second else st.first && st.second) then s.write slot else s := by
  rw [doFlashPartition]
  split <;> rfl

/-- What a section does: it flips the flag of its partition when that has two slots, and
then writes its slot when the commands succeed. -/
theorem flashSection_eq : flashSection sys s sec st =
    match sectionTarget sys sec with
    | none => s
    | some (_, mtdname) =>
      let s' := if (sys.upgradepartition mtdname).isSome then s.flip mtdname else s
      let slot := (sys.upgradepartition mtdname).getD mtdname
      if Completes sys sec slot st then s'.write slot else s' := by
  rw [flashSection]
  rcases htarget : sectionTarget sys sec with _ | ⟨_ | _, mtdname⟩
  · rfl
  · dsimp only
    rw [doFlashFailsafePartition]
    rcases sys.upgradepartition mtdname with _ | slot <;>
      simp [doFlashPartition_eq, Completes, htarget]
  · dsimp only
    rw [doFlashUbi]
    rcases sys.upgradepartition mtdname with _ | slot <;> simp [Completes, htarget]

/-- One section, seen from a partition with two slots. -/
theorem primaryboot_flashSection (hslots : (sys.upgradepartition p).isSome) :
    (flashSection sys s sec st).primaryboot p =
      if Targets sys p sec then !s.primaryboot p else s.primaryboot p := by
  rw [flashSection_eq]
  rcases htarget : sectionTarget sys sec with _ | ⟨f, mtdname⟩
  · simp [Targets, htarget]
  · have hwrite : ∀ (c : Bool) (s' : State) (slot : Text),
        (if c then s'.write slot else s').primaryboot = s'.primaryboot := by
      intro c s' slot
      cases c <;> rfl
    dsimp only
    rw [hwrite]
    by_cases hp : mtdname = p
    · subst hp
      simp [Targets, htarget, hslots, State.flip]
    · have hne : p ≠ mtdname := Ne.symm hp
      split <;> simp [Targets, htarget, hp, hne, State.flip]

/-- One section, seen from a slot. -/
theorem mem_written_flashSection :
    slot ∈ (flashSection sys s sec st).written ↔
      slot ∈ s.written ∨ destination sys sec = some slot ∧ Completes sys sec slot st = true := by
  rw [flashSection_eq]
  rcases htarget : sectionTarget sys sec with _ | ⟨f, mtdname⟩
  · simp [destination, htarget]
  · have hflip : ∀ c : Bool, (if c then s.flip mtdname else s).written = s.written := by
      intro c
      cases c <;> rfl
    dsimp only
    rw [destination, htarget, Option.map_some, Option.some.injEq]
    generalize (sys.upgradepartition mtdname).getD mtdname = dest
    by_cases hc : Completes sys sec dest st
    · rw [if_pos hc, State.write, hflip, List.mem_cons]
      constructor
      · rintro (rfl | h)
        · exact Or.inr ⟨rfl, hc⟩
        · exact Or.inl h
      · rintro (h | ⟨rfl, -⟩)
        · exact Or.inr h
        · exact Or.inl rfl
    · rw [if_neg hc, hflip]
      constructor
      · exact Or.inl
      · rintro (h | ⟨rfl, h⟩)
        · exact h
        · exact absurd h hc

end Step

section Runs

variable {sys : System} {s : State} {run : Run} {p slot : Text}

/-- **A flag is flipped once for every section of its partition.** -/
theorem primaryboot_run (hslots : (sys.upgradepartition p).isSome) :
    (flashSections sys s run).primaryboot p =
      (s.primaryboot p ^^ decide (Odd (sectionsOf sys run p))) := by
  induction run generalizing s with
  | nil => simp [flashSections, sectionsOf]
  | cons e run ih =>
    have hstep : flashSections sys s (e :: run) =
        flashSections sys (flashSection sys s e.1 e.2) run := rfl
    rw [hstep, ih, primaryboot_flashSection hslots]
    by_cases ht : Targets sys p e.1
    · have hcount : sectionsOf sys (e :: run) p = sectionsOf sys run p + 1 := by
        simp [sectionsOf, ht]
      rw [if_pos ht, hcount]
      by_cases hodd : Odd (sectionsOf sys run p)
      · have heven : ¬ Odd (sectionsOf sys run p + 1) := by
          rw [Nat.not_odd_iff_even]
          exact hodd.add_one
        simp [hodd, heven]
      · have hodd' : Odd (sectionsOf sys run p + 1) := (Nat.not_odd_iff_even.mp hodd).add_one
        simp [hodd, hodd']
    · have hcount : sectionsOf sys (e :: run) p = sectionsOf sys run p := by
        simp [sectionsOf, ht]
      rw [if_neg ht, hcount]

/-- **A slot is written when the commands of some section for it succeed.** -/
theorem mem_written_run :
    slot ∈ (flashSections sys s run).written ↔ slot ∈ s.written ∨ WrittenBy sys run slot := by
  induction run generalizing s with
  | nil => simp [flashSections, WrittenBy]
  | cons e run ih =>
    have hstep : flashSections sys s (e :: run) =
        flashSections sys (flashSection sys s e.1 e.2) run := rfl
    rw [hstep, ih, mem_written_flashSection, or_assoc]
    simp [WrittenBy]

/-- Sections do not touch the flags in `0:BOOTCONFIG`. -/
theorem saved_run : (flashSections sys s run).saved = s.saved := by
  induction run generalizing s with
  | nil => rfl
  | cons e run ih =>
    have hstep : (flashSection sys s e.1 e.2).saved = s.saved := by
      rw [flashSection_eq]
      rcases sectionTarget sys e.1 with _ | ⟨f, mtdname⟩
      · rfl
      · dsimp only
        split <;> split <;> rfl
    exact ih.trans hstep

end Runs

section Commit

variable {sys : System} {boot torn : Text → Bool} {run : Run} {st : Status}

/-- The write of `0:BOOTCONFIG` succeeds. -/
def BootconfigWritten (sys : System) (st : Status) : Prop :=
  (if sys.onEmmc "0:BOOTCONFIG".toList then st.second else st.first && st.second) = true

instance (sys : System) (st : Status) : Decidable (BootconfigWritten sys st) :=
  instDecidableEqBool _ _

/-- The saved flags differ from those at boot for the partitions whose slot was written,
and for no others. -/
def CommitsWritten (sys : System) (boot : Text → Bool) (final : State) : Prop :=
  ∀ p slot, sys.upgradepartition p = some slot →
    (final.saved p ≠ boot p ↔ slot ∈ final.written)

/-- How the sections for a partition and their commands have to turn out: with the flags
saved, the sections are odd in number exactly if one of them is written.  With no file to
save, none may be written; and flags torn by a failed write have to be right by chance. -/
def Consistent (sys : System) (boot torn : Text → Bool) (run : Run) (st : Status) : Prop :=
  ∀ p slot, sys.upgradepartition p = some slot →
    if sys.bootInfo "bootconfig".toList then
      if BootconfigWritten sys st then Odd (sectionsOf sys run p) ↔ WrittenBy sys run slot
      else (torn p ≠ boot p ↔ WrittenBy sys run slot)
    else ¬ WrittenBy sys run slot

/-- **An upgrade commits what it wrote exactly in consistent runs.** -/
theorem commits_iff (hboard : sys.board = "teltonika,rutx".toList) :
    CommitsWritten sys boot (platformDoUpgradeIpq sys boot run st torn) ↔
      Consistent sys boot torn run st := by
  rw [platformDoUpgradeIpq, if_pos hboard]
  generalize hs : flashSections sys ⟨boot, [], boot⟩ run = s
  have hwritten : ∀ slot, slot ∈ s.written ↔ WrittenBy sys run slot := by
    intro slot
    rw [← hs, mem_written_run]
    simp
  -- every section of a partition turns its flag around once
  have hflag : ∀ p, (sys.upgradepartition p).isSome →
      (s.primaryboot p ≠ boot p ↔ Odd (sectionsOf sys run p)) := by
    intro p hp
    rw [← hs, primaryboot_run hp]
    change (boot p ^^ decide _) ≠ boot p ↔ _
    generalize boot p = flag
    cases flag <;> simp
  have hsaved : s.saved = boot := by
    rw [← hs]
    exact saved_run
  refine forall_congr' fun p => forall_congr' fun slot => forall_congr' fun hslot => ?_
  have hp : (sys.upgradepartition p).isSome := by rw [hslot]; rfl
  rw [doFlashBootconfig]
  by_cases hfile : sys.bootInfo "bootconfig".toList
  · rw [if_pos hfile, if_pos hfile]
    dsimp only
    rw [hwritten]
    change ((if BootconfigWritten sys st then s.primaryboot else torn) p ≠ boot p ↔ _) ↔ _
    by_cases hbc : BootconfigWritten sys st
    · rw [if_pos hbc, if_pos hbc, hflag p hp]
    · rw [if_neg hbc, if_neg hbc]
  · rw [if_neg hfile, if_neg hfile, hsaved, hwritten]
    simp

end Commit

/-- A device as it leaves the factory, `rootfs` and `0:HLOS` with two slots. -/
def exampleSystem : System where
  board := "teltonika,rutx".toList
  inMtd := fun _ => true
  onEmmc := fun _ => false
  upgradepartition := fun p =>
    if p = "rootfs".toList then some "rootfs_1".toList
    else if p = "0:HLOS".toList then some "0:HLOS_1".toList
    else none
  bootInfo := fun _ => true

/-- Commands that succeed. -/
def Status.ok : Status := ⟨true, true⟩

/-- A write that fails is committed all the same; and of an image with `fs` and `ubi`
sections, both for the root file system, nothing is committed. -/
theorem not_commits_written :
    ¬ CommitsWritten exampleSystem (fun _ => false)
        (platformDoUpgradeIpq exampleSystem (fun _ => false) [("ubi".toList, ⟨false, true⟩)] .ok
          fun _ => false) ∧
      ¬ CommitsWritten exampleSystem (fun _ => false)
        (platformDoUpgradeIpq exampleSystem (fun _ => false)
          [("hlos".toList, .ok), ("fs".toList, .ok), ("ubi".toList, .ok)] .ok fun _ => false) := by
  constructor
  · intro h
    exact absurd (h "rootfs".toList "rootfs_1".toList (by decide)) (by decide)
  · intro h
    exact absurd (h "rootfs".toList "rootfs_1".toList (by decide)) (by decide)

theorem commits_iff_hlos_ubi :
    CommitsWritten exampleSystem (fun _ => false)
        (platformDoUpgradeIpq exampleSystem (fun _ => false)
          [("hlos".toList, .ok), ("ubi".toList, .ok)] .ok fun _ => false) ↔
      Consistent exampleSystem (fun _ => false) (fun _ => false)
        [("hlos".toList, .ok), ("ubi".toList, .ok)] .ok :=
  commits_iff rfl

end Failsafe
