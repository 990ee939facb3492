/-
From a flash configuration to the commands for it (`Pack.__gen_flash_script`).

The sections are gone through in order.  What the images directory holds is known through
`Shell` only, since the packer writes padded copies into it on the way.

* `flashSection` — a round of the loop;
* `flashSection_cases` — a round leaves an excluded section alone, passes over one whose
  partition is not in the table, or adds its commands;
* `Planned.commands` — the commands a section is flashed with.
-/
import OpenMptcpRouter.Lib.Rounds
import OpenMptcpRouter.Lib.Sha1
import OpenMptcpRouter.Pack.Script
import OpenMptcpRouter.Smem.Table

namespace Pack

open Hush Rounds Sha1 Smem

/-- A section of the flash configuration; an option that is missing is `none`. -/
structure Section where
  name : Text
  filename : Option Text := none
  partition : Option Text := none
  /-- `include`, `yes` unless the file says otherwise -/
  inclusion : Text := "yes".toList
  primary : Option Text := none
  /-- `if_machid`, as `int` reads it when it can -/
  ifMachid : Option (Option ℤ) := none
  layout : Option Text := none
  yaffs : Option Text := none

/-- The images directory `σ`: the sizes of its files, and the two commands run in it. -/
structure Shell (σ : Type) where
  getsize : σ → Text → Option ℕ
  /-- `cat A > B` -/
  cat : σ → Text → Text → Option σ
  /-- `dd if=/dev/zero count=1 bs=N >> B`, through `tr` for NAND -/
  dd : σ → ℤ → Bool → Text → Option σ

/-- A directory as the sizes of its files. -/
def sizesShell : Shell (Text → Option ℕ) where
  getsize disk filename := disk filename
  cat disk source target := (disk source).map fun size => Function.update disk target (some size)
  dd disk count _ target :=
    (disk target).map fun size => Function.update disk target (some (size + count.toNat))

/-- `lower`; no other character than these is a letter of `no`, `none` or `yes` in lower
case. -/
def lower (text : Text) : Text := text.map Char.toLower

/-- The section is not switched off. -/
def Section.included (sec : Section) : Bool :=
  lower sec.inclusion ≠ "0".toList ∧ lower sec.inclusion ≠ "no".toList

/-- `primary`, or `"0"`. -/
def Section.primaryName (sec : Section) : Text := sec.primary.getD "0".toList

/-- `"error getting image info in section '%s'"`. -/
def infoError (sec : Section) : Text :=
  "error getting image info in section '".toList ++ sec.name ++ ['\'']

/-- `__get_machid`, with the number in hexadecimal. -/
def getMachid (sec : Section) : Except Text (Option Text) :=
  match sec.ifMachid with
  | none => .ok none
  | some (some machid) => .ok (some (hex machid))
  | some none => .error "invalid value for machid, should be integer".toList

/-- `__get_layout`; `ipq_nand` is `False` for every board. -/
def getLayout (sec : Section) : Except Text Unit :=
  match sec.layout with
  | none => .ok ()
  | some _ => .error "layout specified for a non IPQ device".toList

/-- `__get_yaffs`. -/
def getYaffs (fl : FlashInfo) (sec : Section) : Except Text Bool := do
  let yaffs ← match sec.yaffs with
    | none => Except.ok false
    | some text =>
      if lower text = "0".toList ∨ lower text = "no".toList then .ok false
      else if lower text = "1".toList ∨ lower text = "yes".toList then .ok true
      else .error ("invalid value for 'yaffs' in '".toList ++ sec.name ++ ['\''])
  if fl.type = .nor ∧ yaffs then .error "yaffs cannot be used with NOR flash type".toList
  else return yaffs

variable {σ : Type}

/-- `__get_img_size`. -/
def getImgSize (sh : Shell σ) (disk : σ) (filename : Text) : Except Text ℕ :=
  if lower filename = "none".toList then .ok 0
  else
    match sh.getsize disk filename with
    | some size => .ok size
    | none => .error ("error getting image size '".toList ++ filename ++ ['\''])

/-- The size of the image rounded up to a page or a block, for the types that pad. -/
def paddedSize (fl : FlashInfo) (imgSize : ℕ) : Except Text ℤ :=
  match fl.type with
  | .nand => roundup imgSize fl.pagesize
  | .emmc => roundup imgSize fl.blocksize
  | .nor | .norplusnand => .ok imgSize

/-- The name of the padded copy. -/
def paddedName (filename : Text) : Text := filename ++ ".padded".toList

/-- The file that is packed for an image: the padded copy when there is one. -/
def packedFile (filename : Text) (imgSize : ℕ) (size : ℤ) : Text :=
  if size ≠ imgSize then paddedName filename else filename

/-- The padded copy is written. -/
def writePadded (sh : Shell σ) (fl : FlashInfo) (disk : σ) (filename : Text) (imgSize : ℕ)
    (size : ℤ) : Except Text σ :=
  if size ≠ imgSize then
    match sh.cat disk filename (paddedName filename) with
    | none => .error "failed to copy image".toList
    | some disk =>
      match sh.dd disk (size - imgSize) (fl.type = .nand) (paddedName filename) with
      | none => .error "failed to create padded image from script".toList
      | some disk => .ok disk
  else .ok disk

/-- The checks on the size of the image and on the number of NAND images. -/
def checkSize (fl : FlashInfo) (sec : Section) (partInfo : Option PartInfo) (imgSize count : ℕ) :
    Except Text Unit :=
  if fl.type ≠ .emmc then
    match partInfo with
    | none =>
      if fl.type = .norplusnand ∧ 2 < count then
        .error "More than 2 NAND images for NOR+NAND is not allowed".toList
      else .ok ()
    | some part =>
      if part.length < imgSize then
        .error ("img size is larger than part. len in '".toList ++ sec.name ++ ['\''])
      else .ok ()
  else
    match partInfo with
    | none => .ok ()
    | some part =>
      if 0 < imgSize ∧ part.length * fl.blocksize < imgSize then
        .error ("img size is larger than part. len in '".toList ++ sec.name ++ ['\''])
      else .ok ()

/-- `norplusnand_rootfs_img_size`. -/
def norplusnandRootfsImgSize : ℕ := 64 * 1024 * 1024

/-- The name of an image: its section and the hash of its file. -/
def imageName (sec filename : Text) : Text := sec ++ ['-'] ++ sha1 filename

/-- What is known of an included section when its commands are written. -/
structure Planned where
  sec : Section
  filename : Text
  machid : Option Text
  yaffs : Bool
  imgSize : ℕ
  size : ℤ
  partInfo : Option PartInfo

/-- The section an image is extracted for: the primary one, where it is named. -/
def Section.imageSection (sec : Section) : Text :=
  if sec.primaryName ≠ "0".toList then sec.primaryName else sec.name

/-- The image that `imxtract` asks for. -/
def Planned.image (p : Planned) : Text :=
  imageName p.sec.imageSection (packedFile p.filename p.imgSize p.size)

/-- The erase and write commands of a section. -/
def flashCommands (script : FlashScript) (p : Planned) (count : ℕ) : Except Text FlashScript :=
  match p.partInfo with
  | none =>
    script.nandWrite (count * norplusnandRootfsImgSize : ℕ) norplusnandRootfsImgSize p.imgSize
  | some part =>
    if part.whichFlash = 0 then do
      let script ← script.erase part.offset part.length
      script.write part.offset p.imgSize p.yaffs
    else script.nandWrite part.offset part.length p.imgSize

/-- The commands of a section, from `start_if` to `end_if`. -/
def emitSection (script : FlashScript) (p : Planned) (count : ℕ) : Except Text FlashScript := do
  let script := match p.machid with
    | some machid => script.startIf "machid".toList machid
    | none => script
  let script := script.startActivity ("Flashing ".toList ++ p.sec.name ++ [':'])
  let script := if 0 < p.imgSize then script.imxtract p.image else script
  let script ← flashCommands script p count
  let script := script.finishActivity
  return if p.machid.isSome then script.endIf else script

/-- What the loop over the sections changes. -/
structure GenState (σ : Type) where
  disk : σ
  script : FlashScript
  count : ℕ := 0
  /-- `part_info` of the last included section -/
  partInfo : Option (Option PartInfo) := none

/-- The options of an included section, its image and its partition, and the images
directory with the padded copy. -/
def plan (sh : Shell σ) (fl : FlashInfo) (partitions : Text → Option PartInfo) (disk : σ)
    (count : ℕ) (sec : Section) (filename partition : Text) : Except Text (Planned × σ) := do
  let machid ← getMachid sec
  getLayout sec
  let yaffs ← getYaffs fl sec
  let imgSize ← getImgSize sh disk filename
  let size ← paddedSize fl imgSize
  let disk ← writePadded sh fl disk filename imgSize size
  checkSize fl sec (partitions partition) imgSize count
  return ⟨⟨sec, filename, machid, yaffs, imgSize, size, partitions partition⟩, disk⟩

/-- A section without an entry in the table is flashed for NOR+NAND only. -/
def skipped (fl : FlashInfo) (partInfo : Option PartInfo) : Bool :=
  partInfo.isNone && fl.type != .norplusnand

/-- A round of the loop in `__gen_flash_script`. -/
def flashSection (sh : Shell σ) (fl : FlashInfo) (partitions : Text → Option PartInfo)
    (st : GenState σ) (sec : Section) : Except Text (GenState σ) :=
  match sec.filename, sec.partition with
  | some filename, some partition =>
    if sec.included then do
      let (p, disk) ← plan sh fl partitions st.disk st.count sec filename partition
      if skipped fl p.partInfo then
        return { st with disk, partInfo := some p.partInfo }
      else
        let script ← emitSection st.script p st.count
        return ⟨disk, script, if p.partInfo.isNone then st.count + 1 else st.count,
          some p.partInfo⟩
    else .ok st
  | _, _ => .error (infoError sec)

/-- `__gen_flash_script`. -/
def genFlashScript (sh : Shell σ) (fl : FlashInfo) (partitions : Text → Option PartInfo)
    (disk : σ) (script : FlashScript) (sections : List Section) : Except Text (GenState σ) := do
  let st ← sections.foldlM (flashSection sh fl partitions) { disk, script }
  match st.partInfo with
  | none => .error "local variable 'part_info' referenced before assignment".toList
  | some partInfo =>
    return if skipped fl partInfo then st else { st with script := st.script.end }

/-! ### A round of the loop -/

section Round

variable {sh : Shell σ} {fl : FlashInfo} {partitions : Text → Option PartInfo}

/-- The erase and write commands a section is flashed with, as the `count`-th NAND image
where it has no entry in the table. -/
def Planned.flash (fl : FlashInfo) (device : ℕ) (p : Planned) (count : ℕ) : List Command :=
  match p.partInfo with
  | none =>
    nandWriteCommands device (count * norplusnandRootfsImgSize : ℕ) norplusnandRootfsImgSize
      p.imgSize
  | some part =>
    if part.whichFlash = 0 then
      eraseCommand fl part.offset part.length :: writeCommands fl part.offset p.imgSize p.yaffs
    else nandWriteCommands device part.offset part.length p.imgSize

/-- All commands for a section. -/
def Planned.commands (fl : FlashInfo) (device : ℕ) (p : Planned) (count : ℕ) : List Command :=
  (if 0 < p.imgSize then [.imxtract p.image] else []) ++ p.flash fl device count

/-- The conditions under which the script object can flash a section. -/
def Planned.Flashable (fl : FlashInfo) (p : Planned) : Prop :=
  match p.partInfo with
  | none => fl.type = .nor ∨ fl.type = .norplusnand
  | some part =>
    if part.whichFlash = 0 then fl.type ≠ .emmc → fl.blocksize ≠ 0
    else fl.type = .nor ∨ fl.type = .norplusnand

theorem extends_flashCommands {s t : FlashScript} {p : Planned} {count : ℕ}
    (h : flashCommands s p count = .ok t) :
    Extends s t (p.flash s.flinfo s.device count) ∧ p.Flashable s.flinfo := by
  rw [flashCommands] at h
  rw [Planned.flash, Planned.Flashable]
  cases hpart : p.partInfo with
  | none =>
    rw [hpart] at h
    exact extends_nandWrite h
  | some part =>
    rw [hpart] at h
    dsimp only at h ⊢
    by_cases hchip : part.whichFlash = 0
    · rw [if_pos hchip] at h
      rw [if_pos hchip, if_pos hchip]
      obtain ⟨s', herase, hwrite⟩ := bind_eq_ok.mp h
      obtain ⟨hs', hblock⟩ := extends_erase herase
      have ht := extends_write hwrite
      rw [hs'.2.1] at ht
      exact ⟨hs'.trans ht, hblock⟩
    · rw [if_neg hchip] at h
      rw [if_neg hchip, if_neg hchip]
      exact extends_nandWrite h

theorem extends_emitSection {s t : FlashScript} {p : Planned} {count : ℕ}
    (h : emitSection s p count = .ok t) :
    Extends s t (p.commands s.flinfo s.device count) ∧ p.Flashable s.flinfo := by
  rw [emitSection] at h
  obtain ⟨u, hflash, hrest⟩ := bind_eq_ok.mp h
  obtain ⟨hu, hable⟩ := extends_flashCommands hflash
  set s₁ := match p.machid with
    | some machid => s.startIf "machid".toList machid
    | none => s with hs₁
  set s₂ := s₁.startActivity ("Flashing ".toList ++ p.sec.name ++ [':']) with hs₂
  set s₃ := if 0 < p.imgSize then s₂.imxtract p.image else s₂ with hs₃
  -- up to the erase, only `imxtract` is no chatter
  have h₁ : Extends s s₁ [] := by
    rw [hs₁]
    cases p.machid with
    | none => exact Extends.refl s
    | some machid => exact extends_startIf s _ _
  have h₂ : Extends s₁ s₂ [] := extends_startActivity s₁ _
  have h₃ : Extends s₂ s₃ (if 0 < p.imgSize then [.imxtract p.image] else []) := by
    rw [hs₃]
    split
    · exact extends_imxtract s₂ _
    · exact Extends.refl s₂
  have hsofar := (h₁.trans h₂).trans h₃
  have hfinish : Extends u t [] := by
    have hclose : t = if p.machid.isSome then u.finishActivity.endIf else u.finishActivity :=
      (Except.ok.inj hrest).symm
    rw [hclose]
    split
    · exact (extends_finishActivity u).trans (extends_endIf _)
    · exact extends_finishActivity u
  have hdevice : s₃.device = s.device := by
    rw [FlashScript.device, FlashScript.device, hsofar.2.2]
  rw [hsofar.2.1, hdevice] at hu
  rw [hsofar.2.1] at hable
  refine ⟨?_, hable⟩
  have hall := (hsofar.trans hu).trans hfinish
  rwa [List.append_nil, List.nil_append, List.nil_append] at hall

/-- What a plan has been checked for. -/
structure PlanSpec (sh : Shell σ) (fl : FlashInfo) (partitions : Text → Option PartInfo)
    (disk : σ) (count : ℕ) (sec : Section) (filename partition : Text) (p : Planned) (disk' : σ) :
    Prop where
  sec_eq : p.sec = sec
  filename_eq : p.filename = filename
  machid : getMachid sec = .ok p.machid
  partInfo_eq : p.partInfo = partitions partition
  imgSize : getImgSize sh disk filename = .ok p.imgSize
  size : paddedSize fl p.imgSize = .ok p.size
  padded : writePadded sh fl disk filename p.imgSize p.size = .ok disk'
  checked : checkSize fl sec p.partInfo p.imgSize count = .ok ()

theorem plan_spec {disk disk' : σ} {count : ℕ} {sec : Section} {filename partition : Text}
    {p : Planned} (h : plan sh fl partitions disk count sec filename partition = .ok (p, disk')) :
    PlanSpec sh fl partitions disk count sec filename partition p disk' := by
  obtain ⟨machid, hmachid, h⟩ := bind_eq_ok.mp h
  obtain ⟨-, -, h⟩ := bind_eq_ok.mp h
  obtain ⟨yaffs, -, h⟩ := bind_eq_ok.mp h
  obtain ⟨imgSize, himg, h⟩ := bind_eq_ok.mp h
  obtain ⟨size, hsize, h⟩ := bind_eq_ok.mp h
  obtain ⟨disk₁, hpad, h⟩ := bind_eq_ok.mp h
  obtain ⟨_, hcheck, h⟩ := bind_eq_ok.mp h
  cases h
  exact ⟨rfl, rfl, hmachid, rfl, himg, hsize, hpad, hcheck⟩

variable {st st' : GenState σ} {sec : Section}

/-- An included section with its plan. -/
structure Plans (sh : Shell σ) (fl : FlashInfo) (partitions : Text → Option PartInfo)
    (st : GenState σ) (sec : Section) (p : Planned) (disk : σ) : Prop where
  included : sec.included = true
  options : ∃ filename partition, sec.filename = some filename ∧ sec.partition = some partition ∧
    PlanSpec sh fl partitions st.disk st.count sec filename partition p disk

/-- **A round leaves an excluded section alone, passes over one without an entry, or adds
the commands of the section.** -/
theorem flashSection_cases (h : flashSection sh fl partitions st sec = .ok st') :
    sec.included = false ∧ st' = st ∨
    (∃ p disk, Plans sh fl partitions st sec p disk ∧ skipped fl p.partInfo = true ∧
      st' = { st with disk, partInfo := some p.partInfo }) ∨
    ∃ p disk script, Plans sh fl partitions st sec p disk ∧ skipped fl p.partInfo = false ∧
      emitSection st.script p st.count = .ok script ∧
      st' = ⟨disk, script, if p.partInfo.isNone then st.count + 1 else st.count,
        some p.partInfo⟩ := by
  rw [flashSection] at h
  rcases hfile : sec.filename with _ | filename
  · rw [hfile] at h
    cases h
  rcases hpart : sec.partition with _ | partition
  · rw [hfile, hpart] at h
    cases h
  rw [hfile, hpart] at h
  dsimp only at h
  cases hincl : sec.included with
  | false =>
    rw [hincl] at h
    cases h
    exact Or.inl ⟨rfl, rfl⟩
  | true =>
    rw [hincl, if_pos rfl] at h
    obtain ⟨⟨p, disk⟩, hplan, h⟩ := bind_eq_ok.mp h
    have hplans : Plans sh fl partitions st sec p disk :=
      ⟨hincl, filename, partition, hfile, hpart, plan_spec hplan⟩
    dsimp only at h
    cases hskip : skipped fl p.partInfo with
    | true =>
      rw [hskip, if_pos rfl] at h
      cases h
      exact Or.inr (Or.inl ⟨p, disk, hplans, hskip, rfl⟩)
    | false =>
      rw [hskip, if_neg (by decide)] at h
      obtain ⟨script, hemit, h⟩ := bind_eq_ok.mp h
      cases h
      exact Or.inr (Or.inr ⟨p, disk, script, hplans, hskip, hemit, rfl⟩)

end Round

end Pack
