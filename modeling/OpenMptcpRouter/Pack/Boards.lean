/-
The packer over all boards (`Pack.main_bconf`).

For every board its flash script is written behind those of the boards before it, and the
images its sections name are collected in one list.  The list goes into the image tree, but
for the images that refer to another one as their primary.

* `genBoardScript` — one board;
* `mainBconf` — all of them, and the nodes of the image tree;
* `round_cases` — what a section of a board adds to its script, and why;
* `genBoardScript_spec` — a script is that of its sections, between a probe and the end.
-/
import OpenMptcpRouter.Pack.Sections

namespace Pack

open Hush Rounds Smem

/-- `ImageInfo`. -/
structure ImageInfo where
  name : Text
  filename : Text
  type : Text
  primary : Text
  deriving DecidableEq

/-- A section of the board configuration with the flash type that is packed, and the files
it names. -/
structure Board where
  machid : ℤ
  flinfo : FlashInfo
  /-- `spi_nand_available`; `"false"` for NAND -/
  spiNand : Text
  partitions : Text → Option PartInfo
  sections : List Section

/-- What is written on the way: the images directory, `flash.scr`, and the list of images. -/
structure Packer (σ : Type) where
  disk : σ
  scr : List (Token Command) := []
  images : List ImageInfo := []

variable {σ : Type}

/-- The file that is packed for an image, as `__gen_script` works it out again. -/
def packedFilename (sh : Shell σ) (fl : FlashInfo) (disk : σ) (filename : Text) :
    Except Text Text :=
  match fl.type with
  | .nand | .emmc => do
    let imgSize ← getImgSize sh disk filename
    let size ← paddedSize fl imgSize
    return packedFile filename imgSize size
  | .nor | .norplusnand => .ok filename

/-- The image of a section. -/
def imageInfo (sec : Section) (filename : Text) : ImageInfo :=
  ⟨imageName sec.name filename, filename, "firmware".toList, sec.primaryName⟩

/-- A round of the loop in `__gen_script`. -/
def collectImage (sh : Shell σ) (fl : FlashInfo) (partitions : Text → Option PartInfo) (disk : σ)
    (images : List ImageInfo) (sec : Section) : Except Text (List ImageInfo) :=
  if sec.included then
    match sec.partition, sec.filename with
    | some partition, some filename =>
      if skipped fl (partitions partition) then .ok images
      else do
        let filename ← packedFilename sh fl disk filename
        let info := imageInfo sec filename
        return if lower filename ≠ "none".toList ∧ info ∉ images then images ++ [info]
          else images
    | _, _ => .error (infoError sec)
  else .ok images

/-- The script object when the sections are gone through. -/
def Board.script (b : Board) : FlashScript :=
  ((FlashScript.init b.flinfo b.spiNand).startIf "machid".toList (hex b.machid)).probe

/-- `__gen_board_script`. -/
def genBoardScript (sh : Shell σ) (pk : Packer σ) (b : Board) : Except Text (Packer σ) := do
  let st ← genFlashScript sh b.flinfo b.partitions pk.disk b.script b.sections
  let images ← b.sections.foldlM (collectImage sh b.flinfo b.partitions st.disk) pk.images
  return ⟨st.disk, pk.scr ++ st.script.endIf.script, images⟩

/-- `__its_escape`. -/
def itsEscape (text : Text) : Text := text.flatMap fun c => if c = '\\' then ['\\', '\\'] else [c]

/-- An image node of the tree. -/
structure ItsNode where
  name : Text
  desc : Text
  fname : Text
  imtype : Text
  deriving DecidableEq

/-- The node of an image. -/
def ImageInfo.node (info : ImageInfo) : ItsNode :=
  ⟨info.name, itsEscape info.filename, itsEscape info.filename, info.type⟩

/-- The nodes `__mkimage` writes. -/
def itsNodes (images : List ImageInfo) : List ItsNode :=
  (images.filter fun info => info.primary = "0".toList).map ImageInfo.node

/-- The script as an image. -/
def scriptInfo : ImageInfo :=
  ⟨"script".toList, "flash.scr".toList, "script".toList, "0".toList⟩

/-- `main_bconf`: `flash.scr` and the image tree. -/
def mainBconf (sh : Shell σ) (disk : σ) (boards : List Board) :
    Except Text (List (Token Command) × List ItsNode) := do
  let pk ← boards.foldlM (genBoardScript sh) { disk }
  return (pk.scr, itsNodes (scriptInfo :: pk.images))

/-! ### The script, section by section -/

/-- What has been written into the script for a section. -/
structure Piece where
  sec : Section
  script : List (Token Command)

/-- What a round adds to the script. -/
def Piece.ofRound (r : Round (GenState σ) Section) : Piece :=
  ⟨r.item, r.after.script.script.drop r.before.script.script.length⟩

/-- The rounds of the loop over the sections of a board. -/
def Board.rounds (sh : Shell σ) (b : Board) (disk : σ) : List (Round (GenState σ) Section) :=
  Rounds.rounds (flashSection sh b.flinfo b.partitions) { disk, script := b.script } b.sections

def Board.pieces (sh : Shell σ) (b : Board) (disk : σ) : List Piece :=
  (b.rounds sh disk).map Piece.ofRound

/-- The loop over the sections comes to its end in `st`. -/
def Board.Loops (sh : Shell σ) (b : Board) (disk : σ) (st : GenState σ) : Prop :=
  b.sections.foldlM (flashSection sh b.flinfo b.partitions) { disk, script := b.script } = .ok st

/-- The entry of a section's partition. -/
def Board.entry (b : Board) (sec : Section) : Option PartInfo := sec.partition.bind b.partitions

section Rounds

variable {sh : Shell σ} {b : Board} {disk : σ} {r : Round (GenState σ) Section}

/-- A section is flashed with plan `p`. -/
structure Flashed (sh : Shell σ) (b : Board) (r : Round (GenState σ) Section) (p : Planned) :
    Prop where
  included : r.item.included = true
  sec : p.sec = r.item
  filename : r.item.filename = some p.filename
  entry : p.partInfo = b.entry r.item
  slot : p.partInfo = none → b.flinfo.type = .norplusnand
  imgSize : getImgSize sh r.before.disk p.filename = .ok p.imgSize
  size : paddedSize b.flinfo p.imgSize = .ok p.size
  checked : checkSize b.flinfo r.item p.partInfo p.imgSize r.before.count = .ok ()
  flashable : p.Flashable b.flinfo
  commands : ∃ device, essential (Piece.ofRound r).script =
    p.commands b.flinfo device r.before.count
  count : r.after.count = if p.partInfo.isNone then r.before.count + 1 else r.before.count

/-- Nothing is flashed for a section. -/
structure Passed (b : Board) (r : Round (GenState σ) Section) : Prop where
  why : r.item.included = true → b.entry r.item = none ∧ b.flinfo.type ≠ .norplusnand
  commands : essential (Piece.ofRound r).script = []
  count : r.after.count = r.before.count

theorem skipped_eq_true {fl : FlashInfo} {partInfo : Option PartInfo} :
    skipped fl partInfo = true ↔ partInfo = none ∧ fl.type ≠ .norplusnand := by
  rw [skipped, Bool.and_eq_true, Option.isNone_iff_eq_none, bne_iff_ne]

theorem Plans.entry {st : GenState σ} {sec : Section} {p : Planned} {disk : σ}
    (h : Plans sh b.flinfo b.partitions st sec p disk) : p.partInfo = b.entry sec := by
  obtain ⟨filename, partition, -, hpart, hspec⟩ := h.options
  rw [hspec.partInfo_eq, Board.entry, hpart]
  rfl

/-- The tokens behind those of `s`. -/
theorem Extends.split {s t : FlashScript} {cs : List Command} (h : Extends s t cs) :
    t.script = s.script ++ t.script.drop s.script.length ∧
      essential (t.script.drop s.script.length) = cs := by
  obtain ⟨⟨toks, htoks, hcs⟩, -⟩ := h
  have hdrop : t.script.drop s.script.length = toks := by rw [htoks, List.drop_left]
  rw [hdrop]
  exact ⟨htoks, hcs⟩

/-- The script only grows, and stays one of the board. -/
theorem extends_flashSection {fl : FlashInfo} {partitions : Text → Option PartInfo}
    {st st' : GenState σ} {sec : Section} (h : flashSection sh fl partitions st sec = .ok st') :
    ∃ cs, Extends st.script st'.script cs := by
  rcases flashSection_cases h with ⟨-, rfl⟩ | ⟨p, disk, -, -, rfl⟩ | ⟨p, disk, script, -, -, hemit, rfl⟩
  · exact ⟨[], Extends.refl _⟩
  · exact ⟨[], Extends.refl _⟩
  · exact ⟨_, (extends_emitSection hemit).1⟩

/-- The commands of `probe`. -/
def IsProbe (c : Command) : Prop := c = .sfProbe ∨ ∃ device, c = .nandDevice device

/-- In front of the sections, the chip is probed. -/
theorem Board.probe_script (b : Board) : ∀ c ∈ essential b.script.script, IsProbe c := by
  have hif := (extends_startIf (FlashScript.init b.flinfo b.spiNand) "machid".toList
    (hex b.machid)).split
  have hstart : essential ((FlashScript.init b.flinfo b.spiNand).startIf "machid".toList
      (hex b.machid)).script = [] := by
    rw [hif.1, essential_append, hif.2]
    rfl
  rw [Board.script, FlashScript.probe]
  have hprobe : ∀ cmd, (∀ c ∈ essential cmd, IsProbe c) → ∀ c ∈ essential
      (((FlashScript.init b.flinfo b.spiNand).startIf "machid".toList (hex b.machid)).append
        cmd).script, IsProbe c := by
    intro cmd hcmd
    have hsplit := (extends_append ((FlashScript.init b.flinfo b.spiNand).startIf "machid".toList
      (hex b.machid)) cmd).split
    rw [hsplit.1, essential_append, hstart, List.nil_append, hsplit.2]
    exact hcmd
  have hnor : ∀ c ∈ essential [.cmd .sfProbe], IsProbe c := by
    intro c hc
    obtain rfl := List.mem_singleton.mp hc
    exact Or.inl rfl
  split
  · refine hprobe _ fun c hc => ?_
    obtain rfl := List.mem_singleton.mp hc
    exact Or.inr ⟨_, rfl⟩
  · exact hprobe _ hnor
  · exact hprobe _ hnor
  · rw [hstart]
    exact fun c hc => absurd hc List.not_mem_nil

theorem Board.script_flinfo (b : Board) : b.script.flinfo = b.flinfo := by
  rw [Board.script, FlashScript.probe]
  split <;> rfl

theorem flinfo_rounds (hr : r ∈ b.rounds sh disk) : r.before.script.flinfo = b.flinfo := by
  refine (invariant (P := fun st => st.script.flinfo = b.flinfo) ?_ b.script_flinfo hr).1
  intro s x s' hs hstep
  obtain ⟨cs, hext⟩ := extends_flashSection hstep
  rw [hext.2.1, hs]

/-- **A section is passed over, or flashed as planned.** -/
theorem round_cases (hr : r ∈ b.rounds sh disk) : Passed b r ∨ ∃ p, Flashed sh b r p := by
  obtain ⟨st, sec, st'⟩ := r
  have hflinfo : st.script.flinfo = b.flinfo := flinfo_rounds hr
  have hsame : st.script.script.drop st.script.script.length = [] := List.drop_length
  rcases flashSection_cases (step_of_mem_rounds hr) with
    ⟨hexcl, hst'⟩ | ⟨p, disk', hplans, hskip, hst'⟩ | ⟨p, disk', script, hplans, hskip, hemit, hst'⟩
  · -- the section is left out
    left
    dsimp only at hexcl hst'
    subst hst'
    refine ⟨fun h => ?_, by rw [Piece.ofRound, hsame]; rfl, rfl⟩
    rw [hexcl] at h
    cases h
  · -- its image is skipped, as there is no entry for it
    left
    dsimp only at hst'
    subst hst'
    refine ⟨fun _ => ?_, by rw [Piece.ofRound, hsame]; rfl, rfl⟩
    rw [hplans.entry, skipped_eq_true] at hskip
    exact hskip
  · right
    dsimp only at hemit hst' hplans
    subst hst'
    obtain ⟨hext, hable⟩ := extends_emitSection hemit
    rw [hflinfo] at hext hable
    obtain ⟨filename, partition, hfile, hpart, hspec⟩ := hplans.options
    have hchecked := hspec.checked
    have himg := hspec.imgSize
    rw [← hspec.filename_eq] at hfile himg
    refine ⟨p, hplans.included, hspec.sec_eq, hfile, hplans.entry, fun hnone => ?_, himg,
      hspec.size, hchecked, hable, ⟨_, hext.split.2⟩, rfl⟩
    by_contra htype
    rw [skipped_eq_true.mpr ⟨hnone, htype⟩] at hskip
    cases hskip

/-- What a board does to the state of the packer. -/
structure BoardSpec (sh : Shell σ) (pk : Packer σ) (b : Board) (pk' : Packer σ) : Prop where
  loops : ∃ st, b.Loops sh pk.disk st ∧ pk'.disk = st.disk
  images : b.sections.foldlM (collectImage sh b.flinfo b.partitions pk'.disk) pk.images =
    .ok pk'.images
  script : ∃ before after, pk'.scr =
      pk.scr ++ (before ++ ((b.pieces sh pk.disk).flatMap Piece.script ++ after)) ∧
    (∀ c ∈ essential before, IsProbe c) ∧
    ∀ c ∈ essential after, c = .sfProbe ∨ c = .sfEraseEvents

/-- **A script is that of its sections, between a probe and the end.** -/
theorem genBoardScript_spec {pk pk' : Packer σ} (h : genBoardScript sh pk b = .ok pk') :
    BoardSpec sh pk b pk' := by
  obtain ⟨st', hgen, h⟩ := bind_eq_ok.mp h
  obtain ⟨images, himages, h⟩ := bind_eq_ok.mp h
  cases h
  obtain ⟨st, hloop, hlast⟩ := bind_eq_ok.mp hgen
  -- behind the sections, only the event log is erased
  have htail : st'.disk = st.disk ∧ ∃ cs, Extends st.script st'.script cs ∧
      ∀ c ∈ cs, c = .sfProbe ∨ c = .sfEraseEvents := by
    rcases hpart : st.partInfo with _ | partInfo
    · rw [hpart] at hlast
      cases hlast
    · rw [hpart] at hlast
      have hst' := Except.ok.inj hlast
      split at hst'
      · subst hst'
        exact ⟨rfl, [], Extends.refl _, by simp⟩
      · subst hst'
        exact ⟨rfl, _, extends_end _, by simp⟩
  obtain ⟨hdisk, cs, htail, hcs⟩ := htail
  have hsections : st.script.script = b.script.script
      ++ (b.pieces sh pk.disk).flatMap Piece.script := by
    rw [Board.pieces, List.flatMap_map]
    refine appended_end (f := fun s : GenState σ => s.script.script) ?_ hloop
    intro s x s' hstep
    obtain ⟨cs, hext⟩ := extends_flashSection hstep
    exact hext.split.1
  have hall := (htail.trans (extends_endIf st'.script)).split
  refine ⟨⟨st, hloop, hdisk⟩, himages, b.script.script,
    st'.script.endIf.script.drop st.script.script.length, ?_, b.probe_script, ?_⟩
  · rw [← List.append_assoc b.script.script, ← hsections, ← hall.1]
  · rw [hall.2, List.append_nil]
    exact hcs

end Rounds

end Pack
