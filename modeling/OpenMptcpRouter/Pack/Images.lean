/-
The names of the images, in the flash script and in the image tree.

The script asks for an image by a name that is made of a section and the hash of a file.
The tree has a node under such a name for every section that is collected and refers to no
other one.  Both names are worked out apart, in two loops over the sections.

* `mem_extracted_round` — the names a section asks for;
* `mem_images` — the images that are collected, over all boards;
* `names_agree_iff` — **the names agree exactly when every section that has its image extracted
  finds one of the name it asks for, with its own file, that itself refers to no other**:
  nothing checks what `primary` names.
-/
import Mathlib.Data.List.Nodup
import OpenMptcpRouter.Pack.Boards

namespace Pack

open Hush Rounds Sha1 Smem

variable {σ : Type}

/-- The image a command asks for. -/
def Command.image? : Command → Option Text
  | .imxtract name => some name
  | _ => none

/-- The names a script asks for. -/
def extracted (toks : List (Token Command)) : List Text :=
  (essential toks).filterMap Command.image?

/-- The rounds of the loop over the boards. -/
def boardRounds (sh : Shell σ) (disk : σ) (boards : List Board) : List (Round (Packer σ) Board) :=
  rounds (genBoardScript sh) { disk } boards

/-- A section has its image extracted, and `file` is what is packed for it: it is flashed, and
the image is not empty. -/
structure Asks (sh : Shell σ) (b : Board) (r : Round (GenState σ) Section) (file : Text) :
    Prop where
  included : r.item.included = true
  flashed : skipped b.flinfo (b.entry r.item) = false
  image : ∃ filename, r.item.filename = some filename ∧
    (∃ size > 0, getImgSize sh r.before.disk filename = .ok size) ∧
    packedFilename sh b.flinfo r.before.disk filename = .ok file

/-- A section is collected, with `file` packed for it. -/
structure Collects (sh : Shell σ) (b : Board) (disk : σ) (sec : Section) (file : Text) : Prop where
  included : sec.included = true
  flashed : skipped b.flinfo (b.entry sec) = false
  named : lower file ≠ "none".toList
  image : ∃ filename, sec.filename = some filename ∧
    packedFilename sh b.flinfo disk filename = .ok file

/-- A section brings a node into the tree: it is collected and refers to no other. -/
def Brings (sh : Shell σ) (R : Round (Packer σ) Board) (sec : Section) (file : Text) : Prop :=
  sec ∈ R.item.sections ∧ Collects sh R.item R.after.disk sec file ∧ sec.primaryName = "0".toList

/-- The script and the tree agree. -/
structure Agree (sh : Shell σ) (disk : σ) (boards : List Board) (scr : List (Token Command))
    (nodes : List ItsNode) : Prop where
  /-- The names asked for are those of the sections. -/
  attributed : extracted scr = (boardRounds sh disk boards).flatMap fun R =>
    (R.item.pieces sh R.before.disk).flatMap fun piece => extracted piece.script
  /-- One node has the name, and the file the section names. -/
  matched : ∀ R ∈ boardRounds sh disk boards, ∀ r ∈ R.item.rounds sh R.before.disk,
    ∀ name ∈ extracted (Piece.ofRound r).script,
      ∃ node, nodes.filter (fun node => node.name = name) = [node] ∧
        ∃ filename file, r.item.filename = some filename ∧
          packedFilename sh R.item.flinfo r.before.disk filename = .ok file ∧
          node.fname = itsEscape file

/-- Every section that has its image extracted finds a section of the name it asks for that
brings the same file; and no other file of such a section has the same hash. -/
def Resolved (sh : Shell σ) (disk : σ) (boards : List Board) : Prop :=
  ∀ R ∈ boardRounds sh disk boards, ∀ r ∈ R.item.rounds sh R.before.disk, ∀ file,
    Asks sh R.item r file →
      (∃ R' ∈ boardRounds sh disk boards, ∃ sec, sec.name = r.item.imageSection ∧
        Brings sh R' sec file) ∧
      ∀ R' ∈ boardRounds sh disk boards, ∀ sec file', sec.name = r.item.imageSection →
        Brings sh R' sec file' → sha1 file' = sha1 file → file' = file

/-! ### Names -/

section Names

variable {sec sec' file file' : Text}

theorem imageName_eq_iff :
    imageName sec file = imageName sec' file' ↔ sec = sec' ∧ sha1 file = sha1 file' := by
  rw [imageName, imageName]
  constructor
  · intro h
    obtain ⟨hsec, hhash⟩ := List.append_inj' h (by rw [sha1_length, sha1_length])
    exact ⟨(List.append_inj' hsec rfl).1, hhash⟩
  · rintro ⟨rfl, h⟩
    rw [h]

/-- `script` is no name of an image. -/
theorem imageName_ne_script : "script".toList ≠ imageName sec file := by
  intro h
  have hlen := congrArg List.length h
  rw [imageName, List.length_append, sha1_length] at hlen
  simp only [String.toList, List.length_append] at hlen
  change 6 = _ at hlen
  omega

theorem itsEscape_cons (c : Char) (text : Text) :
    itsEscape (c :: text) = (if c = '\\' then ['\\', '\\'] else [c]) ++ itsEscape text := rfl

/-- A file is known by its name in the tree. -/
theorem itsEscape_injective : Function.Injective itsEscape := by
  intro text
  induction text with
  | nil =>
    intro text' h
    cases text' with
    | nil => rfl
    | cons c text' =>
      rw [itsEscape_cons] at h
      split at h <;> cases h
  | cons c text ih =>
    intro text' h
    cases text' with
    | nil =>
      rw [itsEscape_cons] at h
      split at h <;> cases h
    | cons c' text' =>
      rw [itsEscape_cons, itsEscape_cons] at h
      -- an escaped backslash is the only thing that begins with one
      by_cases hc : c = '\\' <;> by_cases hc' : c' = '\\'
      · subst hc hc'
        rw [if_pos rfl] at h
        rw [ih (List.append_cancel_left h)]
      · rw [if_pos hc, if_neg hc'] at h
        exact absurd (List.cons.inj h).1.symm hc'
      · rw [if_neg hc, if_pos hc'] at h
        exact absurd (List.cons.inj h).1 hc
      · rw [if_neg hc, if_neg hc'] at h
        obtain ⟨rfl, hrest⟩ := List.cons.inj h
        rw [ih hrest]

end Names

/-! ### The names a section asks for -/

section Rounds

variable {sh : Shell σ} {b : Board} {disk : σ} {r : Round (GenState σ) Section} {p : Planned}

theorem extracted_append (toks toks' : List (Token Command)) :
    extracted (toks ++ toks') = extracted toks ++ extracted toks' := by
  rw [extracted, essential_append, List.filterMap_append]
  rfl

theorem images_nandWriteCommands {device : ℕ} {offset partSize imgSize : ℤ} :
    (nandWriteCommands device offset partSize imgSize).filterMap Command.image? = [] := by
  rw [nandWriteCommands]
  split <;> rfl

theorem image_eraseCommand {fl : FlashInfo} {offset size : ℤ} :
    (eraseCommand fl offset size).image? = none := by
  rw [eraseCommand]
  split <;> rfl

theorem images_writeCommands {fl : FlashInfo} {offset size : ℤ} {yaffs : Bool} :
    (writeCommands fl offset size yaffs).filterMap Command.image? = [] := by
  rw [writeCommands]
  by_cases h : 0 < size
  · rw [if_pos h]
    cases fl.type <;> cases yaffs <;> rfl
  · rw [if_neg h]
    rfl

/-- The flash commands ask for no image. -/
theorem images_flash {fl : FlashInfo} {device count : ℕ} :
    (p.flash fl device count).filterMap Command.image? = [] := by
  rw [Planned.flash]
  cases p.partInfo with
  | none => exact images_nandWriteCommands
  | some part =>
    dsimp only
    split
    · rw [List.filterMap_cons_none image_eraseCommand, images_writeCommands]
    · exact images_nandWriteCommands

theorem Flashed.extracted_eq (h : Flashed sh b r p) :
    extracted (Piece.ofRound r).script = if 0 < p.imgSize then [p.image] else [] := by
  obtain ⟨device, hcommands⟩ := h.commands
  rw [extracted, hcommands, Planned.commands, List.filterMap_append, images_flash, List.append_nil]
  split <;> rfl

/-- The second loop works out the file of the first. -/
theorem Flashed.packed (h : Flashed sh b r p) :
    packedFilename sh b.flinfo r.before.disk p.filename =
      .ok (packedFile p.filename p.imgSize p.size) := by
  have hsize := h.size
  rw [packedFilename]
  cases htype : b.flinfo.type with
  | nand | emmc =>
    dsimp only
    rw [h.imgSize]
    change (paddedSize b.flinfo p.imgSize >>= _) = _
    rw [hsize]
    rfl
  | nor | norplusnand =>
    rw [paddedSize, htype] at hsize
    have hsame : p.size = p.imgSize := (Except.ok.inj hsize).symm
    rw [packedFile, if_neg (not_not.mpr hsame)]

theorem Flashed.not_skipped (h : Flashed sh b r p) :
    skipped b.flinfo (b.entry r.item) = false := by
  rw [Bool.eq_false_iff, ne_eq, skipped_eq_true, ← h.entry]
  rintro ⟨hnone, htype⟩
  exact htype (h.slot hnone)

/-- **A section asks for the image of its section and its file.** -/
theorem mem_extracted_round (hr : r ∈ b.rounds sh disk) {name : Text} :
    name ∈ extracted (Piece.ofRound r).script ↔
      ∃ file, Asks sh b r file ∧ name = imageName r.item.imageSection file := by
  rcases round_cases hr with hpassed | ⟨p, hp⟩
  · rw [extracted, hpassed.commands]
    constructor
    · intro h
      cases h
    · rintro ⟨file, hasks, -⟩
      have hskip := skipped_eq_true.mpr (hpassed.why hasks.included)
      rw [hasks.flashed] at hskip
      cases hskip
  · rw [hp.extracted_eq]
    constructor
    · intro h
      split at h
      · rename_i hpos
        obtain rfl := List.mem_singleton.mp h
        refine ⟨_, ⟨hp.included, hp.not_skipped, p.filename, hp.filename, ⟨_, hpos, hp.imgSize⟩,
          hp.packed⟩, ?_⟩
        rw [Planned.image, hp.sec]
      · cases h
    · rintro ⟨file, hasks, rfl⟩
      obtain ⟨filename, hfile, ⟨size, hpos, hsize⟩, hpacked⟩ := hasks.image
      obtain rfl := Option.some.inj (hp.filename.symm.trans hfile)
      obtain rfl := Except.ok.inj (hp.imgSize.symm.trans hsize)
      obtain rfl := Except.ok.inj (hp.packed.symm.trans hpacked)
      rw [if_pos hpos, Planned.image, hp.sec]
      exact List.mem_singleton_self _

end Rounds

/-! ### The images that are collected -/

section Collect

variable {sh : Shell σ} {b : Board} {disk : σ} {images images' : List ImageInfo}
  {info : ImageInfo} {sec : Section} {pk pk' : Packer σ}

/-- A section is collected with one image at most. -/
theorem Collects.unique {file file' : Text} (h : Collects sh b disk sec file)
    (h' : Collects sh b disk sec file') : file' = file := by
  obtain ⟨filename, hfile, hpacked⟩ := h.image
  obtain ⟨filename', hfile', hpacked'⟩ := h'.image
  obtain rfl := Option.some.inj (hfile.symm.trans hfile')
  exact Except.ok.inj (hpacked'.symm.trans hpacked)

/-- A round of the second loop: the image of a collected section is put into the list when it
is not there yet. -/
theorem collectImage_cases
    (h : collectImage sh b.flinfo b.partitions disk images sec = .ok images') :
    images' = images ∧ (∀ file, Collects sh b disk sec file → imageInfo sec file ∈ images) ∨
    ∃ file, Collects sh b disk sec file ∧ imageInfo sec file ∉ images ∧
      images' = images ++ [imageInfo sec file] := by
  rw [collectImage] at h
  by_cases hincl : sec.included = true
  · rw [if_pos hincl] at h
    rcases hpart : sec.partition with _ | partition
    · rw [hpart] at h
      cases h
    rcases hfile : sec.filename with _ | filename
    · rw [hpart, hfile] at h
      cases h
    rw [hpart, hfile] at h
    dsimp only at h
    have hentry : b.entry sec = b.partitions partition := by rw [Board.entry, hpart]; rfl
    rw [← hentry] at h
    by_cases hskip : skipped b.flinfo (b.entry sec) = true
    · rw [if_pos hskip] at h
      refine Or.inl ⟨(Except.ok.inj h).symm, fun file hcollects => ?_⟩
      rw [hcollects.flashed] at hskip
      cases hskip
    · rw [if_neg hskip] at h
      obtain ⟨file, hpacked, h⟩ := bind_eq_ok.mp h
      by_cases hnew : lower file ≠ "none".toList ∧ imageInfo sec file ∉ images
      · have himages' := Except.ok.inj h
        rw [if_pos hnew] at himages'
        exact Or.inr ⟨file,
          ⟨hincl, Bool.eq_false_iff.mpr hskip, hnew.1, filename, hfile, hpacked⟩, hnew.2,
          himages'.symm⟩
      · have himages' := Except.ok.inj h
        rw [if_neg hnew] at himages'
        refine Or.inl ⟨himages'.symm, fun file' hcollects => ?_⟩
        obtain ⟨filename', hfile', hpacked'⟩ := hcollects.image
        obtain rfl := Option.some.inj (hfile.symm.trans hfile')
        obtain rfl := Except.ok.inj (hpacked'.symm.trans hpacked)
        exact not_not.mp fun hnot => hnew ⟨hcollects.named, hnot⟩
  · rw [if_neg hincl] at h
    exact Or.inl ⟨(Except.ok.inj h).symm, fun file hcollects => absurd hcollects.included hincl⟩

theorem mem_collectImage
    (h : collectImage sh b.flinfo b.partitions disk images sec = .ok images') :
    info ∈ images' ↔ info ∈ images ∨ ∃ file, Collects sh b disk sec file ∧
      info = imageInfo sec file := by
  rcases collectImage_cases h with ⟨rfl, hthere⟩ | ⟨file, hcollects, -, rfl⟩
  · constructor
    · exact Or.inl
    · rintro (hmem | ⟨file, hcollects, rfl⟩)
      · exact hmem
      · exact hthere file hcollects
  · rw [List.mem_append, List.mem_singleton]
    refine or_congr_right ⟨fun heq => ⟨file, hcollects, heq⟩, ?_⟩
    rintro ⟨file', hcollects', rfl⟩
    rw [hcollects.unique hcollects']

/-- The images of one board. -/
theorem BoardSpec.mem_images (h : BoardSpec sh pk b pk') :
    info ∈ pk'.images ↔ info ∈ pk.images ∨ ∃ sec ∈ b.sections, ∃ file,
      Collects sh b pk'.disk sec file ∧ info = imageInfo sec file := by
  have hrounds := holds_iff (P := fun images => info ∈ images)
    (Q := fun r => ∃ file, Collects sh b pk'.disk r.item file ∧ info = imageInfo r.item file)
    (fun _ _ _ hstep => mem_collectImage hstep) h.images
  rw [hrounds]
  refine or_congr_right ⟨?_, ?_⟩
  · rintro ⟨r, hr, hcollects⟩
    exact ⟨r.item, item_mem hr, hcollects⟩
  · rintro ⟨sec, hsec, hcollects⟩
    obtain ⟨r, hr, rfl⟩ := exists_round h.images hsec
    exact ⟨r, hr, hcollects⟩

/-- No image is in the list twice. -/
theorem BoardSpec.nodup (h : BoardSpec sh pk b pk') (hnodup : pk.images.Nodup) :
    pk'.images.Nodup := by
  refine invariant_end (P := List.Nodup) ?_ hnodup h.images
  intro images sec images' hnodup hstep
  rcases collectImage_cases hstep with ⟨rfl, -⟩ | ⟨file, -, hnew, rfl⟩
  · exact hnodup
  · rw [← List.concat_eq_append]
    exact hnodup.concat hnew

variable {boards : List Board}

/-- **The images of all boards.** -/
theorem mem_images (h : boards.foldlM (genBoardScript sh) { disk } = .ok pk) :
    info ∈ pk.images ↔ ∃ R ∈ boardRounds sh disk boards, ∃ sec ∈ R.item.sections, ∃ file,
      Collects sh R.item R.after.disk sec file ∧ info = imageInfo sec file := by
  have hrounds := holds_iff (P := fun pk : Packer σ => info ∈ pk.images)
    (Q := fun R => ∃ sec ∈ R.item.sections, ∃ file,
      Collects sh R.item R.after.disk sec file ∧ info = imageInfo sec file)
    (fun _ _ _ hstep => (genBoardScript_spec hstep).mem_images) h
  rw [hrounds]
  constructor
  · rintro (hnil | hround)
    · cases hnil
    · exact hround
  · exact Or.inr

theorem nodup_images (h : boards.foldlM (genBoardScript sh) { disk } = .ok pk) :
    pk.images.Nodup :=
  invariant_end (P := fun pk : Packer σ => pk.images.Nodup)
    (fun _ _ _ hnodup hstep => (genBoardScript_spec hstep).nodup hnodup) List.nodup_nil h

/-- The names the whole script asks for are those of the sections. -/
theorem extracted_scr (h : boards.foldlM (genBoardScript sh) { disk } = .ok pk) :
    extracted pk.scr = (boardRounds sh disk boards).flatMap fun R =>
      (R.item.pieces sh R.before.disk).flatMap fun piece => extracted piece.script := by
  refine appended_end (f := fun pk : Packer σ => extracted pk.scr) ?_ h
  intro pk b pk' hstep
  obtain ⟨before, after, hscr, hbefore, hafter⟩ := (genBoardScript_spec hstep).script
  have hhead : extracted before = [] := by
    rw [extracted, List.filterMap_eq_nil_iff]
    intro c hc
    rcases hbefore c hc with rfl | ⟨device, rfl⟩ <;> rfl
  have htail : extracted after = [] := by
    rw [extracted, List.filterMap_eq_nil_iff]
    intro c hc
    rcases hafter c hc with rfl | rfl <;> rfl
  rw [hscr, extracted_append, extracted_append, extracted_append, hhead, htail, List.nil_append,
    List.append_nil]
  congr 1
  generalize b.pieces sh pk.disk = pieces
  induction pieces with
  | nil => rfl
  | cons piece pieces ih =>
    rw [List.flatMap_cons, extracted_append, ih, List.flatMap_cons]

end Collect

/-! ### The script and the tree -/

section Tree

variable {sh : Shell σ} {disk : σ} {boards : List Board} {pk : Packer σ} {sec file : Text}

theorem eq_singleton_of_nodup {α : Type} {x : α} {l : List α} (hnodup : l.Nodup) (hx : x ∈ l)
    (h : ∀ y ∈ l, y = x) : l = [x] := by
  cases l with
  | nil => cases hx
  | cons y l =>
    obtain rfl := h y List.mem_cons_self
    cases l with
    | nil => rfl
    | cons z l =>
      obtain rfl := h z (by simp)
      exact absurd List.mem_cons_self (List.nodup_cons.mp hnodup).1

/-- The nodes of a name, but for the script, are those of the images. -/
theorem filter_itsNodes (images : List ImageInfo) :
    (itsNodes (scriptInfo :: images)).filter (fun node => node.name = imageName sec file) =
      (images.filter fun info => info.primary = "0".toList ∧ info.name = imageName sec file).map
        ImageInfo.node := by
  have hscript : ¬ scriptInfo.node.name = imageName sec file := imageName_ne_script
  have hprimary : (scriptInfo :: images).filter (fun info => info.primary = "0".toList) =
      scriptInfo :: images.filter fun info => info.primary = "0".toList :=
    List.filter_cons_of_pos (by decide)
  rw [itsNodes, hprimary, List.map_cons,
    List.filter_cons_of_neg (by simpa using hscript), List.filter_map, List.filter_filter]
  congr 1
  refine List.filter_congr fun info _ => ?_
  rw [Bool.decide_and, Bool.and_comm]
  rfl

/-- The images of a name are those of the sections that bring them. -/
theorem mem_brought (h : boards.foldlM (genBoardScript sh) { disk } = .ok pk) {info : ImageInfo} :
    (info ∈ pk.images.filter fun info =>
        info.primary = "0".toList ∧ info.name = imageName sec file) ↔
      ∃ R ∈ boardRounds sh disk boards, ∃ s file', s.name = sec ∧ Brings sh R s file' ∧
        sha1 file' = sha1 file ∧ info = imageInfo s file' := by
  rw [List.mem_filter, mem_images h, decide_eq_true_eq]
  constructor
  · rintro ⟨⟨R, hR, s, hs, file', hcollects, rfl⟩, hprimary, hname⟩
    obtain ⟨hsec, hhash⟩ := imageName_eq_iff.mp hname
    exact ⟨R, hR, s, file', hsec, ⟨hs, hcollects, hprimary⟩, hhash, rfl⟩
  · rintro ⟨R, hR, s, file', hsec, ⟨hs, hcollects, hprimary⟩, hhash, rfl⟩
    exact ⟨⟨R, hR, s, hs, file', hcollects, rfl⟩, hprimary, imageName_eq_iff.mpr ⟨hsec, hhash⟩⟩

/-- A name has one node with a given file exactly when it is brought, and with no other file
of that hash. -/
theorem node_iff (h : boards.foldlM (genBoardScript sh) { disk } = .ok pk) :
    (∃ node, (itsNodes (scriptInfo :: pk.images)).filter
        (fun node => node.name = imageName sec file) = [node] ∧ node.fname = itsEscape file) ↔
      (∃ R ∈ boardRounds sh disk boards, ∃ s, s.name = sec ∧ Brings sh R s file) ∧
        ∀ R ∈ boardRounds sh disk boards, ∀ s file', s.name = sec → Brings sh R s file' →
          sha1 file' = sha1 file → file' = file := by
  rw [filter_itsNodes]
  constructor
  · rintro ⟨node, hnode, hfname⟩
    obtain ⟨info, hinfo, rfl⟩ := List.map_eq_singleton_iff.mp hnode
    have hfile : info.filename = file := itsEscape_injective hfname
    have hmem : ∀ info', info' ∈ [info] ↔ _ := fun info' => hinfo ▸ mem_brought h
    constructor
    · obtain ⟨R, hR, s, file', hsec, hbrings, -, rfl⟩ := (hmem info).mp (List.mem_singleton_self _)
      obtain rfl : file' = file := hfile
      exact ⟨R, hR, s, hsec, hbrings⟩
    · intro R hR s file' hsec hbrings hhash
      have hother := (hmem (imageInfo s file')).mpr ⟨R, hR, s, file', hsec, hbrings, hhash, rfl⟩
      rw [← hfile, ← List.mem_singleton.mp hother]
      rfl
  · rintro ⟨⟨R, hR, s, hsec, hbrings⟩, honly⟩
    have hone := eq_singleton_of_nodup ((nodup_images h).filter _)
      ((mem_brought h).mpr ⟨R, hR, s, file, hsec, hbrings, rfl, rfl⟩) ?_
    · rw [hone]
      exact ⟨_, rfl, rfl⟩
    · intro info hinfo
      obtain ⟨R', hR', s', file', hsec', hbrings', hhash, rfl⟩ := (mem_brought h).mp hinfo
      obtain rfl := honly R' hR' s' file' hsec' hbrings' hhash
      -- two images of one name and file, neither with a primary section
      rw [imageInfo, imageInfo, hsec', hsec, hbrings'.2.2, hbrings.2.2]

/-- Where the names agree, every section that has its image extracted finds it. -/
theorem resolved_of_agree {scr : List (Token Command)} {nodes : List ItsNode}
    (h : mainBconf sh disk boards = .ok (scr, nodes)) (hagree : Agree sh disk boards scr nodes) :
    Resolved sh disk boards := by
  obtain ⟨pk, hpk, h⟩ := bind_eq_ok.mp h
  cases h
  intro R hR r hr file hasks
  have hname := (mem_extracted_round hr).mpr ⟨file, hasks, rfl⟩
  obtain ⟨node, hnode, filename, file', hfilename, hpacked, hfname⟩ :=
    hagree.matched R hR r hr _ hname
  obtain ⟨filename', hfilename', -, hpacked'⟩ := hasks.image
  obtain rfl := Option.some.inj (hfilename.symm.trans hfilename')
  obtain rfl := Except.ok.inj (hpacked.symm.trans hpacked')
  exact (node_iff hpk).mp ⟨node, hnode, hfname⟩

/-- **The names agree exactly when every section that has its image extracted finds it.** -/
theorem names_agree_iff {scr : List (Token Command)} {nodes : List ItsNode}
    (h : mainBconf sh disk boards = .ok (scr, nodes)) :
    Agree sh disk boards scr nodes ↔ Resolved sh disk boards := by
  refine ⟨resolved_of_agree h, fun hresolved => ?_⟩
  obtain ⟨pk, hpk, h⟩ := bind_eq_ok.mp h
  cases h
  refine ⟨extracted_scr hpk, fun R hR r hr name hname => ?_⟩
  obtain ⟨file, hasks, rfl⟩ := (mem_extracted_round hr).mp hname
  obtain ⟨node, hnode, hfname⟩ := (node_iff hpk).mpr (hresolved R hR r hr file hasks)
  obtain ⟨filename, hfilename, -, hpacked⟩ := hasks.image
  exact ⟨node, hnode, filename, file, hfilename, hpacked, hfname⟩

/-- A NAND board whose two slots of the kernel share an image that needs padding. -/
def sharedImage : Board where
  machid := 0x8010001
  flinfo := ⟨.nand, 2048, 64⟩
  spiNand := "false".toList
  partitions := fun name =>
    if name = "0:HLOS".toList then some ⟨0x1000000, 0x400000, 0⟩
    else if name = "0:HLOS_1".toList then some ⟨0x1400000, 0x400000, 0⟩
    else none
  sections :=
    [{ name := "hlos".toList, filename := some "kernel.img".toList,
       partition := some "0:HLOS".toList },
      { name := "hlos_1".toList, filename := some "kernel.img".toList,
        partition := some "0:HLOS_1".toList, primary := some "hlos".toList }]

theorem names_agree_iff_sharedImage : ∃ scr nodes,
    mainBconf sizesShell (fun _ => some 5000) [sharedImage] = .ok (scr, nodes) ∧
      (Agree sizesShell (fun _ => some 5000) [sharedImage] scr nodes ↔
        Resolved sizesShell (fun _ => some 5000) [sharedImage]) := by
  obtain ⟨⟨scr, nodes⟩, h⟩ := exists_of_isOk
    (x := mainBconf sizesShell (fun _ => some 5000) [sharedImage]) (by decide)
  exact ⟨scr, nodes, h, names_agree_iff h⟩

end Tree

/-! ### A section without a primary -/

section Plain

variable {sh : Shell σ} {b : Board} {disk : σ} {filename file : Text}

theorem packedFilename_cases (h : packedFilename sh b.flinfo disk filename = .ok file) :
    file = filename ∨ file = paddedName filename := by
  rw [packedFilename] at h
  have hpacked : ∀ {imgSize : ℕ} {size : ℤ}, packedFile filename imgSize size = file →
      file = filename ∨ file = paddedName filename := by
    rintro imgSize size rfl
    rw [packedFile]
    split
    · exact Or.inr rfl
    · exact Or.inl rfl
  cases htype : b.flinfo.type with
  | nand | emmc =>
    rw [htype] at h
    obtain ⟨imgSize, -, h⟩ := bind_eq_ok.mp h
    obtain ⟨size, -, h⟩ := bind_eq_ok.mp h
    exact hpacked (Except.ok.inj h)
  | nor | norplusnand =>
    rw [htype] at h
    exact Or.inl (Except.ok.inj h).symm

/-- **A section that names no primary brings the image it asks for**, as long as its file is
still packed under the same name when the images are collected. -/
theorem Asks.brings_self {R : Round (Packer σ) Board} {r : Round (GenState σ) Section}
    (hr : r ∈ R.item.rounds sh R.before.disk) (h : Asks sh R.item r file)
    (hprimary : r.item.primaryName = "0".toList)
    (hsame : ∀ filename, r.item.filename = some filename →
      packedFilename sh R.item.flinfo R.after.disk filename = .ok file) :
    r.item.name = r.item.imageSection ∧ Brings sh R r.item file := by
  obtain ⟨filename, hfilename, ⟨size, hpos, hsize⟩, hpacked⟩ := h.image
  refine ⟨by rw [Section.imageSection, if_neg (not_not.mpr hprimary)], item_mem hr,
    ⟨h.included, h.flashed, ?_, filename, hfilename, hsame filename hfilename⟩, hprimary⟩
  intro hnone
  rcases packedFilename_cases hpacked with rfl | rfl
  · -- no file: the image would be empty
    rw [getImgSize, if_pos hnone] at hsize
    cases hsize
    exact absurd hpos (by decide)
  · have hlen := congrArg List.length hnone
    rw [lower, List.length_map, paddedName, List.length_append] at hlen
    change _ + 7 = 4 at hlen
    omega

end Plain

/-- A NOR board whose only section names a primary section that does not exist. -/
def danglingPrimary : Board where
  machid := 0x8010001
  flinfo := ⟨.nor, 256, 256⟩
  spiNand := "false".toList
  partitions := fun name => if name = "0:HLOS".toList then some ⟨0x180000, 0x400000, 0⟩ else none
  sections :=
    [{ name := "hlos".toList, filename := some "kernel.img".toList,
       partition := some "0:HLOS".toList, primary := some "kernel".toList }]

/-- A directory in which every file has 1000 bytes. -/
def constShell : Shell Unit where
  getsize _ _ := some 1000
  cat _ _ _ := some ()
  dd _ _ _ _ := some ()

/-- The script asks for an image that is not in the tree. -/
theorem not_agree_danglingPrimary : ∃ scr nodes,
    mainBconf constShell () [danglingPrimary] = .ok (scr, nodes) ∧
      ¬ Agree constShell () [danglingPrimary] scr nodes := by
  obtain ⟨⟨scr, nodes⟩, h⟩ := exists_of_isOk
    (x := mainBconf constShell () [danglingPrimary]) (by decide)
  refine ⟨scr, nodes, h, fun hagree => ?_⟩
  have hresolved := resolved_of_agree h hagree
  obtain ⟨pk, hpk, -⟩ := bind_eq_ok.mp h
  obtain ⟨R, hR, hboard⟩ := exists_round hpk (List.mem_singleton_self _)
  obtain ⟨st, hloop, -⟩ := (genBoardScript_spec (step_of_mem_rounds hR)).loops
  have hsec : danglingPrimary.sections.head (by decide) ∈ R.item.sections := by
    rw [hboard]
    exact List.head_mem _
  obtain ⟨r, hr, hitem⟩ := exists_round hloop hsec
  have hasks : Asks constShell R.item r "kernel.img".toList := by
    refine ⟨by rw [hitem]; decide, by rw [hitem, hboard]; decide, "kernel.img".toList, ?_, ?_, ?_⟩
    · rw [hitem]
      rfl
    · exact ⟨1000, by decide, rfl⟩
    · rw [hboard]
      rfl
  obtain ⟨⟨R', hR', sec, hname, hbrings⟩, -⟩ := hresolved R hR r hr _ hasks
  have hboard' : R'.item = danglingPrimary := List.mem_singleton.mp (item_mem hR')
  rw [hitem] at hname
  have hmem := hbrings.1
  rw [hboard'] at hmem
  rw [List.mem_singleton.mp hmem] at hname
  exact absurd hname (by decide)

end Pack
