/-
Where the flash script erases and writes.

A section is flashed by one erase and at most one write.  The sizes of both are rounded,
by blocks and by pages, and an image without an entry in the table goes to the next slot of
64 MiB on the NAND chip of a NOR+NAND board.

* `Flashed.ops` — the erase and write commands of a section;
* `written_le` — a partition is never overrun;
* `safe_iff` — **the ranges of a script are safe exactly when there are at most two images
  without an entry, each fits its slot, and no NAND partition that is flashed reaches into
  the slots**: three such images are accepted, and their sizes are compared with nothing.
-/
import Mathlib.Algebra.Order.Ring.Int
import Mathlib.Data.Int.ConditionallyCompleteOrder
import Mathlib.Order.CompletePartialOrder
import Mathlib.Order.ConditionallyCompleteLattice.Basic
import Mathlib.Order.Interval.Set.Disjoint
import Mathlib.Tactic.Ring
import OpenMptcpRouter.Pack.Boards

namespace Pack

open Hush Rounds Smem

inductive Chip
  | nor
  | nand
  deriving DecidableEq, Repr

/-- An erase or write command, with its range. -/
structure FlashOp where
  isWrite : Bool
  chip : Chip
  offset : ℤ
  size : ℤ
  deriving DecidableEq, Repr

/-- The cells from `offset` on. -/
def range (offset size : ℤ) : Set ℤ := Set.Ico offset (offset + size)

def FlashOp.cells (op : FlashOp) : Set ℤ := range op.offset op.size

/-- What a command does to the chips; a script uses one NAND device. -/
def Command.op : Command → Option FlashOp
  | .nandErase offset size => some ⟨false, .nand, offset, size⟩
  | .nandWrite offset size | .nandWriteYaffs offset size => some ⟨true, .nand, offset, size⟩
  | .sfErase offset size => some ⟨false, .nor, offset, size⟩
  | .sfEraseEvents => some ⟨false, .nor, 0x00310000, 0x0090000⟩
  | .sfWrite offset size => some ⟨true, .nor, offset, size⟩
  | _ => none

/-- The erase and write commands of a script, in order. -/
def flashOps (toks : List (Token Command)) : List FlashOp := (essential toks).filterMap Command.op

variable {σ : Type}

/-- The NAND images of a NOR+NAND board that have no partition entry. -/
def Board.nandImages (b : Board) : List Section :=
  if b.flinfo.type = .norplusnand then
    b.sections.filter fun sec => sec.included && (b.entry sec).isNone
  else []

/-- A write stays inside the range erased right before it. -/
def Inside (ops : List FlashOp) : Prop :=
  ∀ before w after, ops = before ++ w :: after → w.isWrite →
    ∃ e ∈ before.getLast?, e.isWrite = false ∧ e.chip = w.chip ∧ w.cells ⊆ e.cells

/-- What is erased by the one is not erased by the other. -/
def ErasedApart (ops ops' : List FlashOp) : Prop :=
  ∀ e ∈ ops, ∀ f ∈ ops', e.isWrite = false → f.isWrite = false → e.chip = f.chip →
    Disjoint e.cells f.cells

/-- The ranges of a script are safe. -/
structure Safe (b : Board) (script : List (Token Command)) (pieces : List Piece) : Prop where
  /-- The write commands are those of the sections. -/
  writes : (flashOps script).filter (·.isWrite) =
    pieces.flatMap fun p => (flashOps p.script).filter (·.isWrite)
  inside : ∀ p ∈ pieces, Inside (flashOps p.script)
  /-- Different partitions, and images without one, are erased apart from each other. -/
  apart : pieces.Pairwise fun p q =>
    p.sec.partition ≠ q.sec.partition ∨ b.entry p.sec = none ∧ b.entry q.sec = none →
      ErasedApart (flashOps p.script) (flashOps q.script)
  atMostTwo : b.nandImages.length ≤ 2

/-- The partition table: on the chip of the boot loader, lengths are whole blocks, and two
partitions of one chip have no cell in common. -/
structure Board.Table (b : Board) : Prop where
  whole : ∀ name part, b.partitions name = some part → part.whichFlash = 0 →
    (b.flinfo.blocksize : ℤ) ∣ part.length
  apart : ∀ name name' part part', b.partitions name = some part →
    b.partitions name' = some part' → name ≠ name' →
    (part.whichFlash = 0 ↔ part'.whichFlash = 0) →
    Disjoint (range part.offset part.length) (range part'.offset part'.length)

/-- At most two images without an entry, each small enough for its slot, and the slots clear
of the NAND partitions that are flashed. -/
structure Board.SlotsFit (sh : Shell σ) (disk : σ) (b : Board) : Prop where
  atMostTwo : b.nandImages.length ≤ 2
  fits : ∀ sec ∈ b.nandImages, ∀ filename, sec.filename = some filename →
    ∀ size, getImgSize sh disk filename = .ok size → size ≤ norplusnandRootfsImgSize
  clear : ∀ sec ∈ b.sections, sec.included → ∀ part, b.entry sec = some part →
    part.whichFlash ≠ 0 →
    Disjoint (range part.offset part.length)
      (range 0 (b.nandImages.length * norplusnandRootfsImgSize : ℕ))

/-! ### Rounding -/

section Rounding

variable {value bound : ℤ} {roundto : ℕ}

theorem nextMultiple_of_dvd (h : (roundto : ℤ) ∣ value) (hpos : roundto ≠ 0) :
    nextMultiple value roundto = value := by
  obtain ⟨k, rfl⟩ := h
  have hpos' : (0 : ℤ) < roundto := by omega
  have hdiv : ((roundto : ℤ) * k + roundto - 1) / roundto = k := by
    rw [show (roundto : ℤ) * k + roundto - 1 = (roundto - 1) + roundto * k by ring,
      Int.add_mul_ediv_left _ _ hpos'.ne', Int.ediv_eq_zero_of_lt (by omega) (by omega), zero_add]
  rw [nextMultiple, hdiv, mul_comm]

/-- Rounding up does not pass a multiple above. -/
theorem nextMultiple_le (h : value ≤ bound) (hdvd : (roundto : ℤ) ∣ bound) (hpos : roundto ≠ 0) :
    nextMultiple value roundto ≤ bound := by
  have hpos' : (0 : ℤ) < roundto := by omega
  calc nextMultiple value roundto ≤ nextMultiple bound roundto :=
        mul_le_mul_of_nonneg_right (Int.ediv_le_ediv hpos' (by omega)) hpos'.le
    _ = bound := nextMultiple_of_dvd hdvd hpos

end Rounding

/-! ### The commands of a section -/

/-- The chip of the boot loader. -/
def mainChip (fl : FlashInfo) : Chip := if fl.type = .nand then .nand else .nor

/-- The erase of a section. -/
def Planned.target (fl : FlashInfo) (p : Planned) (count : ℕ) : FlashOp :=
  match p.partInfo with
  | none =>
    ⟨false, .nand, (count * norplusnandRootfsImgSize : ℕ), norplusnandRootfsImgSize⟩
  | some part =>
    if part.whichFlash = 0 then
      ⟨false, mainChip fl, part.offset, nextMultiple part.length fl.blocksize⟩
    else ⟨false, .nand, part.offset, part.length⟩

/-- How much is written. -/
def Planned.written (fl : FlashInfo) (p : Planned) : ℤ :=
  match p.partInfo with
  | none => p.imgSize
  | some part =>
    if part.whichFlash = 0 ∧ fl.type = .nand ∧ p.yaffs = false then
      nextMultiple p.imgSize fl.pagesize
    else p.imgSize

/-- An erase and, for an image that is not empty, a write. -/
def Planned.ops (fl : FlashInfo) (p : Planned) (count : ℕ) : List FlashOp :=
  p.target fl count ::
    if 0 < p.imgSize then
      [⟨true, (p.target fl count).chip, (p.target fl count).offset, p.written fl⟩]
    else []

section Ops

variable {fl : FlashInfo} {p : Planned} {count device : ℕ}

theorem target_isWrite : (p.target fl count).isWrite = false := by
  rw [Planned.target]
  split
  · rfl
  · split <;> rfl

theorem ops_nandWriteCommands {offset partSize : ℤ} {imgSize : ℕ} :
    (nandWriteCommands device offset partSize imgSize).filterMap Command.op =
      ⟨false, .nand, offset, partSize⟩ ::
        if 0 < imgSize then [⟨true, .nand, offset, imgSize⟩] else [] := by
  rw [nandWriteCommands]
  by_cases h : 0 < imgSize
  · simp [h, List.filterMap_cons, Command.op]
  · simp [h, List.filterMap_cons, Command.op]

theorem ops_commands (hfl : fl.type ≠ .emmc) :
    (p.commands fl device count).filterMap Command.op = p.ops fl count := by
  have himxtract : (if 0 < p.imgSize then [Command.imxtract p.image] else []).filterMap Command.op
      = [] := by
    split <;> rfl
  rw [Planned.commands, List.filterMap_append, himxtract, List.nil_append, Planned.flash,
    Planned.ops, Planned.target, Planned.written]
  cases p.partInfo with
  | none => exact ops_nandWriteCommands
  | some part =>
    dsimp only
    by_cases hchip : part.whichFlash = 0
    · rw [if_pos hchip, if_pos hchip, eraseCommand, writeCommands, mainChip]
      by_cases himg : 0 < p.imgSize
      · cases htype : fl.type with
        | nand => cases p.yaffs <;> simp [himg, hchip, Command.op]
        | nor | norplusnand => simp [himg, Command.op]
        | emmc => exact absurd htype hfl
      · cases htype : fl.type with
        | nand | nor | norplusnand => simp [himg, Command.op]
        | emmc => exact absurd htype hfl
    · simp only [hchip, if_false, false_and]
      exact ops_nandWriteCommands

end Ops

/-! ### The rounds of a board -/

section Rounds

variable {sh : Shell σ} {b : Board} {r : Round (GenState σ) Section} {p : Planned}

theorem flashOps_append (toks toks' : List (Token Command)) :
    flashOps (toks ++ toks') = flashOps toks ++ flashOps toks' := by
  rw [flashOps, essential_append, List.filterMap_append]
  rfl

/-- **A section is flashed by an erase and at most one write.** -/
theorem Flashed.ops (hfl : b.flinfo.type ≠ .emmc) (h : Flashed sh b r p) :
    flashOps (Piece.ofRound r).script = p.ops b.flinfo r.before.count := by
  obtain ⟨device, hcommands⟩ := h.commands
  rw [flashOps, hcommands, ops_commands hfl]

theorem Passed.ops (h : Passed b r) : flashOps (Piece.ofRound r).script = [] := by
  rw [flashOps, h.commands]
  rfl

end Rounds

/-! ### Ranges -/

section Ranges

variable {sh : Shell σ} {b : Board} {disk : σ} {r r' : Round (GenState σ) Section}
  {p p' : Planned} {part : PartInfo} {fl : FlashInfo} {count : ℕ}

theorem inside_ops (h : p.written fl ≤ (p.target fl count).size) : Inside (p.ops fl count) := by
  intro before w after heq hw
  rw [Planned.ops] at heq
  cases before with
  | nil =>
    -- the first command is the erase
    obtain ⟨rfl, -⟩ := List.cons.inj heq
    rw [target_isWrite] at hw
    cases hw
  | cons e before =>
    obtain ⟨rfl, hrest⟩ := List.cons.inj heq
    by_cases himg : 0 < p.imgSize
    · rw [if_pos himg] at hrest
      cases before with
      | nil =>
        obtain ⟨rfl, -⟩ := List.cons.inj hrest
        refine ⟨_, rfl, target_isWrite, rfl, Set.Ico_subset_Ico_right ?_⟩
        exact Int.add_le_add_left h _
      | cons e' before => exact absurd (congrArg List.length hrest) (by simp)
    · rw [if_neg himg] at hrest
      exact absurd hrest (by simp)

theorem le_of_inside (himg : 0 < p.imgSize) (hpos : 0 < p.written fl)
    (h : Inside (p.ops fl count)) : p.written fl ≤ (p.target fl count).size := by
  rw [Planned.ops, if_pos himg] at h
  obtain ⟨e, he, -, -, hsub⟩ := h [p.target fl count] _ [] rfl rfl
  obtain rfl : p.target fl count = e := by simpa using he
  have hbounds := (Set.Ico_subset_Ico_iff (by dsimp only; omega)).mp hsub
  dsimp only at hbounds
  omega

theorem erasedApart_ops {fl' : FlashInfo} {count' : ℕ} :
    ErasedApart (p.ops fl count) (p'.ops fl' count') ↔
      ((p.target fl count).chip = (p'.target fl' count').chip →
        Disjoint (p.target fl count).cells (p'.target fl' count').cells) := by
  have hmem : ∀ {q : Planned} {fl : FlashInfo} {count : ℕ} {e : FlashOp}, e ∈ q.ops fl count →
      e.isWrite = false → e = q.target fl count := by
    intro q fl count e he herase
    rcases List.mem_cons.mp he with rfl | he
    · rfl
    · split at he
      · obtain rfl := List.mem_singleton.mp he
        cases herase
      · cases he
  constructor
  · intro h
    exact h _ List.mem_cons_self _ List.mem_cons_self target_isWrite target_isWrite
  · intro h e he f hf hew hfw
    rw [hmem he hew, hmem hf hfw]
    exact h

/-- A partition is erased from end to end. -/
theorem target_listed (count : ℕ) (hfl : fl.type ≠ .emmc) (hpart : p.partInfo = some part)
    (hable : p.Flashable fl)
    (hwhole : part.whichFlash = 0 → (fl.blocksize : ℤ) ∣ part.length) :
    (p.target fl count).cells = range part.offset part.length ∧
      (p.target fl count).size = part.length ∧
      (p.target fl count).chip = if part.whichFlash = 0 then mainChip fl else .nand := by
  rw [Planned.Flashable, hpart] at hable
  rw [Planned.target, hpart]
  dsimp only at hable ⊢
  by_cases hchip : part.whichFlash = 0
  · rw [if_pos hchip] at hable
    have hsize := nextMultiple_of_dvd (hwhole hchip) (hable hfl)
    rw [if_pos hchip, if_pos hchip, FlashOp.cells, hsize]
    exact ⟨rfl, rfl, rfl⟩
  · rw [if_neg hchip, if_neg hchip]
    exact ⟨rfl, rfl, rfl⟩

/-- **A partition is never overrun.** -/
theorem written_le (hfl : fl.type ≠ .emmc) (hpart : p.partInfo = some part)
    (hable : p.Flashable fl)
    (hwhole : part.whichFlash = 0 → (fl.blocksize : ℤ) ∣ part.length)
    (hsize : (p.imgSize : ℤ) ≤ part.length) : p.written fl ≤ (p.target fl count).size := by
  rw [(target_listed count hfl hpart hable hwhole).2.1, Planned.written, hpart]
  dsimp only
  split
  · rename_i h
    rw [Planned.Flashable, hpart] at hable
    dsimp only at hable
    rw [if_pos h.1] at hable
    -- a block is a whole number of pages
    have hblock : fl.blocksize ≠ 0 := hable hfl
    have hpage : (fl.pagesize : ℤ) ∣ part.length := by
      refine dvd_trans ?_ (hwhole h.1)
      rw [FlashInfo.blocksize, Nat.cast_mul]
      exact dvd_mul_left _ _
    refine nextMultiple_le hsize hpage ?_
    rintro hzero
    rw [FlashInfo.blocksize, hzero, mul_zero] at hblock
    exact hblock rfl
  · exact hsize

/-- On one chip, both entries are of the boot loader's chip or both are not. -/
theorem sameChip_iff {part' : PartInfo} (hable : p.Flashable fl) (hable' : p'.Flashable fl)
    (hpart : p.partInfo = some part) (hpart' : p'.partInfo = some part')
    (hchip : (if part.whichFlash = 0 then mainChip fl else .nand) =
      if part'.whichFlash = 0 then mainChip fl else .nand) :
    part.whichFlash = 0 ↔ part'.whichFlash = 0 := by
  rw [Planned.Flashable, hpart] at hable
  rw [Planned.Flashable, hpart'] at hable'
  have hmain : fl.type = .nor ∨ fl.type = .norplusnand → mainChip fl = .nor := by
    rintro (h | h) <;> rw [mainChip, h] <;> rfl
  by_cases h : part.whichFlash = 0 <;> by_cases h' : part'.whichFlash = 0
  · simp [h, h']
  · rw [if_pos h, if_neg h', hmain (by simpa [h'] using hable')] at hchip
    cases hchip
  · rw [if_neg h, if_pos h', hmain (by simpa [h] using hable)] at hchip
    cases hchip
  · simp [h, h']

theorem length_of_checkSize {sec : Section} {imgSize : ℕ} (hfl : fl.type ≠ .emmc)
    (h : checkSize fl sec (some part) imgSize count = .ok ()) : (imgSize : ℤ) ≤ part.length := by
  rw [checkSize, if_pos hfl] at h
  by_contra hlt
  rw [if_pos (by omega)] at h
  cases h

/-- Slot `k` of the NAND chip. -/
def slot (k : ℕ) : Set ℤ := range (k * norplusnandRootfsImgSize : ℕ) norplusnandRootfsImgSize

theorem slot_disjoint {j k : ℕ} (h : j < k) : Disjoint (slot j) (slot k) := by
  rw [Set.disjoint_left]
  rintro x ⟨-, hx⟩ ⟨hx', -⟩
  have hstep : (j + 1) * norplusnandRootfsImgSize ≤ k * norplusnandRootfsImgSize :=
    Nat.mul_le_mul_right _ h
  rw [Nat.succ_mul] at hstep
  omega

/-- The first `n` slots, side by side. -/
theorem mem_slots {n : ℕ} {x : ℤ} :
    x ∈ range 0 (n * norplusnandRootfsImgSize : ℕ) ↔ ∃ k < n, x ∈ slot k := by
  constructor
  · rintro ⟨hx, hx'⟩
    obtain ⟨m, rfl⟩ := Int.eq_ofNat_of_zero_le hx
    have hm : m < n * norplusnandRootfsImgSize := by omega
    have hpos : 0 < norplusnandRootfsImgSize := by decide
    have hdiv := Nat.div_add_mod' m norplusnandRootfsImgSize
    have hmod := Nat.mod_lt m hpos
    refine ⟨m / norplusnandRootfsImgSize, Nat.div_lt_of_lt_mul (by rwa [mul_comm]), ?_, ?_⟩
    · exact_mod_cast Nat.div_mul_le_self m norplusnandRootfsImgSize
    · exact_mod_cast (by omega :
        m < m / norplusnandRootfsImgSize * norplusnandRootfsImgSize + norplusnandRootfsImgSize)
  · rintro ⟨k, hk, hx, hx'⟩
    have hstep : (k + 1) * norplusnandRootfsImgSize ≤ n * norplusnandRootfsImgSize :=
      Nat.mul_le_mul_right _ hk
    rw [Nat.succ_mul] at hstep
    exact ⟨by omega, by omega⟩

theorem target_slot (fl : FlashInfo) (count : ℕ) (hpart : p.partInfo = none) :
    (p.target fl count).cells = slot count ∧ (p.target fl count).chip = .nand ∧
      (p.target fl count).size = norplusnandRootfsImgSize ∧ p.written fl = p.imgSize := by
  rw [Planned.target, Planned.written, hpart]
  exact ⟨rfl, rfl, rfl, rfl⟩

end Ranges

/-! ### The script of a board -/

section Script

variable {sh : Shell σ} {b : Board} {disk : σ} {st : GenState σ}
  {r r' : Round (GenState σ) Section} {p p' : Planned}

/-- The images directory stays as it is where nothing is padded. -/
theorem disk_rounds (htype : b.flinfo.type = .norplusnand) (hr : r ∈ b.rounds sh disk) :
    r.before.disk = disk := by
  refine (invariant (P := fun st => st.disk = disk) ?_ rfl hr).1
  rintro s x s' rfl hstep
  have hkeep : ∀ {p : Planned} {disk : σ}, Plans sh b.flinfo b.partitions s x p disk →
      disk = s.disk := by
    intro p disk hplans
    obtain ⟨filename, partition, -, -, hspec⟩ := hplans.options
    have hsize := hspec.size
    have hpad := hspec.padded
    rw [paddedSize, htype] at hsize
    have hsame : p.size = p.imgSize := (Except.ok.inj hsize).symm
    rw [writePadded, if_neg (not_not.mpr hsame)] at hpad
    exact (Except.ok.inj hpad).symm
  rcases flashSection_cases hstep with ⟨-, rfl⟩ | ⟨p, disk, h, -, rfl⟩ | ⟨p, disk, _, h, -, -, rfl⟩
  · rfl
  · exact hkeep h
  · exact hkeep h

/-- The NAND images are counted. -/
theorem count_step (htype : b.flinfo.type = .norplusnand) {s s' : GenState σ} {sec : Section}
    (h : flashSection sh b.flinfo b.partitions s sec = .ok s') :
    s'.count = s.count + if sec.included && (b.entry sec).isNone then 1 else 0 := by
  rcases flashSection_cases h with
    ⟨hexcl, rfl⟩ | ⟨p, disk, hplans, hskip, rfl⟩ | ⟨p, disk, _, hplans, -, -, rfl⟩
  · rw [hexcl]
    rfl
  · exact absurd htype (skipped_eq_true.mp hskip).2
  · rw [hplans.included, ← hplans.entry, Bool.true_and]
    dsimp only
    split <;> rfl

theorem count_end (htype : b.flinfo.type = .norplusnand) (h : b.Loops sh disk st) :
    st.count = b.nandImages.length := by
  have hend := counter_end (fun s sec s' (hstep : flashSection sh _ _ s sec = .ok s') =>
    count_step htype hstep) h
  rw [hend, Nat.zero_add, Board.nandImages, if_pos htype, List.countP_eq_length_filter]

theorem count_mono {s s' : GenState σ} {sec : Section}
    (h : flashSection sh b.flinfo b.partitions s sec = .ok s') : s.count ≤ s'.count := by
  rcases flashSection_cases h with ⟨-, rfl⟩ | ⟨p, disk, -, -, rfl⟩ | ⟨p, disk, script, -, -, -, rfl⟩
  · exact le_rfl
  · exact le_rfl
  · dsimp only
    split
    · exact Nat.le_succ _
    · exact le_rfl

/-- The write commands of the script are those of the sections. -/
theorem writes_script {pk pk' : Packer σ} (h : BoardSpec sh pk b pk') :
    (flashOps (pk'.scr.drop pk.scr.length)).filter (·.isWrite) =
      (b.pieces sh pk.disk).flatMap fun p => (flashOps p.script).filter (·.isWrite) := by
  obtain ⟨before, after, hscr, hbefore, hafter⟩ := h.script
  have hhead : (flashOps before).filter (·.isWrite) = [] := by
    rw [flashOps, List.filterMap_eq_nil_iff.mpr]
    · rfl
    · intro c hc
      rcases hbefore c hc with rfl | ⟨device, rfl⟩ <;> rfl
  have htail : (flashOps after).filter (·.isWrite) = [] := by
    rw [List.filter_eq_nil_iff]
    intro op hop
    obtain ⟨c, hc, hcop⟩ := List.mem_filterMap.mp hop
    rcases hafter c hc with rfl | rfl
    · cases hcop
    · obtain rfl := Option.some.inj hcop
      decide
  rw [hscr, List.drop_left, flashOps_append, flashOps_append, List.filter_append,
    List.filter_append, hhead, htail, List.append_nil, List.nil_append]
  generalize b.pieces sh pk.disk = pieces
  induction pieces with
  | nil => rfl
  | cons piece pieces ih =>
    rw [List.flatMap_cons, flashOps_append, List.filter_append, ih, List.flatMap_cons]

theorem mem_nandImages {sec : Section} : sec ∈ b.nandImages ↔
    b.flinfo.type = .norplusnand ∧ sec ∈ b.sections ∧ sec.included = true ∧ b.entry sec = none := by
  rw [Board.nandImages]
  split
  · simp [*]
  · simp [*]

/-- Where the images without an entry fit their slots, every write is inside its erase. -/
theorem inside_of_slotsFit (hfl : b.flinfo.type ≠ .emmc) (htable : b.Table)
    (hfit : b.SlotsFit sh disk) (hr : r ∈ b.rounds sh disk) :
    Inside (flashOps (Piece.ofRound r).script) := by
  rcases round_cases hr with hpassed | ⟨p, hp⟩
  · rw [hpassed.ops]
    intro before w after h
    exact absurd h (by simp)
  · rw [hp.ops hfl]
    apply inside_ops
    cases hpart : p.partInfo with
    | none =>
      have htype := hp.slot hpart
      have himg := hp.imgSize
      rw [disk_rounds htype hr] at himg
      have hmem : r.item ∈ b.nandImages :=
        mem_nandImages.mpr ⟨htype, item_mem hr, hp.included, hp.entry ▸ hpart⟩
      obtain ⟨-, -, hsize, hwritten⟩ := target_slot b.flinfo r.before.count hpart
      rw [hsize, hwritten]
      exact_mod_cast hfit.fits r.item hmem p.filename hp.filename p.imgSize himg
    | some part =>
      have hchecked := hp.checked
      rw [hpart] at hchecked
      have hentry : b.entry r.item = some part := hp.entry ▸ hpart
      obtain ⟨name, -, hname⟩ := Option.bind_eq_some_iff.mp hentry
      exact written_le hfl hpart hp.flashable (htable.whole name part hname)
        (length_of_checkSize hfl hchecked)

/-- What is erased for a section with an entry. -/
theorem Flashed.target_listed (hfl : b.flinfo.type ≠ .emmc) (htable : b.Table)
    (hp : Flashed sh b r p) {part : PartInfo} (hpart : p.partInfo = some part) :
    (p.target b.flinfo r.before.count).cells = range part.offset part.length ∧
      (p.target b.flinfo r.before.count).chip =
        if part.whichFlash = 0 then mainChip b.flinfo else .nand := by
  have hentry : b.entry r.item = some part := hp.entry ▸ hpart
  obtain ⟨name, -, hname⟩ := Option.bind_eq_some_iff.mp hentry
  obtain ⟨hcells, -, hchip⟩ :=
    Pack.target_listed r.before.count hfl hpart hp.flashable (htable.whole name part hname)
  exact ⟨hcells, hchip⟩

/-- The number of a NAND image is below the number of all of them. -/
theorem count_lt (hloop : b.Loops sh disk st) (hr : r ∈ b.rounds sh disk) (hp : Flashed sh b r p)
    (hpart : p.partInfo = none) : r.before.count < b.nandImages.length := by
  have hle := le_end (fun _ _ _ hstep => count_mono hstep) hloop hr
  rw [hp.count, hpart, count_end (hp.slot hpart) hloop] at hle
  exact hle

/-- An image without an entry keeps clear of the partitions. -/
theorem slot_apart (hfl : b.flinfo.type ≠ .emmc) (htable : b.Table) (hfit : b.SlotsFit sh disk)
    (hloop : b.Loops sh disk st) (hr : r ∈ b.rounds sh disk) (hr' : r' ∈ b.rounds sh disk)
    (hp : Flashed sh b r p) (hp' : Flashed sh b r' p') (hpart : p.partInfo = none)
    {part : PartInfo} (hpart' : p'.partInfo = some part)
    (hchip : (p.target b.flinfo r.before.count).chip = (p'.target b.flinfo r'.before.count).chip) :
    Disjoint (p.target b.flinfo r.before.count).cells
      (p'.target b.flinfo r'.before.count).cells := by
  obtain ⟨hcells, hnand, -⟩ := target_slot b.flinfo r.before.count hpart
  obtain ⟨hcells', hchip'⟩ := hp'.target_listed hfl htable hpart'
  rw [hcells, hcells']
  have hwhich : part.whichFlash ≠ 0 := by
    intro hzero
    rw [hnand, hchip', if_pos hzero, mainChip, if_neg (by rw [hp.slot hpart]; decide)] at hchip
    cases hchip
  have hclear := hfit.clear r'.item (item_mem hr') hp'.included part (hp'.entry ▸ hpart') hwhich
  rw [Set.disjoint_left]
  intro x hx hx'
  exact Set.disjoint_left.mp hclear hx' (mem_slots.mpr ⟨_, count_lt hloop hr hp hpart, hx⟩)

/-- Two sections one after the other are erased apart. -/
theorem apart_of_slotsFit (hfl : b.flinfo.type ≠ .emmc) (htable : b.Table)
    (hfit : b.SlotsFit sh disk) (hloop : b.Loops sh disk st) (hr : r ∈ b.rounds sh disk)
    (hr' : r' ∈ b.rounds sh disk) (hcount : r.after.count ≤ r'.before.count)
    (hdiff : r.item.partition ≠ r'.item.partition ∨
      b.entry r.item = none ∧ b.entry r'.item = none) :
    ErasedApart (flashOps (Piece.ofRound r).script) (flashOps (Piece.ofRound r').script) := by
  rcases round_cases hr with hpassed | ⟨p, hp⟩
  · rw [hpassed.ops]
    intro e he
    cases he
  rcases round_cases hr' with hpassed | ⟨p', hp'⟩
  · rw [hpassed.ops]
    intro e _ f hf
    cases hf
  rw [hp.ops hfl, hp'.ops hfl, erasedApart_ops]
  intro hchip
  rcases hpart : p.partInfo with _ | part <;> rcases hpart' : p'.partInfo with _ | part'
  · -- two images without an entry: the counter has gone up
    rw [(target_slot _ _ hpart).1, (target_slot _ _ hpart').1]
    rw [hp.count, hpart] at hcount
    exact slot_disjoint hcount
  · -- one of them has an entry: its slot is apart from all slots that are counted
    exact slot_apart hfl htable hfit hloop hr hr' hp hp' hpart hpart' hchip
  · exact (slot_apart hfl htable hfit hloop hr' hr hp' hp hpart' hpart hchip.symm).symm
  · -- two entries of the table: they are apart on one chip, as they are not the same
    have hentry : b.entry r.item = some part := hp.entry ▸ hpart
    have hentry' : b.entry r'.item = some part' := hp'.entry ▸ hpart'
    obtain ⟨hcells, hchipOf⟩ := hp.target_listed hfl htable hpart
    obtain ⟨hcells', hchipOf'⟩ := hp'.target_listed hfl htable hpart'
    obtain ⟨name, hname, hpartitions⟩ := Option.bind_eq_some_iff.mp hentry
    obtain ⟨name', hname', hpartitions'⟩ := Option.bind_eq_some_iff.mp hentry'
    rw [hcells, hcells']
    refine htable.apart name name' part part' hpartitions hpartitions' ?_ ?_
    · rintro rfl
      rcases hdiff with hdiff | ⟨hnone, -⟩
      · exact hdiff (hname.trans hname'.symm)
      · rw [hentry] at hnone
        cases hnone
    · exact sameChip_iff hp.flashable hp'.flashable hpart hpart' (hchipOf ▸ hchipOf' ▸ hchip)

theorem ErasedApart.symm {ops ops' : List FlashOp} (h : ErasedApart ops ops') :
    ErasedApart ops' ops := fun e he f hf hew hfw hchip => (h f hf e he hfw hew hchip.symm).symm

/-- Sections that are safe from each other, in either order. -/
theorem apart_of_safe {script : List (Token Command)}
    (hsafe : Safe b script (b.pieces sh disk)) (hr : r ∈ b.rounds sh disk)
    (hr' : r' ∈ b.rounds sh disk) (hpartition : r.item.partition ≠ r'.item.partition) :
    ErasedApart (flashOps (Piece.ofRound r).script) (flashOps (Piece.ofRound r').script) := by
  have hpairs := hsafe.apart
  rw [Board.pieces, List.pairwise_map] at hpairs
  have hsymm : (b.rounds sh disk).Pairwise fun r r' =>
      (r.item.partition ≠ r'.item.partition →
        ErasedApart (flashOps (Piece.ofRound r).script) (flashOps (Piece.ofRound r').script)) ∧
      (r'.item.partition ≠ r.item.partition →
        ErasedApart (flashOps (Piece.ofRound r').script) (flashOps (Piece.ofRound r).script)) :=
    hpairs.imp fun h => ⟨fun hne => h (Or.inl hne), fun hne => (h (Or.inl hne.symm)).symm⟩
  obtain ⟨i, hi, rfl⟩ := List.mem_iff_getElem.mp hr
  obtain ⟨j, hj, rfl⟩ := List.mem_iff_getElem.mp hr'
  rcases Nat.lt_trichotomy i j with hij | rfl | hij
  · exact (List.pairwise_iff_getElem.mp hsymm i j hi hj hij).1 hpartition
  · exact absurd rfl hpartition
  · exact (List.pairwise_iff_getElem.mp hsymm j i hj hi hij).2 hpartition

/-- Safe ranges need slots that are large enough. -/
theorem fits_of_safe (hfl : b.flinfo.type ≠ .emmc) {script : List (Token Command)}
    (hloop : b.Loops sh disk st) (hsafe : Safe b script (b.pieces sh disk)) {sec : Section}
    (hsec : sec ∈ b.nandImages) {filename : Text} (hfile : sec.filename = some filename) {size : ℕ}
    (hsize : getImgSize sh disk filename = .ok size) : size ≤ norplusnandRootfsImgSize := by
  obtain ⟨htype, hmem, hincl, hentry⟩ := mem_nandImages.mp hsec
  obtain ⟨r, hr, rfl⟩ := exists_round hloop hmem
  rcases round_cases hr with hpassed | ⟨p, hp⟩
  · exact absurd htype (hpassed.why hincl).2
  · have himg := hp.imgSize
    rw [disk_rounds htype hr, Option.some.inj (hp.filename.symm.trans hfile), hsize] at himg
    obtain rfl := Except.ok.inj himg
    have hinside := hsafe.inside _ (List.mem_map_of_mem (f := Piece.ofRound) hr)
    rw [hp.ops hfl] at hinside
    obtain ⟨-, -, htarget, hwritten⟩ :=
      target_slot b.flinfo r.before.count (hp.entry.trans hentry)
    rcases Nat.eq_zero_or_pos p.imgSize with hzero | hpos
    · omega
    · have hle := le_of_inside hpos (by omega) hinside
      omega

/-- Safe ranges need NAND partitions that keep clear of the slots. -/
theorem clear_of_safe (hfl : b.flinfo.type ≠ .emmc) (htable : b.Table)
    {script : List (Token Command)} (hloop : b.Loops sh disk st)
    (hsafe : Safe b script (b.pieces sh disk)) {sec : Section} (hsec : sec ∈ b.sections)
    (hincl : sec.included = true) {part : PartInfo} (hentry : b.entry sec = some part)
    (hwhich : part.whichFlash ≠ 0) :
    Disjoint (range part.offset part.length)
      (range 0 (b.nandImages.length * norplusnandRootfsImgSize : ℕ)) := by
  rw [Set.disjoint_left]
  intro x hx hslots
  obtain ⟨k, hk, hx'⟩ := mem_slots.mp hslots
  -- some section is the image of slot `k`
  obtain ⟨sec', hsec'⟩ := List.exists_mem_of_ne_nil _ (List.ne_nil_of_length_pos (Nat.zero_lt_of_lt hk))
  have htype := (mem_nandImages.mp hsec').1
  have hone : ∀ s sec s', flashSection sh b.flinfo b.partitions s sec = .ok s' →
      s'.count ≤ s.count + 1 := by
    intro s sec s' hstep
    rw [count_step htype hstep]
    split <;> omega
  obtain ⟨r, hr, hbefore, hafter⟩ :=
    exists_round_at hone hloop (Nat.zero_le k) (by rwa [count_end htype hloop])
  obtain ⟨r', hr', rfl⟩ := exists_round hloop hsec
  rcases round_cases hr with hpassed | ⟨p, hp⟩
  · have hsame := hpassed.count
    omega
  rcases round_cases hr' with hpassed | ⟨p', hp'⟩
  · rw [(hpassed.why hincl).1] at hentry
    cases hentry
  have hpart : p.partInfo = none := by
    by_contra hne
    have hcount := hp.count
    rw [Option.isNone_iff_eq_none.not.mpr hne |> Bool.eq_false_iff.mpr] at hcount
    simp only [Bool.false_eq_true, if_false] at hcount
    omega
  have hpart' : p'.partInfo = some part := hp'.entry.trans hentry
  have hpartition : r.item.partition ≠ r'.item.partition := by
    intro heq
    have hnone : b.entry r.item = none := hp.entry ▸ hpart
    rw [Board.entry, heq, ← Board.entry, hentry] at hnone
    cases hnone
  have hapart := apart_of_safe hsafe hr hr' hpartition
  rw [hp.ops hfl, hp'.ops hfl, erasedApart_ops] at hapart
  obtain ⟨hcells, hchip, -⟩ := target_slot b.flinfo r.before.count hpart
  obtain ⟨hcells', hchip'⟩ := hp'.target_listed hfl htable hpart'
  rw [hcells, hcells', hchip, hchip', if_neg hwhich, hbefore] at hapart
  exact Set.disjoint_left.mp (hapart rfl) hx' hx

/-- **The ranges of a board's script are safe exactly when the images without an entry fit
their slots.** -/
theorem safe_iff {pk pk' : Packer σ} (hfl : b.flinfo.type ≠ .emmc) (htable : b.Table)
    (h : genBoardScript sh pk b = .ok pk') :
    Safe b (pk'.scr.drop pk.scr.length) (b.pieces sh pk.disk) ↔ b.SlotsFit sh pk.disk := by
  have hspec := genBoardScript_spec h
  obtain ⟨st, hloop, -⟩ := hspec.loops
  constructor
  · intro hsafe
    exact ⟨hsafe.atMostTwo,
      fun sec hsec filename hfile size hsize => fits_of_safe hfl hloop hsafe hsec hfile hsize,
      fun sec hsec hincl part hentry hwhich =>
        clear_of_safe hfl htable hloop hsafe hsec hincl hentry hwhich⟩
  · intro hfit
    refine ⟨writes_script hspec, ?_, ?_, hfit.atMostTwo⟩
    · intro piece hpiece
      obtain ⟨r, hr, rfl⟩ := List.mem_map.mp hpiece
      exact inside_of_slotsFit hfl htable hfit hr
    · rw [Board.pieces, List.pairwise_map]
      have hcounts : (b.rounds sh pk.disk).Pairwise fun r r' => r.after.count ≤ r'.before.count :=
        pairwise_rounds (fun _ _ _ hstep => count_mono hstep) _ _
      exact hcounts.imp_of_mem fun hr hr' hcount hdiff =>
        apart_of_slotsFit hfl htable hfit hloop hr hr' hcount hdiff

end Script

/-- A NOR+NAND board with a boot loader partition on NOR. -/
def norplusnandBoard (sections : List Section) : Board where
  machid := 0x8010006
  flinfo := ⟨.norplusnand, 256, 256⟩
  spiNand := "false".toList
  partitions := fun name => if name = "0:APPSBL".toList then some ⟨0xe0000, 0x80000, 0⟩ else none
  sections := { name := "u-boot".toList, filename := some "u-boot.mbn".toList,
                partition := some "0:APPSBL".toList } :: sections

/-- A section with the name of its partition, which has no entry. -/
def nandSection (name filename : Text) : Section :=
  { name, filename := some filename, partition := some name }

theorem norplusnandBoard_table (sections : List Section) : (norplusnandBoard sections).Table := by
  constructor
  · intro name part hpart hwhich
    dsimp only [norplusnandBoard] at hpart
    split at hpart
    · obtain rfl := Option.some.inj hpart
      have hblock : (norplusnandBoard sections).flinfo.blocksize = 256 * 256 := rfl
      rw [hblock]
      exact Dvd.intro 8 (by norm_num)
    · cases hpart
  · intro name name' part part' hpart hpart' hne
    dsimp only [norplusnandBoard] at hpart hpart'
    split at hpart
    · split at hpart'
      · rename_i hname hname'
        exact absurd (hname.trans hname'.symm) hne
      · cases hpart'
    · cases hpart

/-- The files of the examples. -/
def exampleDisk : Text → Option ℕ := fun name =>
  if name = "huge.ubi".toList then some (64 * 1024 * 1024 + 1) else some 1000

/-- A board with two images without an entry. -/
def twoImages : Board :=
  norplusnandBoard [nandSection "rootfs".toList "rootfs.ubi".toList,
    nandSection "data".toList "data.ubi".toList]

/-- A board with three. -/
def threeImages : Board :=
  norplusnandBoard [nandSection "rootfs".toList "rootfs.ubi".toList,
    nandSection "rootfs_1".toList "rootfs.ubi".toList, nandSection "data".toList "data.ubi".toList]

/-- A board with one that is larger than its slot. -/
def hugeImage : Board := norplusnandBoard [nandSection "rootfs".toList "huge.ubi".toList]

theorem safe_iff_twoImages : ∃ pk', genBoardScript sizesShell { disk := exampleDisk } twoImages =
      .ok pk' ∧
    (Safe twoImages (pk'.scr.drop 0) (twoImages.pieces sizesShell exampleDisk) ↔
      twoImages.SlotsFit sizesShell exampleDisk) := by
  obtain ⟨pk', h⟩ := exists_of_isOk
    (x := genBoardScript sizesShell { disk := exampleDisk } twoImages) (by decide)
  exact ⟨pk', h, safe_iff (by decide) (norplusnandBoard_table _) h⟩

/-- Three NAND images are accepted, and so is one that overruns its slot. -/
theorem not_safe_nandImages :
    (∃ pk', genBoardScript sizesShell { disk := exampleDisk } threeImages = .ok pk' ∧
      ¬ Safe threeImages (pk'.scr.drop 0) (threeImages.pieces sizesShell exampleDisk)) ∧
    ∃ pk', genBoardScript sizesShell { disk := exampleDisk } hugeImage = .ok pk' ∧
      ¬ Safe hugeImage (pk'.scr.drop 0) (hugeImage.pieces sizesShell exampleDisk) := by
  constructor
  · obtain ⟨pk', h⟩ := exists_of_isOk
      (x := genBoardScript sizesShell { disk := exampleDisk } threeImages) (by decide)
    refine ⟨pk', h, fun hsafe => ?_⟩
    exact absurd hsafe.atMostTwo (by decide)
  · obtain ⟨pk', h⟩ := exists_of_isOk
      (x := genBoardScript sizesShell { disk := exampleDisk } hugeImage) (by decide)
    refine ⟨pk', h, fun hsafe => ?_⟩
    have hfl : hugeImage.flinfo.type ≠ .emmc := by decide
    obtain ⟨st, hloop, -⟩ := (genBoardScript_spec h).loops
    have hmem : nandSection "rootfs".toList "huge.ubi".toList ∈ hugeImage.nandImages :=
      mem_nandImages.mpr ⟨rfl, List.mem_cons_of_mem _ List.mem_cons_self, by decide, rfl⟩
    have hsize : getImgSize sizesShell exampleDisk "huge.ubi".toList = .ok (64 * 1024 * 1024 + 1) :=
      rfl
    exact absurd (fits_of_safe hfl hloop hsafe hmem rfl hsize) (by decide)

end Pack
