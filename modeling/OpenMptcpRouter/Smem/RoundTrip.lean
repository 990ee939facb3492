/-
The partition list, printed and parsed again.

The boot loader prints its table for the kernel (`smemPartToMtdparts`) and has a parser of
the same format (`parseMtdparts`).

* `partsLoop_split` — what is printed of a table with the NOR entries in front;
* `deviceParse_eq` — the section of one device, read back;
* `roundTrip` — **every device gets exactly the partitions of its chip**, sorted by
  offset.  The parser refuses a partition without a name and takes the size `0xFFFFFFFF`
  for "the rest of the device"; it knows device sizes in 32 bits only.
-/
import Mathlib.Data.Nat.Digits.Defs
import OpenMptcpRouter.Smem.Mtdparts
import OpenMptcpRouter.Smem.Readers

namespace Mtdparts

open Digits Smem

/-- The bytes of an entry, and its name. -/
def entryDef (b : Board) (p : SmemPtn) : PartDef :=
  ⟨p.size * partBlockSize b p, p.start * partBlockSize b p, p.name⟩

/-- An entry of a usable table. -/
structure Usable (b : Board) (p : SmemPtn) : Prop where
  explicit : p.size ≠ tillEnd
  name_paren : ')' ∉ p.name
  min_le : minPartSize ≤ p.size * partBlockSize b p
  fits : p.start * partBlockSize b p + p.size * partBlockSize b p ≤ (chipOf b p).size
  start_aligned : p.start * partBlockSize b p % (chipOf b p).erasesize = 0
  size_aligned : p.size * partBlockSize b p % (chipOf b p).erasesize = 0
  end_lt : p.start * partBlockSize b p + p.size * partBlockSize b p < 2 ^ 32

/-- An entry the parser takes, too. -/
structure Admitted (b : Board) (p : SmemPtn) : Prop extends Usable b p where
  /-- the parser wants a name -/
  name_ne : p.name ≠ []
  /-- and has a meaning of its own for this size -/
  size_ne : p.size * partBlockSize b p ≠ sizeRemaining

/-- The partitions of a device, as `device_find` finds it. -/
def partsOf (devices : List MtdDevice) (id : MtdId) : List PartInfo :=
  ((deviceFind devices id.type id.num).map MtdDevice.parts).getD []

section Printing

variable {b : Board} {p : SmemPtn} {ps nors nands : List SmemPtn} {text : Text}

theorem good_entryDef (h : Admitted b p) : (entryDef b p).Good (chipOf b p) where
  min_le := h.min_le
  size_lt := by
    have h1 := h.end_lt
    have h2 := h.size_ne
    change p.size * partBlockSize b p < sizeRemaining
    rw [sizeRemaining] at *
    omega
  name_ne := h.name_ne
  name_paren := h.name_paren
  fits := h.fits
  offset_aligned := h.start_aligned
  size_aligned := h.size_aligned

/-- An entry is printed as the definition of its bytes. -/
theorem partText_eq (h : Admitted b p) : partText b p = (entryDef b p).text := by
  have hend := h.end_lt
  have hloff : ∀ n : ℕ, n < 2 ^ 32 → loff n = n := fun n hn => loff_eq_self_iff.mpr (by omega)
  have hsize : psize b p = (p.size * partBlockSize b p : ℕ) := by
    rw [psize, if_neg h.explicit, ← Nat.cast_mul, hloff _ (by omega)]
  have hoffset : poffset b p = (p.start * partBlockSize b p : ℕ) := by
    rw [poffset, ← Nat.cast_mul, hloff _ (by omega)]
  rw [partText, hsize, hoffset]
  rfl

/-- No entry takes up more than 40 characters. -/
theorem length_partText (h : Admitted b p) : (partText b p).length ≤ 40 := by
  have hend := h.end_lt
  have hname := p.name_length
  rw [ptnNameMax] at hname
  have hdec : ∀ n : ℕ, n < 2 ^ 32 → (decimal n).length ≤ 10 := by
    intro n hn
    rw [decimal, if_neg (by omega), Int.toNat_natCast]
    exact Nat.toDigits_length 10 n 10 (by decide) (by omega)
  have hsize : (sizeText (p.size * partBlockSize b p : ℕ)).length ≤ 12 := by
    generalize hs : p.size * partBlockSize b p = s at *
    have h0 := hdec s (by omega)
    have h1 := hdec (s / 2 ^ 10) (by omega)
    have h2 := hdec (s / 2 ^ 20) (by omega)
    push_cast at h0 h1 h2
    rw [sizeText]
    split
    · simpa using h2
    · split
      · simpa using h1
      · simp only [List.length_append, List.length_singleton]
        omega
  have hoffset : (offsetText (p.start * partBlockSize b p : ℕ)).length ≤ 10 := by
    have := Nat.toDigits_length 16 (p.start * partBlockSize b p) 8 (by decide) (by omega)
    rw [offsetText, Int.emod_eq_of_lt (by omega) (by omega), Int.toNat_natCast]
    simp only [List.length_cons]
    omega
  rw [partText_eq h, PartDef.text]
  simp only [List.length_append, List.length_cons, List.length_nil, entryDef]
  omega

theorem length_flatMap_partText (h : ∀ p ∈ ps, Admitted b p) :
    (ps.flatMap (partText b)).length ≤ 40 * ps.length := by
  induction ps with
  | nil => simp
  | cons p ps ih =>
    obtain ⟨hp, hps⟩ := List.forall_mem_cons.mp h
    have := length_partText hp
    have := ih hps
    rw [List.flatMap_cons, List.length_append, List.length_cons]
    omega

/-- While nothing has to be opened, entries are printed one after the other. -/
theorem partsLoop_append {init : Bool} (h : ∀ p ∈ ps, Admitted b p)
    (hinit : ∀ p ∈ ps, partWhichFlash p = 0 ∨ init = true) (text : Text)
    (hroom : text.length + 40 * ps.length < partsMax) (rest : List SmemPtn) :
    partsLoop b text init (ps ++ rest) =
      partsLoop b (text ++ ps.flatMap (partText b)) init rest := by
  induction ps generalizing text with
  | nil => simp
  | cons p ps ih =>
    obtain ⟨hp, hps⟩ := List.forall_mem_cons.mp h
    obtain ⟨hpi, hpsi⟩ := List.forall_mem_cons.mp hinit
    have hlen := length_partText hp
    rw [List.length_cons] at hroom
    have hopen : ¬ (partWhichFlash p ≠ 0 ∧ init = false) := by
      rintro ⟨h0, hfalse⟩
      rcases hpi with h | h
      · exact h0 h
      · exact absurd (h.symm.trans hfalse) (by decide)
    rw [List.cons_append, partsLoop, if_neg (by omega), if_neg hopen,
      ih hps hpsi _ (by rw [List.length_append]; omega), List.flatMap_cons, List.append_assoc]

theorem partsLoop_nil (text : Text) (init : Bool) : partsLoop b text init [] = text := rfl

/-- The section of the NAND chip, opened by its first entry. -/
def nandSection (b : Board) (nands : List SmemPtn) : Text :=
  if nands = [] then [] else ';' :: nandName b ++ ':' :: nands.flatMap (partText b)

theorem length_nandName (b : Board) : (nandName b).length = 5 := by
  rw [nandName]
  split <;> rfl

/-- **A table with the NOR entries in front, printed.** -/
theorem partsLoop_split (hnors : ∀ p ∈ nors, Admitted b p) (hnands : ∀ p ∈ nands, Admitted b p)
    (hnor : ∀ p ∈ nors, partWhichFlash p = 0) (hnand : ∀ p ∈ nands, partWhichFlash p ≠ 0)
    (hroom : text.length + 40 * (nors.length + nands.length) + 7 < partsMax) :
    partsLoop b text false (nors ++ nands) =
        text ++ nors.flatMap (partText b) ++ nandSection b nands ∧
      (text ++ nors.flatMap (partText b) ++ nandSection b nands).length < partsMax := by
  have hlnor := length_flatMap_partText hnors
  have hname := length_nandName b
  rw [partsLoop_append hnors (fun p hp => Or.inl (hnor p hp)) _ (by omega)]
  rcases nands with _ | ⟨p, nands⟩
  · rw [partsLoop_nil, nandSection, if_pos rfl, List.append_nil]
    refine ⟨rfl, ?_⟩
    rw [List.length_append]
    omega
  · obtain ⟨hp, hps⟩ := List.forall_mem_cons.mp hnands
    have hlp := length_partText hp
    have hlps := length_flatMap_partText hps
    have hopen : partWhichFlash p ≠ 0 ∧ (false = false) := ⟨hnand p List.mem_cons_self, rfl⟩
    rw [List.length_cons] at hroom
    have hrest : ∀ text : Text, text.length + 40 * nands.length < partsMax →
        partsLoop b text true nands = text ++ nands.flatMap (partText b) := by
      intro text htext
      have h : partsLoop b text true (nands ++ []) = _ :=
        partsLoop_append hps (fun _ _ => Or.inr rfl) text htext []
      rwa [List.append_nil, partsLoop_nil] at h
    rw [partsLoop, if_neg (by rw [List.length_append]; omega), if_pos hopen, hrest]
    · rw [nandSection, if_neg (List.cons_ne_nil _ _), List.flatMap_cons]
      refine ⟨by simp, ?_⟩
      simp only [List.length_append, List.length_cons]
      omega
    · simp only [List.length_append, List.length_cons]
      omega

end Printing

section Parsing

variable {ids : List MtdId} {devices : List MtdDevice} {id : MtdId} {defs : List PartDef}
  {rest : Text}

theorem length_flatMap_text (defs : List PartDef) :
    defs.length ≤ (defs.flatMap PartDef.text).length := by
  induction defs with
  | nil => simp
  | cons d defs ih =>
    obtain ⟨c, cs, hcs, -⟩ := text_head d
    rw [List.flatMap_cons, List.length_append, hcs, List.length_cons, List.length_cons]
    omega

/-- What `device_parse` leaves of the text: the separator before the next device is gone. -/
def afterDevice : Text → Text
  | ';' :: p => p
  | p => p

/-- **The section of a device, read back.** -/
theorem deviceParse_eq {name : Text} (hcolon : ':' ∉ name)
    (hfind : idFindByMtdId ids name = some id) (hmtd : id.mtd.size < 2 ^ 32)
    (huniform : id.mtd.eraseregions = []) (hrest : ∀ c ∈ rest.head?, c = ';')
    (hdefs : ∀ d ∈ defs, d.Good id.mtd) (hne : defs ≠ [])
    (hzero : defs.Pairwise fun d e => ¬ (d.offset = 0 ∧ e.offset = 0)) :
    ∃ parts, deviceParse ids devices (name ++ ':' :: (defs.flatMap PartDef.text ++ rest)) =
        .ok (afterDevice rest, ⟨id, parts⟩) ∧
      (parts.map PartInfo.partDef).Perm defs ∧ parts.Pairwise ByOffset := by
  have hspan : (name ++ ':' :: (defs.flatMap PartDef.text ++ rest)).span (· ≠ ':') =
      (name, ':' :: (defs.flatMap PartDef.text ++ rest)) := by
    rw [List.span_eq_takeWhile_dropWhile]
    have hall : ∀ c ∈ name, decide (c ≠ ':') = true := fun c hc =>
      decide_eq_true fun h => hcolon (h ▸ hc)
    rw [List.takeWhile_append_of_pos hall, List.dropWhile_append_of_pos hall]
    simp
  let made := defs.map fun d => d.part id.mtd.erasesize
  have hmade : made ≠ [] := by simpa [made] using hne
  have hzero' : ([] ++ made).Pairwise NotBothZero := by
    rw [List.nil_append, List.pairwise_map]
    exact hzero
  obtain ⟨parts, hsort, hperm, hsorted⟩ := sortParts_eq List.Pairwise.nil hzero'
  refine ⟨parts, ?_, ?_, hsorted⟩
  · have hfuel : defs.length ≤ (defs.flatMap PartDef.text ++ rest).length := by
      have := length_flatMap_text defs
      rw [List.length_append]
      omega
    have hparse : ∀ offset, parseParts id (defs.flatMap PartDef.text ++ rest).length offset
        (defs.flatMap PartDef.text ++ rest) [] = .ok (rest, made) := fun offset =>
      parseParts_eq hmtd huniform hrest defs hdefs hfuel offset []
    rw [deviceParse, hspan]
    simp only [bind, Except.bind, hfind, hparse, if_neg hmade, hsort]
    rfl
  · have := hperm.map PartInfo.partDef
    rw [List.nil_append, List.map_map] at this
    have hback : (PartInfo.partDef ∘ fun d : PartDef => d.part id.mtd.erasesize) = fun d => d := rfl
    rwa [hback, List.map_id'] at this

theorem parseDevices_step {fuel : ℕ} {p p' : Text} {dev : MtdDevice} (hp : p ≠ [])
    (hparse : deviceParse ids devices p = .ok (p', dev))
    (hnew : deviceFind devices dev.id.type dev.id.num = none) :
    parseDevices ids (fuel + 1) devices p = parseDevices ids fuel (devices ++ [dev]) p' := by
  obtain ⟨c, cs, rfl⟩ := List.exists_cons_of_ne_nil hp
  rw [parseDevices, hparse]
  · simp only [bind, Except.bind, hnew]
    rfl
  · exact fun h => absurd h (List.cons_ne_nil _ _)

theorem parseDevices_nil {fuel : ℕ} : parseDevices ids fuel devices [] = .ok devices := by
  cases fuel <;> rfl

end Parsing

section Table

variable {b : Board} {table : List SmemPtn}

/-- The entries of a chip. -/
def onChip (table : List SmemPtn) (which : ℕ) : List SmemPtn :=
  table.filter fun p => partWhichFlash p = which

/-- A table with the NOR entries in front. -/
theorem split_chips (hflash : ∀ p ∈ table, partWhichFlash p = 0 ∨ partWhichFlash p = 1)
    (horder : table.Pairwise fun p q => partWhichFlash p ≤ partWhichFlash q) :
    table = onChip table 0 ++ onChip table 1 := by
  induction table with
  | nil => rfl
  | cons p table ih =>
    obtain ⟨hp, htable⟩ := List.forall_mem_cons.mp hflash
    obtain ⟨hle, horder⟩ := List.pairwise_cons.mp horder
    have ih := ih htable horder
    rcases hp with h | h
    · rw [onChip, onChip, List.filter_cons_of_pos (by simpa using h),
        List.filter_cons_of_neg (by simp [h]), List.cons_append]
      exact congrArg _ ih
    · -- behind a NAND entry there is no NOR entry
      have hnil : onChip table 0 = [] := by
        rw [onChip, List.filter_eq_nil_iff]
        intro q hq h0
        have := hle q hq
        have h0 : partWhichFlash q = 0 := by simpa using h0
        omega
      rw [onChip, onChip, List.filter_cons_of_neg (by simp [h]),
        List.filter_cons_of_pos (by simpa using h)]
      rw [hnil, List.nil_append] at ih
      change p :: table = onChip table 0 ++ p :: onChip table 1
      rw [hnil, List.nil_append, ← ih]

end Table

section RoundTrip

/-- What the parser is given besides the list: the boot flash is called `norName` in
`mtdids`, and both chips are in it. -/
structure MtdIds (b : Board) (ids : List MtdId) (norName : Text) (nor nand : MtdId) : Prop where
  find_nor : idFindByMtdId ids norName = some nor
  find_nand : idFindByMtdId ids (nandName b) = some nand
  nor_mtd : nor.mtd = b.nor
  nand_mtd : nand.mtd = b.nand
  different : ¬ (nor.type = nand.type ∧ nor.num = nand.num)
  /-- an id ends at the first colon -/
  no_colon : ':' ∉ norName
  /-- below `MTDIDS_MAXLEN` -/
  name_length : norName.length < 128
  nor_uniform : b.nor.eraseregions = []
  nand_uniform : b.nand.eraseregions = []

/-- The sizes of the chips fit in the 32 bits the parser has for them. -/
structure SmallChips (b : Board) : Prop where
  nor_size : b.nor.size < 2 ^ 32
  nand_size : b.nand.size < 2 ^ 32

/-- A table that can be handed to the kernel. -/
structure TableAdmitted (b : Board) (table : List SmemPtn) : Prop where
  length_le : table.length ≤ 32
  flash : ∀ p ∈ table, partWhichFlash p = 0 ∨ partWhichFlash p = 1
  order : table.Pairwise fun p q => partWhichFlash p ≤ partWhichFlash q
  nor_mem : ∃ p ∈ table, partWhichFlash p = 0
  admitted : ∀ p ∈ table, Admitted b p
  /-- at most one entry of a chip starts at 0 -/
  one_zero : table.Pairwise fun p q =>
    partWhichFlash p = partWhichFlash q → ¬ (p.start = 0 ∧ q.start = 0)

/-- The device holds exactly these partitions, by offset. -/
def Holds (devices : List MtdDevice) (id : MtdId) (defs : List PartDef) : Prop :=
  ((partsOf devices id).map PartInfo.partDef).Perm defs ∧ (partsOf devices id).Pairwise ByOffset

variable {b : Board} {table : List SmemPtn} {ids : List MtdId} {norName : Text} {nor nand : MtdId}

theorem flatMap_entryDef {ps : List SmemPtn} (h : ∀ p ∈ ps, Admitted b p) :
    ps.flatMap (partText b) = (ps.map (entryDef b)).flatMap PartDef.text := by
  rw [List.flatMap_map]
  exact List.flatMap_congr fun p hp => partText_eq (h p hp)

/-- The definitions of a chip fit its device, and at most one of them starts at 0. -/
theorem defs_onChip (htable : TableAdmitted b table) {which : ℕ} {mtd : Mtd}
    (hmtd : ∀ p, partWhichFlash p = which → chipOf b p = mtd) :
    (∀ d ∈ (onChip table which).map (entryDef b), d.Good mtd) ∧
      ((onChip table which).map (entryDef b)).Pairwise fun d e => ¬ (d.offset = 0 ∧ e.offset = 0) := by
  have hmem : ∀ p ∈ onChip table which, p ∈ table ∧ partWhichFlash p = which := by
    intro p hp
    obtain ⟨hp, hw⟩ := List.mem_filter.mp hp
    exact ⟨hp, by simpa using hw⟩
  constructor
  · intro d hd
    obtain ⟨p, hp, rfl⟩ := List.mem_map.mp hd
    obtain ⟨hp, hw⟩ := hmem p hp
    exact hmtd p hw ▸ good_entryDef (htable.admitted p hp)
  · rw [List.pairwise_map]
    refine (htable.one_zero.filter _).imp_of_mem fun {p q} hp hq h0 => ?_
    have hzero : ∀ p, (entryDef b p).offset = 0 → p.start = 0 := by
      intro p h
      rcases Nat.mul_eq_zero.mp h with h | h
      · exact h
      · exact absurd h (partBlockSize_pos b p).ne'
    rintro ⟨hp0, hq0⟩
    exact h0 ((hmem p hp).2.trans (hmem q hq).2.symm) ⟨hzero p hp0, hzero q hq0⟩

theorem admitted_onChip (htable : TableAdmitted b table) {which : ℕ} {p : SmemPtn}
    (hp : p ∈ onChip table which) : Admitted b p ∧ partWhichFlash p = which := by
  obtain ⟨hp, hw⟩ := List.mem_filter.mp hp
  exact ⟨htable.admitted p hp, by simpa using hw⟩

/-- The whole list, as printed: it fits in the buffer. -/
theorem printed (htable : TableAdmitted b table) (hlen : norName.length < 128) :
    smemPartToMtdparts b table ("mtdparts=".toList ++ norName) =
      some ("mtdparts=".toList ++ (norName ++ ':' ::
        (((onChip table 0).map (entryDef b)).flatMap PartDef.text ++
          nandSection b (onChip table 1)))) := by
  have hsplit := split_chips htable.flash htable.order
  have htablelen := htable.length_le
  rw [hsplit, List.length_append] at htablelen
  have hroom : ("mtdparts=".toList ++ norName ++ [':']).length +
      40 * ((onChip table 0).length + (onChip table 1).length) + 7 < partsMax := by
    have hlead : "mtdparts=".toList.length = 9 := rfl
    rw [List.length_append, List.length_append, List.length_singleton, hlead, partsMax]
    omega
  have hprint := partsLoop_split (b := b) (fun p hp => (admitted_onChip htable hp).1)
    (fun p hp => (admitted_onChip htable hp).1) (fun p hp => (admitted_onChip htable hp).2)
    (fun p hp => by rw [(admitted_onChip htable hp).2]; decide) hroom
  rw [← hsplit] at hprint
  have hne : table ≠ [] := by
    obtain ⟨p, hp, -⟩ := htable.nor_mem
    exact List.ne_nil_of_mem hp
  rw [smemPartToMtdparts, if_neg hne, hprint.1, List.take_of_length_le (by omega),
    flatMap_entryDef fun p hp => (admitted_onChip htable hp).1]
  simp

/-- The first device of the list. -/
theorem parse_nor (htable : TableAdmitted b table) (hids : MtdIds b ids norName nor nand)
    (hsmall : SmallChips b) {rest : Text} (hrest : ∀ c ∈ rest.head?, c = ';') :
    ∃ parts, deviceParse ids [] (norName ++ ':' ::
        (((onChip table 0).map (entryDef b)).flatMap PartDef.text ++ rest)) =
          .ok (afterDevice rest, ⟨nor, parts⟩) ∧
      (parts.map PartInfo.partDef).Perm ((onChip table 0).map (entryDef b)) ∧
      parts.Pairwise ByOffset := by
  have hmtd : ∀ p, partWhichFlash p = 0 → chipOf b p = nor.mtd := by
    intro p h
    rw [chipOf, h, hids.nor_mtd]
    rfl
  obtain ⟨hdefs, hzero⟩ := defs_onChip htable hmtd
  have hne : (onChip table 0).map (entryDef b) ≠ [] := by
    obtain ⟨p, hp, h0⟩ := htable.nor_mem
    have hmem : p ∈ onChip table 0 := List.mem_filter.mpr ⟨hp, by simpa using h0⟩
    exact List.ne_nil_of_mem (List.mem_map_of_mem hmem)
  exact deviceParse_eq hids.no_colon hids.find_nor (hids.nor_mtd ▸ hsmall.nor_size)
    (hids.nor_mtd ▸ hids.nor_uniform) hrest hdefs hne hzero

/-- The second device of the list. -/
theorem parse_nand (htable : TableAdmitted b table) (hids : MtdIds b ids norName nor nand)
    (hsmall : SmallChips b) (hne : onChip table 1 ≠ []) (devices : List MtdDevice) :
    ∃ parts, deviceParse ids devices (afterDevice (nandSection b (onChip table 1))) =
          .ok ([], ⟨nand, parts⟩) ∧
      (parts.map PartInfo.partDef).Perm ((onChip table 1).map (entryDef b)) ∧
      parts.Pairwise ByOffset := by
  have hmtd : ∀ p, partWhichFlash p = 1 → chipOf b p = nand.mtd := by
    intro p h
    rw [chipOf, h, hids.nand_mtd]
    rfl
  obtain ⟨hdefs, hzero⟩ := defs_onChip htable hmtd
  have hcolon : ':' ∉ nandName b := by
    rw [nandName]
    split <;> decide
  have hsection : afterDevice (nandSection b (onChip table 1)) =
      nandName b ++ ':' :: (((onChip table 1).map (entryDef b)).flatMap PartDef.text ++ []) := by
    rw [nandSection, if_neg hne, flatMap_entryDef fun p hp => (admitted_onChip htable hp).1,
      List.append_nil]
    rfl
  rw [hsection]
  exact deviceParse_eq hcolon hids.find_nand (hids.nand_mtd ▸ hsmall.nand_size)
    (hids.nand_mtd ▸ hids.nand_uniform) (fun _ h => by cases h) hdefs (by simpa using hne) hzero

/-- **Round trip.**  The list printed of an admitted table is parsed, and every device
gets exactly the partitions of its chip, sorted by offset. -/
theorem roundTrip (htable : TableAdmitted b table) (hids : MtdIds b ids norName nor nand)
    (hsmall : SmallChips b) :
    ∃ text devices,
      smemPartToMtdparts b table ("mtdparts=".toList ++ norName) = some text ∧
        parseMtdparts ids text = .ok devices ∧
        Holds devices nor ((onChip table 0).map (entryDef b)) ∧
        Holds devices nand ((onChip table 1).map (entryDef b)) := by
  have hhead : ∀ c ∈ (nandSection b (onChip table 1)).head?, c = ';' := by
    rw [nandSection]
    split
    · exact nofun
    · exact fun c hc => (Option.some.inj hc).symm
  obtain ⟨norParts, hnor, hnorPerm, hnorSorted⟩ := parse_nor htable hids hsmall hhead
  -- the text begins with the prefix, the devices come behind it
  have hparse : ∀ p devices, p ≠ [] → parseDevices ids ("mtdparts=".toList ++ p).length [] p =
      .ok devices → parseMtdparts ids ("mtdparts=".toList ++ p) = .ok devices := by
    intro p devices hp hdevices
    have hdrop : ("mtdparts=".toList ++ p).drop 9 = p := rfl
    rw [parseMtdparts, if_pos (by simp), hdrop, if_neg hp]
    exact hdevices
  have hfirst : ∀ fuel, parseDevices ids (fuel + 1) [] _ = _ := fun fuel =>
    parseDevices_step (by simp) hnor rfl
  have hfindNor : ∀ devices, partsOf (⟨nor, norParts⟩ :: devices) nor = norParts := by
    intro devices
    simp [partsOf, deviceFind]
  have hnotNand : deviceFind [⟨nor, norParts⟩] nand.type nand.num = none := by
    simpa [deviceFind] using fun h1 h2 => hids.different ⟨h1, h2⟩
  have hlenNor : 9 ≤ ("mtdparts=".toList ++ (norName ++ ':' ::
      (((onChip table 0).map (entryDef b)).flatMap PartDef.text ++
        nandSection b (onChip table 1)))).length := by
    rw [List.length_append]
    exact Nat.le_add_right ..
  obtain ⟨fuel, hfuel⟩ := Nat.exists_eq_add_of_le hlenNor
  by_cases hne : onChip table 1 = []
  · refine ⟨_, [⟨nor, norParts⟩], printed htable hids.name_length, hparse _ _ (by simp) ?_, ?_, ?_⟩
    · rw [hfuel, show 9 + fuel = (8 + fuel) + 1 by omega, hfirst, hne, nandSection, if_pos rfl]
      exact parseDevices_nil
    · rw [Holds, hfindNor]
      exact ⟨hnorPerm, hnorSorted⟩
    · rw [Holds, partsOf, hnotNand, hne]
      exact ⟨List.Perm.nil, List.Pairwise.nil⟩
  · obtain ⟨nandParts, hnand, hnandPerm, hnandSorted⟩ :=
      parse_nand htable hids hsmall hne [⟨nor, norParts⟩]
    have hsection : afterDevice (nandSection b (onChip table 1)) ≠ [] := by
      rw [nandSection, if_neg hne]
      simp [afterDevice]
    refine ⟨_, [⟨nor, norParts⟩, ⟨nand, nandParts⟩], printed htable hids.name_length,
      hparse _ _ (by simp) ?_, ?_, ?_⟩
    · rw [hfuel, show 9 + fuel = (7 + fuel + 1) + 1 by omega, hfirst, List.nil_append,
        parseDevices_step hsection hnand hnotNand]
      exact parseDevices_nil
    · rw [Holds, hfindNor]
      exact ⟨hnorPerm, hnorSorted⟩
    · have hfindNand : partsOf [⟨nor, norParts⟩, ⟨nand, nandParts⟩] nand = nandParts := by
        rw [partsOf, deviceFind, List.find?_cons_of_neg (by simpa [deviceFind] using hnotNand)]
        simp
      rw [Holds, hfindNand]
      exact ⟨hnandPerm, hnandSorted⟩

/-- `0:ART` on the NOR chip and `rootfs` on the NAND chip. -/
def exampleTable : List SmemPtn :=
  [artEntry, { rootfsEntry with size := 0x100, size_lt := by decide }]

/-- `nand2=spi0.0,nand1=nand1`. -/
def exampleIds (b : Board) : List MtdId :=
  [⟨.nand, 2, "spi0.0".toList, b.nor⟩, ⟨.nand, 1, "nand1".toList, b.nand⟩]

theorem roundTrip_example :
    ∃ text devices,
      smemPartToMtdparts exampleBoard exampleTable ("mtdparts=".toList ++ "spi0.0".toList) =
          some text ∧
        parseMtdparts (exampleIds exampleBoard) text = .ok devices ∧
        Holds devices ⟨.nand, 2, "spi0.0".toList, exampleBoard.nor⟩
          ((onChip exampleTable 0).map (entryDef exampleBoard)) ∧
        Holds devices ⟨.nand, 1, "nand1".toList, exampleBoard.nand⟩
          ((onChip exampleTable 1).map (entryDef exampleBoard)) := by
  refine roundTrip ⟨by decide, by decide, by decide, by decide, ?_, by decide⟩
    ⟨rfl, rfl, rfl, rfl, by decide, by decide, by decide, rfl, rfl⟩ ⟨by decide, by decide⟩
  have hadmitted : ∀ p ∈ exampleTable, p.size ≠ tillEnd ∧ ')' ∉ p.name ∧
      minPartSize ≤ p.size * partBlockSize exampleBoard p ∧
      p.start * partBlockSize exampleBoard p + p.size * partBlockSize exampleBoard p ≤
        (chipOf exampleBoard p).size ∧
      p.start * partBlockSize exampleBoard p % (chipOf exampleBoard p).erasesize = 0 ∧
      p.size * partBlockSize exampleBoard p % (chipOf exampleBoard p).erasesize = 0 ∧
      p.start * partBlockSize exampleBoard p + p.size * partBlockSize exampleBoard p < 2 ^ 32 ∧
      p.name ≠ [] ∧ p.size * partBlockSize exampleBoard p ≠ sizeRemaining := by decide
  intro p hp
  obtain ⟨h1, h2, h3, h4, h5, h6, h7, h8, h9⟩ := hadmitted p hp
  exact ⟨⟨h1, h2, h3, h4, h5, h6, h7⟩, h8, h9⟩

/-- A block without a name. -/
def unnamedEntry : SmemPtn :=
  { artEntry with
    nameBytes := padded ""
    nameBytes_length := by decide
    name_nul := by decide }

/-- A NOR chip that is one partition of `2 ^ 32 - 1` bytes. -/
def oddBoard : Board :=
  { exampleBoard with
    flashBlockSize := 0xFFFF
    nor := { size := 0xFFFFFFFF, erasesize := 0xFFFF, size_lt := by decide,
             erasesize_pos := by decide, erasesize_lt := by decide }
    flashBlockSize_pos := by decide
    flashBlockSize_lt := by decide }

/-- That partition. -/
def wholeEntry : SmemPtn :=
  { artEntry with start := 0, size := 0x10001, start_lt := rootfsEntry.start_lt, size_lt := by decide }

/-- A NOR chip of 4 GiB. -/
def largeBoard : Board :=
  { exampleBoard with
    nor := { size := 2 ^ 32, erasesize := 0x10000, size_lt := by decide,
             erasesize_pos := exampleBoard.nor.erasesize_pos,
             erasesize_lt := exampleBoard.nor.erasesize_lt } }

/-- What a usable table needs beyond that: a name for every partition, no partition of
`2 ^ 32 - 1` bytes, no chip of 4 GiB. -/
theorem usable_refused :
    (Usable exampleBoard unnamedEntry ∧
      (smemPartToMtdparts exampleBoard [unnamedEntry] "mtdparts=spi0.0".toList).map
        (parseMtdparts (exampleIds exampleBoard)) = some (.error .emptyName)) ∧
    (Usable oddBoard wholeEntry ∧
      (smemPartToMtdparts oddBoard [wholeEntry] "mtdparts=spi0.0".toList).map
        (parseMtdparts (exampleIds oddBoard)) = some (.error .afterFillUp)) ∧
    (Usable largeBoard artEntry ∧
      (smemPartToMtdparts largeBoard [artEntry] "mtdparts=spi0.0".toList).map
        (parseMtdparts (exampleIds largeBoard)) = some (.error .offsetBeyond)) :=
  ⟨⟨⟨by decide, by decide, by decide, by decide, by decide, by decide, by decide⟩, by rfl⟩,
    ⟨⟨by decide, by decide, by decide, by decide, by decide, by decide, by decide⟩, by rfl⟩,
    ⟨⟨by decide, by decide, by decide, by decide, by decide, by decide, by decide⟩, by rfl⟩⟩

end RoundTrip

end Mtdparts
