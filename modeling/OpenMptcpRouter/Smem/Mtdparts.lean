/-
The parser of the partition list (`common/cmd_mtdparts.c`).

    mtdparts=<mtd-id>:<part-def>[,<part-def>...][;<mtd-id>:...]

with `<part-def> := <size>[@<offset>][(<name>)][ro]`.  `deviceParse` reads the definitions
for one device, checks each against the device, and then sorts them by offset;
`parseMtdparts` reads all devices.

* `partParse_eq`, `parseParts_eq` — what the parser makes of definitions of the full form;
* `sortParts_eq` — the partitions of a device end up sorted, none lost or doubled.
-/
import Mathlib.Data.List.Sort
import OpenMptcpRouter.Smem.Table
import OpenMptcpRouter.Upgrade.Flash

namespace Mtdparts

open Digits Smem Upgrade

/-- Why the parser gives up. -/
inductive ParseError
  /-- partition size too small -/
  | sizeTooSmall (size : ℕ)
  /-- no closing ) found in partition name -/
  | noClosing
  /-- empty partition name -/
  | emptyName
  /-- no partitions allowed after a fill-up partition -/
  | afterFillUp
  /-- unexpected character at the end of partition -/
  | unexpected (c : Char)
  /-- offset beyond flash size -/
  | offsetBeyond
  /-- size too big -/
  | sizeTooBig
  /-- partitioning exceeds flash size -/
  | exceedsFlash
  /-- start offset alignment incorrect -/
  | startAlignment
  /-- size alignment incorrect -/
  | sizeAlignment
  /-- no <mtd-id> identifier -/
  | noMtdId
  /-- invalid mtd device -/
  | invalidDevice (id : Text)
  /-- nothing behind the device, which is no message of its own -/
  | emptyDevice
  /-- cannot add second partition at offset 0 -/
  | secondAtZero
  /-- device redefined, please correct mtdparts variable -/
  | redefined
  /-- mtdparts variable doesn't start with 'mtdparts=' -/
  | noPrefix
  /-- nothing behind the prefix, which is no message of its own -/
  | noDevices
  deriving DecidableEq, Repr

/-- `struct part_info`. -/
structure PartInfo where
  name : Text
  autoName : Bool
  size : ℕ
  offset : ℕ
  maskFlags : ℕ
  sectorSize : ℕ
  deriving DecidableEq, Repr

/-- The kind of a device. -/
inductive DevType
  | nor | nand | onenand
  deriving DecidableEq, Repr

/-- `struct mtdids`, with the device it names. -/
structure MtdId where
  type : DevType
  num : ℕ
  mtdId : Text
  mtd : Mtd

/-- `id->size`, 32 bits wide. -/
def MtdId.size (id : MtdId) : ℕ := id.mtd.size % 2 ^ 32

/-- `struct mtd_device`. -/
structure MtdDevice where
  id : MtdId
  parts : List PartInfo

/-- `SIZE_REMAINING`. -/
def sizeRemaining : ℕ := 0xFFFFFFFF

/-- `OFFSET_NOT_SPECIFIED`. -/
def offsetNotSpecified : ℕ := 0xFFFFFFFF

/-- `MIN_PART_SIZE`. -/
def minPartSize : ℕ := 4096

/-- The unit behind a number, and the text behind it: each case of the `switch` falls
through to the smaller units. -/
def memsizeUnit : Text → ℕ × Text
  | 'G' :: p | 'g' :: p => (2 ^ 30, p)
  | 'M' :: p | 'm' :: p => (2 ^ 20, p)
  | 'K' :: p | 'k' :: p => (2 ^ 10, p)
  | p => (1, p)

/-- `memsize_parse`. -/
def memsizeParse (ptr : Text) : ℕ × Text :=
  let (ret, p) := simpleStrtoul 0 ptr
  let (unit, p) := memsizeUnit p
  (ret * unit % 2 ^ 32, p)

/-- `fetch the partition size`. -/
def parseSize : Text → Except ParseError (ℕ × Text)
  | '-' :: p => .ok (sizeRemaining, p)
  | p =>
    let (size, p) := memsizeParse p
    if size < minPartSize then .error (.sizeTooSmall size) else .ok (size, p)

/-- `check for offset`. -/
def parseOffset : Text → ℕ × Text
  | '@' :: p => memsizeParse p
  | p => (offsetNotSpecified, p)

/-- `now look for the name`; without one it is made up later. -/
def parseName : Text → Except ParseError (Option Text × Text)
  | '(' :: p =>
    match p.span (· ≠ ')') with
    | (_, []) => .error .noClosing
    | ([], _ :: _) => .error .emptyName
    | (name, _ :: p) => .ok (some name, p)
  | p => .ok (none, p)

/-- `test for options`. -/
def parseOptions : Text → ℕ × Text
  | 'r' :: 'o' :: p => (1, p)
  | p => (0, p)

/-- `%08lx`. -/
def hex08 (n : ℕ) : Text :=
  let digits := Nat.toDigits 16 n
  List.replicate (8 - digits.length) '0' ++ digits

/-- `part_parse`: the text behind the definition, and the partition. -/
def partParse (partdef : Text) : Except ParseError (Text × PartInfo) := do
  let (size, p) ← parseSize partdef
  let (offset, p) := parseOffset p
  let (name, p) ← parseName p
  let (maskFlags, p) := parseOptions p
  let part : PartInfo :=
    { name := name.getD ("0x".toList ++ hex08 size ++ "@0x".toList ++ hex08 offset)
      autoName := name.isNone
      size := size
      offset := offset
      maskFlags := maskFlags
      sectorSize := 0 }
  match p with
  | ',' :: p => if size = sizeRemaining then .error .afterFillUp else .ok (p, part)
  | [] => .ok ([], part)
  | ';' :: p => .ok (';' :: p, part)
  | c :: _ => .error (.unexpected c)

/-- The offsets at which the blocks of the erase regions start. -/
def blockStarts (regions : List (ℕ × ℕ × ℕ)) : List ℕ :=
  regions.flatMap fun (offset, erasesize, numblocks) =>
    (List.range numblocks).map fun j => (offset + j * erasesize) % 2 ^ 32

/-- Where the last erase region ends. -/
def regionsEnd (regions : List (ℕ × ℕ × ℕ)) : ℕ :=
  match regions.getLast? with
  | none => 0
  | some (offset, erasesize, numblocks) => (offset + numblocks * erasesize) % 2 ^ 32

/-- `part_validate_eraseblock`. -/
def partValidateEraseblock (mtd : Mtd) (part : PartInfo) : Except ParseError PartInfo :=
  let part := { part with sectorSize := mtd.erasesize }
  if mtd.eraseregions = [] then
    if part.offset % mtd.erasesize ≠ 0 then .error .startAlignment
    else if part.size % mtd.erasesize ≠ 0 then .error .sizeAlignment
    else .ok part
  else if part.offset ∉ blockStarts mtd.eraseregions then .error .startAlignment
  else if (part.offset + part.size) % 2 ^ 32 ∉
      regionsEnd mtd.eraseregions :: blockStarts mtd.eraseregions then .error .sizeAlignment
  else .ok part

/-- `part_validate`, all in 32 bits. -/
def partValidate (id : MtdId) (part : PartInfo) : Except ParseError PartInfo :=
  let part := if part.size = sizeRemaining then
      { part with size := (id.size + 2 ^ 32 - part.offset) % 2 ^ 32 } else part
  if part.offset > id.size then .error .offsetBeyond
  else if (part.offset + part.size) % 2 ^ 32 ≤ part.offset then .error .sizeTooBig
  else if (part.offset + part.size) % 2 ^ 32 > id.size then .error .exceedsFlash
  else partValidateEraseblock id.mtd part

/-- The loop of `device_parse` over the definitions of a device.  Each takes up at least
one character, `fuel` is the length of the text. -/
def parseParts (id : MtdId) : ℕ → ℕ → Text → List PartInfo → Except ParseError (Text × List PartInfo)
  | _, _, [], tmpList => .ok ([], tmpList)
  | _, _, ';' :: p, tmpList => .ok (';' :: p, tmpList)
  | 0, _, c :: _, _ => .error (.unexpected c)
  | fuel + 1, offset, p, tmpList => do
    let (p, part) ← partParse p
    -- calculate offset when not specified
    let part := if part.offset = offsetNotSpecified then { part with offset := offset } else part
    let part ← partValidate id part
    parseParts id fuel ((part.offset + part.size) % 2 ^ 32) p (tmpList ++ [part])

/-- `part_sort_add`. -/
def partSortAdd (part : PartInfo) : List PartInfo → Except ParseError (List PartInfo)
  | [] => .ok [part]
  | pi :: parts =>
    if part.offset = pi.offset ∧ pi.offset = 0 then .error .secondAtZero
    else if part.offset ≤ pi.offset then .ok (part :: pi :: parts)
    else do
      let parts ← partSortAdd part parts
      .ok (pi :: parts)

/-- The loop of `device_parse` that moves the partitions into the device. -/
def sortParts (parts : List PartInfo) : List PartInfo → Except ParseError (List PartInfo)
  | [] => .ok parts
  | part :: tmpList => do
    let parts ← partSortAdd part parts
    sortParts parts tmpList

/-- `id_find_by_mtd_id`. -/
def idFindByMtdId (mtdids : List MtdId) (mtdId : Text) : Option MtdId :=
  mtdids.find? fun id => id.mtdId == mtdId

/-- `device_find`. -/
def deviceFind (devices : List MtdDevice) (type : DevType) (num : ℕ) : Option MtdDevice :=
  devices.find? fun dev => dev.id.type == type && dev.id.num == num

/-- `device_parse`: the text behind the device, and the device. -/
def deviceParse (mtdids : List MtdId) (devices : List MtdDevice) (mtdDev : Text) :
    Except ParseError (Text × MtdDevice) := do
  let (mtdId, p) ← match mtdDev.span (· ≠ ':') with
    | (_, []) => .error .noMtdId
    | (mtdId, _ :: p) => .ok (mtdId, p)
  let id ← match idFindByMtdId mtdids mtdId with
    | none => .error (.invalidDevice mtdId)
    | some id => .ok id
  -- if the device already exists, start at the end of the last partition
  let offset := match deviceFind devices id.type id.num with
    | none => 0
    | some dev => (dev.parts.getLast?.map fun part => (part.offset + part.size) % 2 ^ 32).getD 0
  let (p, tmpList) ← parseParts id p.length offset p []
  if tmpList = [] then .error .emptyDevice
  else
    let parts ← sortParts [] tmpList
    .ok (match p with | ';' :: p => p | p => p, ⟨id, parts⟩)

/-- The loop of `parse_mtdparts`. -/
def parseDevices (mtdids : List MtdId) : ℕ → List MtdDevice → Text →
    Except ParseError (List MtdDevice)
  | _, devices, [] => .ok devices
  | 0, _, c :: _ => .error (.unexpected c)
  | fuel + 1, devices, p => do
    let (p, dev) ← deviceParse mtdids devices p
    if (deviceFind devices dev.id.type dev.id.num).isSome then .error .redefined
    else parseDevices mtdids fuel (devices ++ [dev]) p

/-- `parse_mtdparts`. -/
def parseMtdparts (mtdids : List MtdId) (mtdparts : Text) : Except ParseError (List MtdDevice) :=
  if "mtdparts=".toList.isPrefixOf mtdparts then
    if mtdparts.drop 9 = [] then .error .noDevices
    else parseDevices mtdids mtdparts.length [] (mtdparts.drop 9)
  else .error .noPrefix

/-- A size, an offset and a name. -/
structure PartDef where
  size : ℕ
  offset : ℕ
  name : Text
  deriving DecidableEq, Repr

/-- The definition as text, with a comma behind. -/
def PartDef.text (d : PartDef) : Text :=
  sizeText d.size ++ offsetText d.offset ++ '(' :: d.name ++ [')', ',']

/-- The partition the definition stands for. -/
def PartDef.part (d : PartDef) (sectorSize : ℕ) : PartInfo where
  name := d.name
  autoName := false
  size := d.size
  offset := d.offset
  maskFlags := 0
  sectorSize := sectorSize

/-- What a partition says of itself. -/
def PartInfo.partDef (part : PartInfo) : PartDef := ⟨part.size, part.offset, part.name⟩

/-- A definition the parser accepts on the device. -/
structure PartDef.Good (mtd : Mtd) (d : PartDef) : Prop where
  min_le : minPartSize ≤ d.size
  size_lt : d.size < sizeRemaining
  name_ne : d.name ≠ []
  name_paren : ')' ∉ d.name
  fits : d.offset + d.size ≤ mtd.size
  offset_aligned : d.offset % mtd.erasesize = 0
  size_aligned : d.size % mtd.erasesize = 0

section Definitions

variable {rest name : Text} {size offset : ℕ} {d : PartDef} {id : MtdId}

theorem noDigit_cons {c : Char} (h : digitValue c = none) : NoDigit (c :: rest) := by
  intro d hd
  obtain rfl := Option.some.inj hd
  exact h

theorem memsizeParse_decimal {n unit : ℕ} {text : Text} (hn : 0 < n) (htext : NoDigit text)
    (hunit : memsizeUnit text = (unit, rest)) (hlt : n * unit < 2 ^ 32) (hpos : 0 < unit) :
    memsizeParse (decimal n ++ text) = (n * unit, rest) := by
  have hdec : decimal n = Nat.toDigits 10 n := by
    rw [decimal, if_neg (by omega), Int.toNat_natCast]
  have hlt' : n < 2 ^ 32 := Nat.lt_of_le_of_lt (Nat.le_mul_of_pos_right n hpos) hlt
  rw [hdec, memsizeParse, simpleStrtoul_decimal hn htext]
  dsimp only
  rw [hunit, Nat.mod_eq_of_lt hlt', Nat.mod_eq_of_lt hlt]

/-- A size as the boot loader prints it, read back. -/
theorem memsizeParse_sizeText (hpos : 0 < size) (hlt : size < 2 ^ 32) :
    memsizeParse (sizeText size ++ rest) = (size, '@' :: rest) := by
  rw [sizeText]
  by_cases hM : (size : ℤ) > 2 ^ 20 ∧ (size : ℤ) % 2 ^ 20 = 0
  · have hmul : size / 2 ^ 20 * 2 ^ 20 = size := by omega
    have hread : memsizeParse (decimal (size / 2 ^ 20 : ℕ) ++ 'M' :: '@' :: rest) =
        (size / 2 ^ 20 * 2 ^ 20, '@' :: rest) :=
      memsizeParse_decimal (by omega) (noDigit_cons (by decide)) rfl (by omega) (by decide)
    rw [hmul] at hread
    rw [if_pos hM, show (size : ℤ) / 2 ^ 20 = (size / 2 ^ 20 : ℕ) by norm_cast,
      List.append_assoc]
    exact hread
  · rw [if_neg hM]
    by_cases hK : (size : ℤ) > 2 ^ 10 ∧ (size : ℤ) % 2 ^ 10 = 0
    · have hmul : size / 2 ^ 10 * 2 ^ 10 = size := by omega
      have hread : memsizeParse (decimal (size / 2 ^ 10 : ℕ) ++ 'K' :: '@' :: rest) =
          (size / 2 ^ 10 * 2 ^ 10, '@' :: rest) :=
        memsizeParse_decimal (by omega) (noDigit_cons (by decide)) rfl (by omega) (by decide)
      rw [hmul] at hread
      rw [if_pos hK, show (size : ℤ) / 2 ^ 10 = (size / 2 ^ 10 : ℕ) by norm_cast,
        List.append_assoc]
      exact hread
    · have hread : memsizeParse (decimal size ++ '@' :: rest) = (size * 1, '@' :: rest) :=
        memsizeParse_decimal hpos (noDigit_cons (by decide)) rfl (by omega) (by decide)
      rw [if_neg hK, List.append_assoc]
      exact hread.trans (by rw [Nat.mul_one])

theorem parseOffset_offsetText (hlt : offset < 2 ^ 32) :
    parseOffset ('@' :: offsetText offset ++ '(' :: rest) = (offset, '(' :: rest) := by
  have hread : simpleStrtoul 0 ('0' :: 'x' :: Nat.toDigits 16 offset ++ '(' :: rest) =
      (offset % 2 ^ 32, '(' :: rest) :=
    simpleStrtoul_hex 0 (noDigit_cons (by decide))
  have hhex : offsetText offset = '0' :: 'x' :: Nat.toDigits 16 offset := by
    rw [offsetText, Int.emod_eq_of_lt (by omega) (by omega), Int.toNat_natCast]
  have hunit : memsizeUnit ('(' :: rest) = (1, '(' :: rest) := rfl
  rw [hhex, List.cons_append, parseOffset, memsizeParse, hread]
  dsimp only
  rw [hunit, Nat.mod_eq_of_lt hlt, Nat.mul_one, Nat.mod_eq_of_lt hlt]

theorem parseName_eq (hne : name ≠ []) (hparen : ')' ∉ name) :
    parseName ('(' :: name ++ ')' :: rest) = .ok (some name, rest) := by
  have hspan : (name ++ ')' :: rest).span (· ≠ ')') = (name, ')' :: rest) := by
    rw [List.span_eq_takeWhile_dropWhile]
    have hall : ∀ c ∈ name, decide (c ≠ ')') = true := by
      intro c hc
      exact decide_eq_true fun h => hparen (h ▸ hc)
    rw [List.takeWhile_append_of_pos hall, List.dropWhile_append_of_pos hall]
    simp
  obtain ⟨c, cs, rfl⟩ := List.exists_cons_of_ne_nil hne
  rw [List.cons_append, parseName, hspan]

/-- The text of a definition does not begin with one of the characters that end a list. -/
theorem sizeText_head (size : ℕ) : ∃ c cs, sizeText size = c :: cs ∧ c ≠ ';' ∧ c ≠ '-' := by
  have hdigits : ∀ n : ℕ, ∃ c cs, decimal n = c :: cs ∧ c ≠ ';' ∧ c ≠ '-' := by
    intro n
    obtain ⟨c, cs, hcs⟩ := List.exists_cons_of_ne_nil (Nat.toDigits_ne_nil (n := n) (b := 10))
    have hc : c.isDigit := Nat.isDigit_of_mem_toDigits (b := 10) (by decide) (by decide)
      (hcs ▸ List.mem_cons_self)
    refine ⟨c, cs, ?_, ?_, ?_⟩
    · rw [decimal, if_neg (by omega), Int.toNat_natCast, hcs]
    · rintro rfl
      exact absurd hc (by decide)
    · rintro rfl
      exact absurd hc (by decide)
  rw [sizeText]
  split
  · obtain ⟨c, cs, h, hc⟩ := hdigits (size / 2 ^ 20)
    rw [show (size : ℤ) / 2 ^ 20 = (size / 2 ^ 20 : ℕ) by norm_cast, h]
    exact ⟨c, _, rfl, hc⟩
  · split
    · obtain ⟨c, cs, h, hc⟩ := hdigits (size / 2 ^ 10)
      rw [show (size : ℤ) / 2 ^ 10 = (size / 2 ^ 10 : ℕ) by norm_cast, h]
      exact ⟨c, _, rfl, hc⟩
    · obtain ⟨c, cs, h, hc⟩ := hdigits size
      rw [h]
      exact ⟨c, _, rfl, hc⟩

theorem parseSize_sizeText (hmin : minPartSize ≤ size) (hlt : size < 2 ^ 32) :
    parseSize (sizeText size ++ rest) = .ok (size, '@' :: rest) := by
  obtain ⟨c, cs, hcs, -, hc⟩ := sizeText_head size
  have hread : memsizeParse (sizeText size ++ rest) = (size, '@' :: rest) :=
    memsizeParse_sizeText (Nat.lt_of_lt_of_le (by decide) hmin) hlt
  rw [hcs, List.cons_append] at hread ⊢
  rw [parseSize, hread]
  · dsimp only
    rw [if_neg (Nat.not_lt.mpr hmin)]
  · rintro p hp
    exact hc (List.head_eq_of_cons_eq hp)

/-- **A definition that was printed is read back.** -/
theorem partParse_eq {mtd : Mtd} (h : d.Good mtd) (hmtd : mtd.size < 2 ^ 32) :
    partParse (d.text ++ rest) = .ok (rest, d.part 0) := by
  have htext : d.text ++ rest =
      sizeText d.size ++ (offsetText d.offset ++ '(' :: (d.name ++ ')' :: ',' :: rest)) := by
    simp [PartDef.text]
  have hlt : d.size < 2 ^ 32 := h.size_lt.trans (by decide)
  have hoffset : d.offset < 2 ^ 32 := by have := h.fits; omega
  have hoff : parseOffset ('@' :: offsetText d.offset ++ '(' :: (d.name ++ ')' :: ',' :: rest)) =
      (d.offset, '(' :: (d.name ++ ')' :: ',' :: rest)) := parseOffset_offsetText hoffset
  have hname : parseName ('(' :: d.name ++ ')' :: ',' :: rest) = .ok (some d.name, ',' :: rest) :=
    parseName_eq h.name_ne h.name_paren
  have hoptions : parseOptions (',' :: rest) = (0, ',' :: rest) := rfl
  rw [List.cons_append] at hoff hname
  rw [htext, partParse, parseSize_sizeText h.min_le hlt]
  simp only [hoff, hname, hoptions, bind, Except.bind]
  rw [if_neg h.size_lt.ne]
  rfl

theorem partValidate_eq (h : d.Good id.mtd) (hmtd : id.mtd.size < 2 ^ 32)
    (huniform : id.mtd.eraseregions = []) :
    partValidate id (d.part 0) = .ok (d.part id.mtd.erasesize) := by
  have hsize : id.size = id.mtd.size := Nat.mod_eq_of_lt hmtd
  have hfits := h.fits
  have hmin := h.min_le
  have hpos : 0 < minPartSize := by decide
  have hremaining : (d.part 0).size ≠ sizeRemaining := h.size_lt.ne
  have hmod : (d.offset + d.size) % 2 ^ 32 = d.offset + d.size := Nat.mod_eq_of_lt (by omega)
  have hoff : (d.part 0).offset = d.offset := rfl
  have hsz : (d.part 0).size = d.size := rfl
  rw [partValidate, if_neg hremaining]
  rw [hoff, hsz, hsize, hmod, if_neg (by omega), if_neg (by omega), if_neg (by omega),
    partValidateEraseblock, if_pos huniform]
  rw [hoff, hsz, if_neg (not_not.mpr h.offset_aligned), if_neg (not_not.mpr h.size_aligned)]
  rfl

theorem text_head (d : PartDef) : ∃ c cs, d.text = c :: cs ∧ c ≠ ';' := by
  obtain ⟨c, cs, hcs, hc, -⟩ := sizeText_head d.size
  exact ⟨c, _, by rw [PartDef.text, hcs]; rfl, hc⟩

/-- **The definitions of a device, read back one after the other**, up to the end of the
text or the next device. -/
theorem parseParts_eq (hmtd : id.mtd.size < 2 ^ 32) (huniform : id.mtd.eraseregions = [])
    (hrest : ∀ c ∈ rest.head?, c = ';') (defs : List PartDef) (hdefs : ∀ d ∈ defs, d.Good id.mtd)
    {fuel : ℕ} (hfuel : defs.length ≤ fuel) (offset : ℕ) (tmpList : List PartInfo) :
    parseParts id fuel offset (defs.flatMap PartDef.text ++ rest) tmpList =
      .ok (rest, tmpList ++ defs.map fun d => d.part id.mtd.erasesize) := by
  induction defs generalizing fuel offset tmpList with
  | nil =>
    rcases rest with _ | ⟨c, cs⟩
    · simp [parseParts]
    · obtain rfl := hrest c rfl
      simp [parseParts]
  | cons d defs ih =>
    obtain ⟨hd, hdefs⟩ := List.forall_mem_cons.mp hdefs
    obtain ⟨fuel, rfl⟩ := Nat.exists_eq_add_of_lt (Nat.lt_of_lt_of_le (Nat.succ_pos _) hfuel)
    rw [Nat.zero_add] at hfuel ⊢
    obtain ⟨c, cs, hcs, hc⟩ := text_head d
    have hparse : partParse (d.text ++ (defs.flatMap PartDef.text ++ rest)) =
        .ok (defs.flatMap PartDef.text ++ rest, d.part 0) := partParse_eq hd hmtd
    have hspecified : (d.part 0).offset ≠ offsetNotSpecified := by
      have hfits := hd.fits
      have hmin := hd.min_le
      change d.offset ≠ 0xFFFFFFFF
      rw [minPartSize] at hmin
      omega
    rw [List.flatMap_cons, List.append_assoc]
    rw [hcs, List.cons_append] at hparse ⊢
    rw [parseParts, hparse]
    · simp only [bind, Except.bind]
      rw [if_neg hspecified, partValidate_eq hd hmtd huniform]
      dsimp only
      rw [ih hdefs (Nat.le_of_succ_le_succ hfuel), List.map_cons, List.append_assoc]
      rfl
    · exact fun h => absurd h (List.cons_ne_nil _ _)
    · exact fun p h => hc (List.head_eq_of_cons_eq h)

end Definitions

section Sorting

variable {part : PartInfo} {parts tmpList : List PartInfo}

/-- Sorted by offset. -/
def ByOffset (a b : PartInfo) : Prop := a.offset ≤ b.offset

instance : DecidableRel ByOffset := fun a b => Nat.decLe a.offset b.offset

instance : IsTrans PartInfo ByOffset := ⟨fun _ _ _ => Nat.le_trans⟩

instance : Std.Total ByOffset := ⟨fun a b => Nat.le_total a.offset b.offset⟩

/-- Not both at offset 0. -/
def NotBothZero (a b : PartInfo) : Prop := ¬ (a.offset = 0 ∧ b.offset = 0)

theorem partSortAdd_eq (h : ∀ pi ∈ parts, NotBothZero part pi) :
    partSortAdd part parts = .ok (parts.orderedInsert ByOffset part) := by
  induction parts with
  | nil => rfl
  | cons pi parts ih =>
    obtain ⟨hpi, hparts⟩ := List.forall_mem_cons.mp h
    have hzero : ¬ (part.offset = pi.offset ∧ pi.offset = 0) :=
      fun h0 => hpi ⟨h0.1.trans h0.2, h0.2⟩
    rw [partSortAdd, if_neg hzero, List.orderedInsert_cons]
    by_cases hle : part.offset ≤ pi.offset
    · rw [if_pos hle, if_pos (show ByOffset part pi from hle)]
    · rw [if_neg hle, if_neg (show ¬ ByOffset part pi from hle), ih hparts]
      rfl

/-- **The partitions end up sorted, none lost or doubled.** -/
theorem sortParts_eq (hsorted : parts.Pairwise ByOffset)
    (hzero : (parts ++ tmpList).Pairwise NotBothZero) :
    ∃ sorted, sortParts parts tmpList = .ok sorted ∧ sorted.Perm (parts ++ tmpList) ∧
      sorted.Pairwise ByOffset := by
  induction tmpList generalizing parts with
  | nil => exact ⟨parts, rfl, by rw [List.append_nil], hsorted⟩
  | cons part tmpList ih =>
    have hsymm : ∀ {a b}, NotBothZero a b → NotBothZero b a := fun h h0 => h ⟨h0.2, h0.1⟩
    have hadd : partSortAdd part parts = .ok (parts.orderedInsert ByOffset part) :=
      partSortAdd_eq fun pi hpi =>
        hsymm ((List.pairwise_append.mp hzero).2.2 pi hpi part List.mem_cons_self)
    have hperm : (parts.orderedInsert ByOffset part ++ tmpList).Perm (parts ++ part :: tmpList) :=
      ((List.perm_orderedInsert _ part parts).append_right tmpList).trans
        (List.perm_middle).symm
    obtain ⟨sorted, hsort, hsperm, hs⟩ := ih (hsorted.orderedInsert part parts)
      ((hperm.pairwise_iff hsymm).mpr hzero)
    refine ⟨sorted, ?_, hsperm.trans hperm, hs⟩
    rw [sortParts, hadd]
    exact hsort

end Sorting

end Mtdparts
