/-
The manufacturing fields and their text form (`mnf_fields.c`, `mnf_info.c`).

A field is a fixed range of bytes of the manufacturing partition.  Commands show it to
the user as text and take it back as text:

* `mnfFieldToStr` — hex digits for a binary field, the bytes before the first one that
  is not ASCII for a text field;
* `mnfStrToField` — the other way, padded with `0xff` to the length of the field.  The
  hex reader takes two characters at a time and so looks behind the end of a string of
  odd length: an argument is modelled with the memory behind it (`CStr`);
* `restoreFunc` — the value a field is restored to, and whether the old one was invalid.
-/
import OpenMptcpRouter.Lib.CString

namespace Mnf

open CString

/-- A text, byte by byte. -/
abbrev Text := List UInt8

/-- A C string in memory: its characters, and the bytes behind its NUL. -/
structure CStr where
  text : Text
  behind : ℕ → UInt8
  nulFree : (0 : UInt8) ∉ text

/-- A text with zeros behind it. -/
def CStr.ofText (text : Text) (h : (0 : UInt8) ∉ text := by decide) : CStr := ⟨text, fun _ => 0, h⟩

theorem zero_notMem_set : (0 : UInt8) ∉ ascii "set" := by decide

theorem zero_notMem_name : (0 : UInt8) ∉ ascii "name" := by decide

/-- The byte at `s[i]`. -/
def CStr.charAt (s : CStr) (i : ℕ) : UInt8 :=
  if i < s.text.length then s.text[i]?.getD 0
  else if i = s.text.length then 0
  else s.behind (i - s.text.length - 1)

/-- The restore functions of the table. -/
inductive RestoreFunc
  | mac | name | num | clear
  deriving DecidableEq, Repr

/-- `struct mnf_field_s`. -/
structure MnfField where
  shortName : UInt8
  longName : Text
  description : Text
  offset : ℕ
  length : ℕ
  restore : RestoreFunc
  /-- `MNF_FIELD_BINARY` -/
  binary : Bool := false
  /-- `MNF_FIELD_REVERSED` -/
  reversed : Bool := false
  deriving DecidableEq, Repr

/-- `islower`, by the `_ctype` table. -/
def islower (c : UInt8) : Bool := (97 ≤ c && c ≤ 122) || (223 ≤ c && c != 247)

/-- `toupper`. -/
def toupper (c : UInt8) : UInt8 := if islower c then c - 32 else c

/-- `strncmp(a, b, n) == 0`. -/
def strncmpEq (a b : Text) (n : ℕ) : Bool := (cstr a).take n == (cstr b).take n

/-- `apply_mnf_order` of the first `field->length` bytes. -/
def applyMnfOrder (field : MnfField) (buf : Text) : Text :=
  if field.reversed then buf.reverse else buf

/-- `hex_chars`. -/
def hexChars : Text := ascii "0123456789ABCDEF"

/-- `int_to_hexchar`. -/
def intToHexchar (val : ℕ) : UInt8 := if 16 ≤ val then 0 else hexChars[val]?.getD 0

/-- `bin_to_hexstr`. -/
def binToHexstr (input : Text) : Text :=
  input.flatMap fun c => [intToHexchar (c.toNat / 16 % 16), intToHexchar (c.toNat % 16)]

/-- `mnf_field_to_str` of the bytes of the field. -/
def mnfFieldToStr (field : MnfField) (input : Text) : Text :=
  let input := applyMnfOrder field input
  if field.binary then binToHexstr input
  else input.takeWhile (· &&& 0x80 == 0)

/-- `hexchar_to_int`.  `strchr` also finds the NUL that ends `hex_chars`, as digit 16. -/
def hexcharToInt (c : UInt8) : Option ℕ :=
  let i := (hexChars ++ [0]).findIdx (· == toupper c)
  if i < 17 then some i else none

/-- The last `len` rounds of the loop of `hexstr_to_bin`, from character `i` of the input:
whether it fails, and the bytes, over a result filled with `0xff`. -/
def hexstrToBin (input : CStr) : ℕ → ℕ → Bool × Text
  | 0, _ => (false, [])
  | len + 1, i =>
    let highChar := input.charAt i
    let lowChar := input.charAt (i + 1)
    if highChar = 0 then (false, List.replicate (len + 1) 0xff)
    else
      match hexcharToInt lowChar, hexcharToInt highChar with
      | some low, some high =>
        let (err, rest) := hexstrToBin input len (i + 2)
        (err, UInt8.ofNat (high * 16 ||| low) :: rest)
      | _, _ => (true, List.replicate (len + 1) 0xff)

/-- `mnf_str_to_field`: whether it fails, and the bytes of the field. -/
def mnfStrToField (field : MnfField) (input : CStr) : Bool × Text :=
  if field.binary then
    match hexstrToBin input field.length 0 with
    | (true, result) => (true, result)
    | (false, result) => (false, applyMnfOrder field result)
  else
    -- copy the string directly, omitting the trailing NUL
    let copied := input.text.take field.length
    (false, applyMnfOrder field (copied ++ List.replicate (field.length - copied.length) 0xff))

/-- `validate_num`. -/
def validateNum (field : MnfField) (old : Text) : Bool :=
  !(List.range field.length).all fun i => isDigit (old[i]?.getD 0)

/-- `CONFIG_MAC_VID_STR`. -/
def macVid : Text := ascii "001E42"

/-- `%06x`. -/
def hex06 (n : ℕ) : Text :=
  (List.range 6).map fun i => (ascii "0123456789abcdef")[n / 16 ^ (5 - i) % 16]?.getD 0

/-- `restore_mac`: a random address with our VID. -/
def restoreMac (rand : ℕ) (old : Text) : Bool × Text :=
  let nid := rand % 2 ^ 24
  (!strncmpEq old macVid macVid.length, (macVid ++ hex06 nid).map toupper)

/-- `good_models`. -/
def goodModels : List Text :=
  [ascii "RUTX08", ascii "RUTX09", ascii "RUTX10", ascii "RUTX11", ascii "RUTX12",
    ascii "RUTX14", ascii "RUTXR1", ascii "RUTX50"]

/-- `restore_name`: a fixed fallback device. -/
def restoreName (old : Text) : Bool × Text :=
  (!goodModels.any fun model => strncmpEq old model 6, ascii "RUTX08000000")

/-- `restore_num`: zeros. -/
def restoreNum (field : MnfField) (old : Text) : Bool × Text :=
  (validateNum field old, List.replicate field.length 48)

/-- `clear`: the empty text, never by itself. -/
def clear : Bool × Text := (false, [])

/-- `field->restore_func(field, old, buf)`: whether the old text is invalid, and the new. -/
def restoreFunc (field : MnfField) (rand : ℕ) (old : Text) : Bool × Text :=
  match field.restore with
  | .mac => restoreMac rand old
  | .name => restoreName old
  | .num => restoreNum field old
  | .clear => clear

/-- `mnf_fields`. -/
def mnfFields : List MnfField :=
  [ ⟨109, ascii "mac", ascii "MAC address", 0x00, 6, .mac, true, false⟩,
    ⟨110, ascii "name", ascii "Model name", 0x10, 12, .name, false, false⟩,
    ⟨119, ascii "wps", ascii "WPS PIN", 0x20, 8, .clear, false, false⟩,
    ⟨115, ascii "sn", ascii "Serial number", 0x30, 10, .num, false, false⟩,
    ⟨98, ascii "batch", ascii "Batch number", 0x40, 4, .num, false, false⟩,
    ⟨72, ascii "hwver", ascii "Hardware version", 0x50, 4, .num, false, false⟩,
    ⟨87, ascii "wifi_pass", ascii "WiFi password", 0x90, 16, .clear, false, false⟩,
    ⟨120, ascii "passwd", ascii "Linux password", 0xA0, 106, .clear, false, false⟩,
    ⟨49, ascii "sim1", ascii "SIM 1 PIN", 0x10000, 4, .clear, false, false⟩,
    ⟨50, ascii "sim2", ascii "SIM 2 PIN", 0x10010, 4, .clear, false, false⟩,
    ⟨51, ascii "sim3", ascii "SIM 3 PIN", 0x10020, 4, .clear, false, false⟩,
    ⟨52, ascii "sim4", ascii "SIM 4 PIN", 0x10030, 4, .clear, false, false⟩ ]

/-- `mnf_get_field_info_short`. -/
def mnfGetFieldInfoShort (name : UInt8) : Option MnfField :=
  mnfFields.find? fun field => name == field.shortName

/-- `mnf_get_field_info_long`. -/
def mnfGetFieldInfoLong (name : Text) : Option MnfField :=
  mnfFields.find? fun field => name == field.longName

section Lengths

variable {field : MnfField}

@[simp] theorem length_applyMnfOrder (buf : Text) :
    (applyMnfOrder field buf).length = buf.length := by
  by_cases h : field.reversed <;> simp [applyMnfOrder, h]

@[simp] theorem length_hexstrToBin (input : CStr) (len i : ℕ) :
    (hexstrToBin input len i).2.length = len := by
  induction len generalizing i with
  | zero => rfl
  | succ len ih =>
    rw [hexstrToBin]
    split
    · simp
    · split
      · simp [ih]
      · simp

/-- The field is always filled to its length. -/
@[simp] theorem length_mnfStrToField (input : CStr) :
    (mnfStrToField field input).2.length = field.length := by
  rw [mnfStrToField]
  split
  · have hlen := length_hexstrToBin input field.length 0
    split <;> rename_i heq <;> rw [heq] at hlen <;> simpa using hlen
  · simp only [length_applyMnfOrder, List.length_append, List.length_take, List.length_replicate]
    omega

end Lengths

section Restore

theorem getElem?_getD_ne_zero {l : Text} (h0 : (0 : UInt8) ∉ l) {i : ℕ} (hi : i < l.length) :
    l[i]?.getD 0 ≠ 0 := by
  rw [List.getElem?_eq_getElem hi, Option.getD_some]
  exact fun h => h0 (h ▸ List.getElem_mem hi)

theorem toupper_ne_zero {c : UInt8} (h : c ≠ 0) : toupper c ≠ 0 := by
  rw [toupper]
  split
  · rename_i hlow
    simp only [islower, Bool.or_eq_true, Bool.and_eq_true, decide_eq_true_eq,
      UInt8.le_iff_toNat_le] at hlow
    intro h0
    have := congrArg UInt8.toNat h0
    have hc := c.toNat_lt
    rw [UInt8.toNat_sub] at this
    simp at this hlow
    omega
  · exact h

/-- What a restore function writes is a C string. -/
theorem nulFree_restoreFunc (field : MnfField) (rand : ℕ) (old : Text) :
    (0 : UInt8) ∉ (restoreFunc field rand old).2 := by
  rw [restoreFunc]
  split
  · rw [restoreMac, List.mem_map]
    rintro ⟨c, hc, h0⟩
    refine toupper_ne_zero (fun hc0 => ?_) h0
    subst hc0
    rcases List.mem_append.mp hc with hc | hc
    · exact absurd hc (by decide)
    · obtain ⟨i, -, hi⟩ := List.mem_map.mp hc
      exact getElem?_getD_ne_zero (by decide) (Nat.mod_lt _ (by decide)) hi
  · change (0 : UInt8) ∉ ascii "RUTX08000000"
    decide
  · rw [restoreNum, List.mem_replicate]
    exact fun h => absurd h.2 (by decide)
  · exact List.not_mem_nil

end Restore

end Mnf
