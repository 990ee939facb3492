/-
What the firmware manifest check accepts (`fwtool_validate_manifest`).

A signed image ends in two blocks, each closed by a trailer that holds its length: the
manifest (8 bytes of header and the JSON text) and the signature.  `ManifestImage` is
such an image.

* `validate_iff` — **a signed image is accepted exactly when the three names stand in
  the first 511 bytes of its manifest**.

The code copies 8 bytes more than the manifest holds, up to 7 of which the searches see:
the magic of the trailer and bytes of its checksum.  No name can end in them
(`infix_append_trailer`).
-/
import OpenMptcpRouter.Fwtool.Bounds

namespace Fwtool

open CString Search

/-- A number as four bytes, the highest first. -/
def be32Bytes (n : ℕ) : List UInt8 :=
  [UInt8.ofNat (n / 2 ^ 24), UInt8.ofNat (n / 2 ^ 16), UInt8.ofNat (n / 2 ^ 8), UInt8.ofNat n]

/-- `struct fwimage_trailer`: `crc32`, `type` and the padding are `tag`. -/
def trailer (tag : List UInt8) (size : ℕ) : List UInt8 :=
  be32Bytes fwimageMagic ++ tag ++ be32Bytes size

/-- A signed image. -/
structure ManifestImage where
  body : List UInt8
  hdr : List UInt8
  json : List UInt8
  manifestTag : List UInt8
  sig : List UInt8
  sigTag : List UInt8
  hdr_length : hdr.length = 8
  manifestTag_length : manifestTag.length = 8
  sigTag_length : sigTag.length = 8
  json_nul : (0 : UInt8) ∉ json
  json_ne : json ≠ []
  length_lt : (body ++ hdr ++ json ++ trailer manifestTag (8 + json.length + 16) ++ sig
    ++ trailer sigTag (sig.length + 16)).length < 2 ^ 31

namespace ManifestImage

variable (M : ManifestImage)

/-- The image as a byte string. -/
def bytes : List UInt8 :=
  M.body ++ M.hdr ++ M.json ++ trailer M.manifestTag (8 + M.json.length + 16) ++ M.sig
    ++ trailer M.sigTag (M.sig.length + 16)

/-- The memory from `ptr` on, when it is `outside` around the image. -/
def memory (outside : ℤ → UInt8) (off : ℤ) : UInt8 :=
  if 0 ≤ off then M.bytes.getD off.toNat (outside off) else outside off

end ManifestImage

theorem length_be32Bytes (n : ℕ) : (be32Bytes n).length = 4 := rfl

theorem length_trailer {tag : List UInt8} (h : tag.length = 8) (size : ℕ) :
    (trailer tag size).length = 16 := by
  rw [trailer, List.length_append, List.length_append, length_be32Bytes, length_be32Bytes, h]

/-- The memory holds the text from offset `off` on. -/
def Holds (rd : ℤ → UInt8) (off : ℤ) (text : List UInt8) : Prop :=
  ∀ i (h : i < text.length), rd (off + i) = text[i]

section Holds

variable {rd : ℤ → UInt8} {off : ℤ} {text text' : List UInt8}

theorem Holds.left (h : Holds rd off (text ++ text')) : Holds rd off text := by
  intro i hi
  rw [h i (by rw [List.length_append]; omega), List.getElem_append_left hi]

theorem Holds.right (h : Holds rd off (text ++ text')) :
    Holds rd (off + text.length) text' := by
  intro i hi
  have hat := h (text.length + i) (by rw [List.length_append]; omega)
  rw [List.getElem_append_right (by omega)] at hat
  simp only [Nat.add_sub_cancel_left] at hat
  rw [← hat]
  congr 1
  omega

theorem Holds.map_range (h : Holds rd off text) {n : ℕ} (hn : n ≤ text.length) :
    ((List.range n).map fun i : ℕ => rd (off + i)) = text.take n := by
  refine List.ext_getElem (by simp [hn]) fun i hi hi' => ?_
  rw [List.getElem_map, List.getElem_range, List.getElem_take]
  exact h i (by simp at hi; omega)

/-- A number is read back from its four bytes. -/
theorem Holds.be32_eq {n : ℕ} (h : Holds rd off (be32Bytes n)) (hn : n < 2 ^ 32) :
    be32 rd off = n := by
  have hlen : (be32Bytes n).length = 4 := length_be32Bytes n
  have h0 : rd (off + 0) = UInt8.ofNat (n / 2 ^ 24) := h 0 (by omega)
  have h1 : rd (off + 1) = UInt8.ofNat (n / 2 ^ 16) := h 1 (by omega)
  have h2 : rd (off + 2) = UInt8.ofNat (n / 2 ^ 8) := h 2 (by omega)
  have h3 : rd (off + 3) = UInt8.ofNat n := h 3 (by omega)
  rw [Int.add_zero] at h0
  rw [be32, h0, h1, h2, h3]
  simp only [UInt8.toNat_ofNat']
  omega

/-- A trailer is accepted, and its size is read. -/
theorem Holds.trailer_eq {tag : List UInt8} {size length : ℕ} (h : Holds rd off (trailer tag size))
    (htag : tag.length = 8) (hsize : size < length) (hlt : size < 2 ^ 32) :
    trailerBad rd off length = false ∧ be32 rd (off + 12) = size := by
  have hmagic : be32 rd off = fwimageMagic := h.left.left.be32_eq (by decide)
  have hread : be32 rd (off + 12) = size := by
    have hright := h.right
    rw [List.length_append, length_be32Bytes, htag] at hright
    exact hright.be32_eq hlt
  exact ⟨by simp [trailerBad, hmagic, hread, hsize], hread⟩

end Holds

/-! ### What the searches see -/

/-- The buffer is the text copied, cut at the terminator. -/
theorem manifestBuffer_eq (rd : ℤ → UInt8) (off : ℤ) (n : ℕ) :
    manifestBuffer rd off (n + 1) =
      ((List.range n).map fun i : ℕ => rd (off + i)) ++
        0 :: List.replicate (bufferSize - (n + 1)) 0 := by
  rw [manifestBuffer, if_neg (Nat.succ_ne_zero n), List.range_succ, List.map_append,
    Nat.add_sub_cancel, List.append_assoc, List.set_append_right _ _ (by simp)]
  simp

/-- No name starts with a byte of the magic, or has its first byte in it. -/
theorem names_free : ∀ name ∈ manifestNames, 4 ≤ name.length ∧ (0x46 : UInt8) ∉ name ∧
    ∀ i < 4, (be32Bytes fwimageMagic)[i]? ≠ name[0]? := by
  decide

/-- A name never ends in what follows the manifest. -/
theorem infix_append_trailer {name text seen tag : List UInt8} (hname : name ∈ manifestNames)
    (hseen : seen <+: be32Bytes fwimageMagic ++ tag) (hlen : seen.length ≤ 7) :
    name <:+: text ++ seen ↔ name <:+: text := by
  obtain ⟨hpos, hmagic, hfirst⟩ := names_free name hname
  rw [List.infix_append_iff]
  constructor
  · rintro (h | h | ⟨l₁, l₂, rfl, hl₁, hl₂⟩)
    · exact h
    · -- it would have to start with a byte of the magic
      exfalso
      obtain ⟨s, t, rfl⟩ := h
      simp only [List.length_append] at hlen
      have hs : s.length < 4 := by omega
      refine hfirst s.length hs ?_
      obtain ⟨r, hr⟩ := hseen
      have hat : (be32Bytes fwimageMagic ++ tag)[s.length]? = name[0]? := by
        rw [← hr, List.append_assoc, List.append_assoc, List.getElem?_append_right le_rfl,
          Nat.sub_self, List.getElem?_append_left (by omega)]
      rwa [List.getElem?_append_left hs] at hat
    · rcases l₂ with _ | ⟨c, l₂⟩
      · rw [List.append_nil]
        exact hl₁.isInfix
      · -- it would hold the first byte of the magic
        exfalso
        have hc : c = 0x46 := (List.cons_prefix_cons.mp (hl₂.trans hseen)).1
        exact hmagic (by simp [hc])
  · exact fun h => Or.inl h

/-- The copy of a manifest and the bytes behind it: a name is found in it exactly when it
stands in the first 511 bytes of the manifest. -/
theorem strstr_manifestBuffer {rd : ℤ → UInt8} {off : ℤ} {json tag name : List UInt8}
    (h : Holds rd off (json ++ (be32Bytes fwimageMagic ++ tag))) (htag : tag.length = 8)
    (hnul : (0 : UInt8) ∉ json) (hname : name ∈ manifestNames) :
    (strstr (manifestBuffer rd off (min (json.length + 7) 511 + 1)) 0 name).isSome ↔
      name <:+: json.take (min json.length 511) := by
  have hlen : (json ++ (be32Bytes fwimageMagic ++ tag)).length = json.length + 12 := by
    rw [List.length_append, List.length_append, length_be32Bytes, htag]
  rw [strstr_isSome_iff, List.drop_zero, manifestBuffer_eq, h.map_range (by omega),
    List.take_append]
  generalize hseen : (be32Bytes fwimageMagic ++ tag).take (min (json.length + 7) 511 - json.length)
    = seen
  have hpre : seen <+: be32Bytes fwimageMagic ++ tag := hseen ▸ List.take_prefix _ _
  have hle : seen.length ≤ 7 := by
    rw [← hseen, List.length_take]
    omega
  have hjson : json.take (min (json.length + 7) 511) = json.take (min json.length 511) := by
    rcases le_total json.length 511 with hj | hj
    · rw [List.take_of_length_le (by omega), List.take_of_length_le (by omega)]
    · congr 1
      omega
  rw [hjson, List.append_assoc, cstr_append fun h0 => hnul (List.mem_of_mem_take h0)]
  rw [cstr_append_zero]
  have hcut := cstr_isPrefix seen
  exact infix_append_trailer hname (hcut.trans hpre) (hcut.length_le.trans hle)

/-! ### The whole image -/

/-- The checks of the names, one after the other. -/
theorem names_checked (buffer : List UInt8) :
    (if (strstr buffer 0 (ascii "supported_devices")).isNone then FwtoolRet.errorInvalidFile
      else if (strstr buffer 0 (ascii "teltonika,")).isNone then .errorInvalidFile
      else if (strstr buffer 0 (ascii "rutx")).isNone then .errorInvalidFile
      else .firmwareValid) = .firmwareValid ↔
        ∀ name ∈ manifestNames, (strstr buffer 0 name).isSome := by
  simp only [manifestNames, List.forall_mem_cons, List.not_mem_nil, false_imp_iff, implies_true,
    and_true]
  rcases strstr buffer 0 (ascii "supported_devices") with _ | _
  · simp
  rcases strstr buffer 0 (ascii "teltonika,") with _ | _
  · simp
  rcases strstr buffer 0 (ascii "rutx") with _ | _
  · simp
  · simp

/-- Behind two good trailers the names decide. -/
theorem fwtoolValidateManifest_eq {rd : ℤ → UInt8} {length : ℕ}
    (hlong : ¬ length < trailerSize * 2)
    (hsig : trailerBad rd ((length : ℤ) - trailerSize) length = false)
    (hman : trailerBad rd (manifestTrailer rd length) length = false) :
    fwtoolValidateManifest rd length = .firmwareValid ↔
      ∀ name ∈ manifestNames, (strstr (manifestBuffer rd
        (manifestTrailer rd length - (manifestSize rd length - trailerSize - 8))
        (manifestLen (manifestSize rd length))) 0 name).isSome := by
  rw [fwtoolValidateManifest, if_neg hlong]
  dsimp only
  rw [if_neg (by simp [hsig]), if_neg (by rw [Bool.not_eq_true]; exact hman)]
  exact names_checked _

theorem manifestLen_json (n : ℕ) (h : n < 2 ^ 31) :
    manifestLen (8 + n + 16) = min (n + 7) 511 + 1 := by
  have hts : trailerSize = 16 := rfl
  have hbs : bufferSize = 512 := rfl
  rw [manifestLen_eq _ (by omega), if_neg (by omega)]
  omega

namespace ManifestImage

variable (M : ManifestImage) (outside : ℤ → UInt8)

theorem holds_bytes : Holds (M.memory outside) 0 M.bytes := by
  intro i hi
  rw [memory, Int.zero_add, if_pos (Int.natCast_nonneg i), Int.toNat_natCast,
    List.getD_eq_getElem?_getD, List.getElem?_eq_getElem hi, Option.getD_some]

theorem length_bytes :
    M.bytes.length = M.body.length + 8 + M.json.length + 16 + M.sig.length + 16 := by
  simp only [bytes, List.length_append, M.hdr_length, length_trailer M.manifestTag_length,
    length_trailer M.sigTag_length]

/-- The two trailers are found where the image has them. -/
theorem trailers :
    trailerBad (M.memory outside) ((M.bytes.length : ℤ) - trailerSize) M.bytes.length = false ∧
      signatureSize (M.memory outside) M.bytes.length = M.sig.length + 16 ∧
      trailerBad (M.memory outside) (manifestTrailer (M.memory outside) M.bytes.length)
        M.bytes.length = false ∧
      manifestSize (M.memory outside) M.bytes.length = 8 + M.json.length + 16 := by
  have hts : trailerSize = 16 := rfl
  have hlen := M.length_bytes
  have hlt : M.bytes.length < 2 ^ 31 := M.length_lt
  have hsig := (M.holds_bytes outside).right.trailer_eq M.sigTag_length
    (by omega : _ < M.bytes.length) (by omega)
  have hman := (M.holds_bytes outside).left.left.right.trailer_eq M.manifestTag_length
    (by omega : _ < M.bytes.length) (by omega)
  simp only [List.length_append, M.hdr_length, length_trailer M.manifestTag_length] at hsig hman
  have hoff : (0 : ℤ) + ((M.body.length + 8 + M.json.length + 16 + M.sig.length : ℕ) : ℤ)
      = (M.bytes.length : ℤ) - trailerSize := by omega
  rw [hoff] at hsig
  have hsize : signatureSize (M.memory outside) M.bytes.length = M.sig.length + 16 := hsig.2
  have hoff' : (0 : ℤ) + ((M.body.length + 8 + M.json.length : ℕ) : ℤ)
      = manifestTrailer (M.memory outside) M.bytes.length := by
    rw [manifestTrailer, hsize]
    omega
  rw [hoff'] at hman
  exact ⟨hsig.1, hsize, hman.1, hman.2⟩

/-- The manifest and the start of its trailer, where the check copies them from. -/
theorem holds_json :
    Holds (M.memory outside) (M.body.length + 8)
      (M.json ++ (be32Bytes fwimageMagic ++ M.manifestTag)) := by
  have h := (M.holds_bytes outside).left.left
  have hassoc : M.body ++ M.hdr ++ M.json ++ trailer M.manifestTag (8 + M.json.length + 16)
      = M.body ++ M.hdr ++ (M.json ++ (be32Bytes fwimageMagic ++ M.manifestTag))
        ++ be32Bytes (8 + M.json.length + 16) := by
    simp only [trailer, List.append_assoc]
  rw [hassoc] at h
  have hright := h.left.right
  rw [List.length_append, M.hdr_length, Int.zero_add] at hright
  exact_mod_cast hright

/-- **What a signed image has to say.** -/
theorem validate_iff :
    fwtoolValidateManifest (M.memory outside) M.bytes.length = .firmwareValid ↔
      ∀ name ∈ manifestNames, name <:+: M.json.take (min M.json.length 511) := by
  have hts : trailerSize = 16 := rfl
  have hlen := M.length_bytes
  have hlt : M.bytes.length < 2 ^ 31 := M.length_lt
  obtain ⟨hbad, hsig, hbad', hman⟩ := M.trailers outside
  have hoff : manifestTrailer (M.memory outside) M.bytes.length
      - (((8 + M.json.length + 16 : ℕ) : ℤ) - trailerSize - 8) = M.body.length + 8 := by
    rw [manifestTrailer, hsig]
    omega
  have hfound : ∀ name ∈ manifestNames, (strstr (manifestBuffer (M.memory outside)
      (manifestTrailer (M.memory outside) M.bytes.length
        - (((8 + M.json.length + 16 : ℕ) : ℤ) - trailerSize - 8))
      (manifestLen (8 + M.json.length + 16))) 0 name).isSome ↔
        name <:+: M.json.take (min M.json.length 511) := by
    intro name hname
    rw [hoff, manifestLen_json _ (by omega)]
    exact strstr_manifestBuffer (M.holds_json outside) M.manifestTag_length M.json_nul hname
  have hlong : ¬ M.bytes.length < trailerSize * 2 := by omega
  rw [fwtoolValidateManifest_eq hlong hbad hbad', hman]
  exact forall₂_congr hfound

/-- An image for one device, of one byte, without a signature. -/
def oneDevice : ManifestImage where
  body := [0]
  hdr := List.replicate 8 0
  json := ascii "supported_devices: teltonika,rutx11"
  manifestTag := List.replicate 8 0
  sig := []
  sigTag := List.replicate 8 0
  hdr_length := rfl
  manifestTag_length := rfl
  sigTag_length := rfl
  json_nul := by decide
  json_ne := by decide
  length_lt := by decide

example : fwtoolValidateManifest (oneDevice.memory fun _ => 0) oneDevice.bytes.length
    = .firmwareValid := by
  decide

end ManifestImage

end Fwtool
