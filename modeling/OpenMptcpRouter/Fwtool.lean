/-
The firmware manifest check of the boot loader (`lib/fwtool.c`).

`fwtoolValidateManifest rd length` is `fwtool_validate_manifest (ptr, length)`,
where `rd off` is the byte at `ptr + off`.  Offsets are integers: the two size
fields of the trailers come from the image, and the code compares each of them
with `length` only, so an offset may leave `[0, length)` on either side.
`ReadsInside rd length k` says that on this image none does leave `[0, k)`, and
`fwtoolValidateManifest_congr` that the answer then depends on these bytes only.
-/
import OpenMptcpRouter.Lib.CString

namespace Fwtool

open CString

/-- `enum fwtool_ret_id`. -/
inductive FwtoolRet
  | firmwareValid
  | errorInvalidFile
  deriving DecidableEq, Repr

/-- `FWIMAGE_MAGIC`. -/
def fwimageMagic : ℕ := 0x46577830

/-- `sizeof (struct fwimage_trailer)`. -/
def trailerSize : ℕ := 16

/-- `sizeof (buffer)`. -/
def bufferSize : ℕ := 512

/-- `cpu_to_be32` of the word at offset `off`. -/
def be32 (rd : ℤ → UInt8) (off : ℤ) : ℕ :=
  (rd off).toNat * 2 ^ 24 + (rd (off + 1)).toNat * 2 ^ 16 + (rd (off + 2)).toNat * 2 ^ 8
    + (rd (off + 3)).toNat

/-- A trailer is refused when its magic is wrong or its size reaches `length`. -/
def trailerBad (rd : ℤ → UInt8) (off : ℤ) (length : ℕ) : Bool :=
  be32 rd off ≠ fwimageMagic || length ≤ be32 rd (off + 12)

/-- `len` after the clamp; the comparison with `sizeof (buffer)` is unsigned. -/
def manifestLen (size : ℕ) : ℕ :=
  let len := (((size : ℤ) - trailerSize) % 2 ^ 32).toNat
  if bufferSize < len then bufferSize else len

/-- `buffer` after the copy of `len` bytes from offset `off` and the store of the
terminator at `len - 1` (which falls outside the buffer when `len` is 0). -/
def manifestBuffer (rd : ℤ → UInt8) (off : ℤ) (len : ℕ) : List UInt8 :=
  (((List.range len).map fun i : ℕ => rd (off + i)) ++ List.replicate (bufferSize - len) 0).set
    (if len = 0 then bufferSize else len - 1) 0

/-- `fwtool_validate_manifest`. -/
def fwtoolValidateManifest (rd : ℤ → UInt8) (length : ℕ) : FwtoolRet :=
  if length < trailerSize * 2 then .errorInvalidFile
  else
    -- read signature trailer first
    let offset : ℤ := length - trailerSize
    if trailerBad rd offset length then .errorInvalidFile
    else
      -- read manifest trailer
      let offset : ℤ := length - trailerSize - be32 rd (offset + 12)
      if trailerBad rd offset length then .errorInvalidFile
      else
        let size := be32 rd (offset + 12)
        let offset : ℤ := offset - (size - trailerSize - 8)
        let buffer := manifestBuffer rd offset (manifestLen size)
        if (strstr buffer 0 (ascii "supported_devices")).isNone then .errorInvalidFile
        else if (strstr buffer 0 (ascii "teltonika,")).isNone then .errorInvalidFile
        else if (strstr buffer 0 (ascii "rutx")).isNone then .errorInvalidFile
        else .firmwareValid

/-- All the bytes the check reads lie in `[0, k)`. -/
def ReadsInside (rd : ℤ → UInt8) (length k : ℕ) : Prop :=
  length < trailerSize * 2 ∨ length ≤ k ∧
    let offset : ℤ := length - trailerSize
    (trailerBad rd offset length = true ∨
      let offset : ℤ := length - trailerSize - be32 rd (offset + 12)
      0 ≤ offset ∧ (trailerBad rd offset length = true ∨
        let size := be32 rd (offset + 12)
        let offset : ℤ := offset - (size - trailerSize - 8)
        0 ≤ offset ∧ offset + manifestLen size ≤ k))

instance (rd : ℤ → UInt8) (length k : ℕ) : Decidable (ReadsInside rd length k) := by
  unfold ReadsInside; infer_instance

section Congr

variable {rd rd' : ℤ → UInt8} {k : ℕ} (hrd : ∀ off : ℤ, 0 ≤ off → off < k → rd off = rd' off)

include hrd

theorem be32_congr (off : ℤ) (h : 0 ≤ off) (hk : off + 4 ≤ k) : be32 rd off = be32 rd' off := by
  rw [be32, be32, hrd off h (by omega), hrd (off + 1) (by omega) (by omega),
    hrd (off + 2) (by omega) (by omega), hrd (off + 3) (by omega) (by omega)]

theorem trailerBad_congr (off : ℤ) (length : ℕ) (h : 0 ≤ off) (hk : off + 16 ≤ k) :
    trailerBad rd off length = trailerBad rd' off length := by
  rw [trailerBad, trailerBad, be32_congr hrd off h (by omega),
    be32_congr hrd (off + 12) (by omega) (by omega)]

theorem manifestBuffer_congr {off : ℤ} {len : ℕ} (h : 0 ≤ off) (hk : off + len ≤ k) :
    manifestBuffer rd off len = manifestBuffer rd' off len := by
  have hmap : ((List.range len).map fun i : ℕ => rd (off + i))
      = (List.range len).map fun i : ℕ => rd' (off + i) := by
    refine List.map_congr_left fun i hi => hrd _ (by omega) ?_
    rw [List.mem_range] at hi
    omega
  rw [manifestBuffer, manifestBuffer, hmap]

/-- The answer depends only on the bytes read. -/
theorem fwtoolValidateManifest_congr {length : ℕ} (h : ReadsInside rd length k) :
    fwtoolValidateManifest rd length = fwtoolValidateManifest rd' length := by
  rw [fwtoolValidateManifest, fwtoolValidateManifest]
  rcases h with hshort | ⟨hk, h⟩
  · rw [if_pos hshort, if_pos hshort]
  by_cases hshort : length < trailerSize * 2
  · rw [if_pos hshort, if_pos hshort]
  rw [if_neg hshort, if_neg hshort]
  have hts : trailerSize = 16 := rfl
  -- the signature trailer
  have hsig := trailerBad_congr hrd ((length : ℤ) - trailerSize) length
    (by omega) (by omega)
  have hsize := be32_congr hrd ((length : ℤ) - trailerSize + 12) (by omega) (by omega)
  simp only [← hsig, ← hsize]
  rcases h with hbad | ⟨hoff, h⟩
  · rw [if_pos hbad, if_pos hbad]
  generalize hd : (length : ℤ) - trailerSize - be32 rd ((length : ℤ) - trailerSize + 12) = off
    at h hoff ⊢
  have hle : off + 16 ≤ k := by omega
  -- the manifest trailer
  simp only [← trailerBad_congr hrd off length hoff hle,
    ← be32_congr hrd (off + 12) (by omega) (by omega)]
  rcases h with hbad | ⟨hoff', hlen⟩
  · rw [if_pos hbad, if_pos hbad]
  rw [manifestBuffer_congr hrd hoff' hlen]

end Congr

end Fwtool
